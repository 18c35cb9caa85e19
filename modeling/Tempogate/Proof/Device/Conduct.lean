/-
This file says how a request to the device pages treats the limiters and its user code.
-/

import Tempogate.Construction.Device.Desk

namespace Tempogate.Device

open Foundation Oidc Ratelimit DeviceUI

inductive Charge
  | spend (budget : Budget) (key : String) (granted : Bool)
  | refund (budget : Budget) (key : String)
  deriving DecidableEq, Repr

/-- This is the call of a charge on one limiter. -/
def Charge.call (budget : Budget) (moment : Time) : Charge → Option Call
  | spend other key _ => if other = budget then some (.allow key moment) else none
  | refund other key => if other = budget then some (.refund key moment) else none

/-- The account of a request says whose it was, what it did to the limiters, whether it looked up
or tried to decide a user code, what the first such answer told it about the code, and whether the
resolver granted the person nothing. -/
structure Account where
  session : Option SID
  charges : List Charge
  examined : Bool
  verdict : Option Bool
  refused : Bool
  deriving DecidableEq

namespace Account

def empty : Account := ⟨none, [], false, none, false⟩

def charge (charge : Charge) (account : Account) : Account :=
  { account with charges := account.charges ++ [charge] }

def examine (verdict : Option Bool) (account : Account) : Account :=
  { account with examined := true, verdict := account.verdict.or verdict }

def refuse (account : Account) : Account := { account with refused := true }

variable (moment : Time)

/-- A failing lookup tells nothing about the code. -/
def looked : Except StoreError DeviceCode → Option Bool
  | .ok deviceCode => some (DeviceUI.usable moment deviceCode)
  | .error .deviceCodeNotFound => some false
  | .error _ => none

/-- A failing decision tells nothing about the code. -/
def decided : Except DecisionError Unit → Option Bool
  | .ok () => some true
  | .error (.failure _) => none
  | .error _ => some false

def note (account : Account) : Exchange deviceUICalls → Account
  | ⟨.inl (.allow budget key), granted⟩ => account.charge (.spend budget key granted)
  | ⟨.inl (.refund budget key), _⟩ => account.charge (.refund budget key)
  | ⟨.inr (.lookupBrowserSession _), .ok (some session)⟩ =>
    if moment < session.expiresAt ∧ session.subject ≠ "" then
      { account with session := some session.sid }
    else account
  | ⟨.inr (.lookupDeviceCodeByUserCode _), answer⟩ => account.examine (looked moment answer)
  | ⟨.inr (.approveDeviceCode _ _ _), answer⟩ => account.examine (decided answer)
  | ⟨.inr (.denyDeviceCode _ _), answer⟩ => account.examine (decided answer)
  | ⟨.inr (.resolve _), .ok grant⟩ =>
    if grant.any fun grant => !grant.empty then account else account.refuse
  | _ => account

def of (exchanges : List (Exchange deviceUICalls)) : Account :=
  exchanges.foldl (note moment) empty

/-- These are the calls of a request on one limiter. -/
def calls (budget : Budget) (moment : Time) (account : Account) : List Call :=
  account.charges.filterMap (Charge.call budget moment)

end Account

open Account

/-- Every reading of the clock gives the time of the request. -/
def OnTime (moment : Time) : Exchange deviceUICalls → Prop
  | ⟨.inl .now, reading⟩ => reading = moment
  | _ => True

/-- The ghost of a request is its account. -/
def accounting (moment : Time) : Protocol (Exchange deviceUICalls) Account where
  assumes _ exchange := OnTime moment exchange
  permits _ _ := True
  advance := note moment

/-- A handler that starts with this account ends with one as described. -/
def Accounts {Result : Type} (moment : Time) (post : Account → Result → Prop)
    (handler : DeviceHandler Result) (account : Account) : Prop :=
  handler.Meets (accounting moment) Exchange.mk post account

variable (address : String)

/-- A request that finds both budgets open pays from both. -/
def paid (session : Option SID) : List Charge :=
  .spend .address address true :: (session.map fun sid => .spend .session sid.text true).toList

def repaid (session : Option SID) : List Charge :=
  .refund .address address :: (session.map fun sid => .refund .session sid.text).toList

/-- A session without attempts costs its address nothing. -/
def short (sid : SID) : List Charge :=
  [.spend .address address true, .spend .session sid.text false, .refund .address address]

section Calls

variable {moment : Time} {account : Account} {address : String} {session : Option SID}

namespace Accounts

theorem pure {Result : Type} {post : Account → Result → Prop} {result : Result}
    (holds : post account result) :
    Accounts moment post (.done result) account := holds

theorem bind {Result Middle : Type} {middle : Account → Middle → Prop}
    {post : Account → Result → Prop} {handler : DeviceHandler Middle}
    {continuation : Middle → DeviceHandler Result}
    (first : Accounts moment middle handler account)
    (rest : ∀ after result, middle after result →
      Accounts moment post (continuation result) after) :
    Accounts moment post (handler >>= continuation) account :=
  Program.Meets.bind first rest

theorem now : Accounts moment (fun after reading => after = account ∧ reading = moment)
    (desk .now) account :=
  fun _ reads => ⟨trivial, rfl, reads⟩

theorem allow (budget : Budget) (key : String) :
    Accounts moment (fun after granted => after = account.charge (.spend budget key granted))
      (desk (.allow budget key)) account :=
  fun _ _ => ⟨trivial, rfl⟩

theorem refund (budget : Budget) (key : String) :
    Accounts moment (fun after _ => after = account.charge (.refund budget key))
      (desk (.refund budget key)) account :=
  fun _ _ => ⟨trivial, rfl⟩

/-- A call outside the desk is noted in the account. -/
theorem reach (call : PageCall) :
    Accounts moment (fun after answer => after = account.note moment ⟨.inr call, answer⟩)
      (reach call) account :=
  fun _ _ => ⟨trivial, rfl⟩

end Accounts

/-- Reading the session charges nothing. -/
theorem get_accounts (manager : SessionManager) (cookie : String) : Accounts moment
      (fun after result => match result with
        | .ok session => after = { account with session := some session.sid }
        | .error _ => after = account) (manager.get cookie) account := by
  unfold SessionManager.get
  cases manager.sidFromRequest cookie with
  | none => exact .pure rfl
  | some sid =>
    refine .bind (.reach _) fun after answer noted => ?_
    match answer with
    | .error cause => exact .pure noted
    | .ok none => exact .pure noted
    | .ok (some session) =>
      refine .bind .now fun _ reading => ?_
      rintro ⟨rfl, rfl⟩
      by_cases dead : ¬ reading < session.expiresAt ∨ session.subject = ""
      · simp only [if_pos dead]
        refine .pure (noted.trans (if_neg ?_))
        rintro ⟨live, named⟩
        exact dead.elim (fun late => late live) named
      · simp only [if_neg dead]
        rw [not_or, not_not] at dead
        exact .pure (noted.trans (if_pos dead))

/-- An attempt pays both budgets or is refused by one. -/
theorem spendUserCodeAttempt_accounts (known : account.session = session)
    (unspent : account.charges = []) :
    Accounts moment (fun after allowed =>
        allowed = true ∧ after = { account with charges := paid address session } ∨
          allowed = false ∧ (after = { account with charges := [.spend .address address false] } ∨
              ∃ sid, session = some sid ∧ after = { account with charges := short address sid }))
      (spendUserCodeAttempt address session) account := by
  refine .bind (.allow .address address) fun after granted => ?_
  rintro rfl
  cases granted with
  | false => exact .pure (.inr ⟨rfl, .inl (by simp [charge, unspent])⟩)
  | true =>
    cases session with
    | none => exact .pure (.inl ⟨rfl, by simp [charge, unspent, paid]⟩)
    | some sid =>
      refine .bind (.allow .session sid.text) fun after granted => ?_
      rintro rfl
      cases granted with
      | true => exact .pure (.inl ⟨rfl, by simp [charge, unspent, paid]⟩)
      | false =>
        refine .bind (.refund .address address) fun after _ => ?_
        rintro rfl
        exact .pure (.inr ⟨rfl, .inr ⟨sid, rfl, by simp [charge, unspent, short]⟩⟩)

theorem refundUserCodeAttempt_accounts : Accounts moment
      (fun after _ => after = { account with charges := account.charges ++ repaid address session })
      (refundUserCodeAttempt address session) account := by
  refine .bind (.refund .address address) fun after _ => ?_
  rintro rfl
  cases session with
  | none => exact .pure (by simp [charge, repaid])
  | some sid =>
    refine (Accounts.refund .session sid.text).mono fun after _ => ?_
    simp [charge, repaid]

theorem userCodeUsable_accounts (canonical : String) : Accounts moment
      (fun after result => ∃ verdict, after = account.examine verdict ∧
        match result with
        | .ok usable => verdict = some usable
        | .error _ => verdict = none) (userCodeUsable canonical) account := by
  refine .bind (.reach _) fun after answer noted => ?_
  cases answer with
  | error error =>
    cases error with
    | deviceCodeNotFound => exact .pure ⟨_, noted, rfl⟩
    | _ => exact .pure ⟨_, noted, rfl⟩
  | ok deviceCode =>
    refine .bind .now fun _ reading => ?_
    rintro ⟨rfl, rfl⟩
    exact .pure ⟨_, noted, rfl⟩

theorem denyForNoAccess_accounts (canonical : String) : Accounts moment
      (fun after result => ∃ verdict, after = account.examine verdict ∧
        match result with
        | .ok page => page = .noAccess
        | .error _ => verdict = none) (denyForNoAccess canonical) account := by
  refine .bind .now fun _ reading => ?_
  rintro ⟨rfl, rfl⟩
  refine .bind (.reach _) fun after answer noted => ?_
  cases answer with
  | ok _ => exact .pure ⟨_, noted, rfl⟩
  | error error =>
    cases error with
    | failure cause => exact .pure ⟨_, noted, rfl⟩
    | _ => exact .pure ⟨_, noted, rfl⟩

/-- A person without access is refused. -/
theorem refuseIfNoAccess_accounts (session : BrowserSession) (canonical : String) : Accounts moment
      (fun after result => match result with
        | .ok none => after = account
        | .ok (some page) => page = .noAccess ∧ ∃ verdict, after = account.refuse.examine verdict
        | .error _ => after = account ∨ after = account.refuse.examine none)
      (refuseIfNoAccess session canonical) account := by
  refine .bind (.reach _) fun after answer noted => ?_
  cases answer with
  | error cause => exact .pure (.inl noted)
  | ok grant =>
    simp only [note] at noted
    by_cases granted : (grant.any fun grant => !grant.empty) = true
    · simp only [if_pos granted] at noted ⊢
      exact .pure noted
    · simp only [if_neg granted] at noted ⊢
      subst noted
      refine .bind (denyForNoAccess_accounts canonical) fun after result => ?_
      rintro ⟨verdict, rfl, told⟩
      cases result with
      | error cause =>
        subst told
        exact .pure (.inr rfl)
      | ok page => exact .pure ⟨told, verdict, rfl⟩

end Calls

/-- These are the ways in which a request treats the limiters and its user code. -/
inductive Conduct (address : String) (approves : Bool) (account : Account)
    (page : Except String Page) : Prop
  | idle (charges : account.charges = []) (unexamined : account.examined = false)
      (untold : account.verdict = none) (served : page ≠ .ok .tooManyAttempts)
  | barred (charges : account.charges = [.spend .address address false])
      (unexamined : account.examined = false) (untold : account.verdict = none)
  | short (sid : SID) (session : account.session = some sid)
      (charges : account.charges = short address sid) (unexamined : account.examined = false)
      (untold : account.verdict = none)
  | spent (charges : account.charges = paid address account.session)
      (served : page ≠ .ok .tooManyAttempts)
      (kept : account.verdict = some true → approves = true ∧ account.refused = true)
  | returned (charges : account.charges =
        paid address account.session ++ repaid address account.session)
      (told : account.verdict = some true) (served : page ≠ .ok .tooManyAttempts)
      (granted : approves = true → account.refused = false)

section Handlers

variable {moment : Time} {account : Account} {address : String} {session : Option SID}

/-- Nothing but the session of the request is known. -/
def fresh (session : Option SID) : Account := { empty with session }

/-- What follows the lookup of a usable code leaves the limiters alone. -/
theorem lookUp_accounts {canonical : String} {next : DeviceHandler (Except String Page)}
    (rest : ∀ account : Account, account.verdict = some true → Accounts moment
        (fun after page => page ≠ .ok .tooManyAttempts ∧ after.session = account.session ∧
          after.charges = account.charges ∧ after.verdict = some true) next account) :
    Accounts moment (Conduct address false) (lookUp address session canonical next)
      (fresh session) := by
  refine .bind (spendUserCodeAttempt_accounts rfl rfl) fun after allowed => ?_
  rintro (⟨rfl, rfl⟩ | ⟨rfl, rfl | ⟨sid, known, rfl⟩⟩)
  · refine .bind (userCodeUsable_accounts canonical) fun after result => ?_
    rintro ⟨verdict, rfl, told⟩
    match result with
    | .error cause => exact .pure (.spent rfl nofun (by subst told; nofun))
    | .ok false => exact .pure (.spent rfl nofun (by subst told; nofun))
    | .ok true =>
      refine .bind refundUserCodeAttempt_accounts fun after _ => ?_
      rintro rfl
      refine (rest _ told).mono fun after page => ?_
      rintro ⟨served, same, charges, kept⟩
      exact .returned (charges.trans (by rw [same]; rfl)) kept served nofun
  · exact .pure (.barred rfl rfl rfl)
  · exact .pure (.short sid known rfl rfl rfl)

variable (ui : DeviceUI)

theorem afterEntry_accounts (canonical : String) (account : Account) :
    Accounts moment (fun after page => page ≠ .ok .tooManyAttempts ∧ after = account)
      (ui.afterEntry session canonical) account := by
  cases session with
  | some sid => exact .pure ⟨nofun, rfl⟩
  | none =>
    refine .bind (.bind (.reach .newStateNonce) fun after answer noted => ?_)
      (fun after result (same : after = account) => ?_)
    · cases answer with
      | error cause => exact .pure noted
      | ok nonce =>
        refine .bind .now fun _ _ => ?_
        rintro ⟨rfl, rfl⟩
        exact .pure noted
    · cases result with
      | error cause => exact .pure ⟨nofun, same⟩
      | ok state => exact .pure ⟨nofun, same⟩

/-- Entering a code keeps to the conduct. -/
theorem handleEnterPost_conduct (input : DeviceEnterPostInput) :
    Accounts moment (Conduct address false) (ui.handleEnterPost address input) .empty := by
  have idle (reason : String) : Conduct address false .empty (.ok (.error reason)) :=
    .idle rfl rfl rfl nofun
  have onward (session : Option SID) (canonical : String) : Accounts moment (Conduct address false)
        (lookUp address session canonical (ui.afterEntry session canonical))
        (fresh session) := by
    refine lookUp_accounts fun account told => ?_
    refine (afterEntry_accounts ui canonical account).mono fun after page => ?_
    rintro ⟨served, rfl⟩
    exact ⟨served, rfl, rfl, told⟩
  unfold handleEnterPost
  cases ui.codec.parseQuery input.rawBody with
  | none => exact .pure (idle _)
  | some form =>
    dsimp only
    split
    · exact .pure (idle _)
    refine .bind (get_accounts _ _) fun after result told => ?_
    match result with
    | .error (.failure cause) =>
      subst told
      exact .pure (.idle rfl rfl rfl nofun)
    | .error .noSession =>
      subst told
      exact onward none _
    | .ok session =>
      subst told
      exact onward (some session.sid) _

/-- So does confirming one. -/
theorem handleConfirm_conduct (input : DeviceConfirmInput) :
    Accounts moment (Conduct address false) (ui.handleConfirm address input) .empty := by
  unfold handleConfirm
  dsimp only
  split
  · exact .pure (.idle rfl rfl rfl nofun)
  refine .bind (get_accounts _ _) fun after result told => ?_
  match result with
  | .error .noSession =>
    subst told
    exact .pure (.idle rfl rfl rfl nofun)
  | .error (.failure cause) =>
    subst told
    exact .pure (.idle rfl rfl rfl nofun)
  | .ok session =>
    subst told
    refine lookUp_accounts fun account usable => ?_
    refine .bind (refuseIfNoAccess_accounts session _) fun after result told => ?_
    match result with
    | .ok none =>
      subst told
      exact .pure ⟨nofun, rfl, rfl, usable⟩
    | .ok (some page) =>
      obtain ⟨rfl, verdict, rfl⟩ := told
      exact .pure ⟨nofun, rfl, rfl, by simp [examine, refuse, usable]⟩
    | .error cause =>
      rcases told with rfl | rfl
      · exact .pure ⟨nofun, rfl, rfl, usable⟩
      · exact .pure ⟨nofun, rfl, rfl, by simp [examine, refuse, usable]⟩

variable (approve : Bool)

theorem flipDeviceCode_accounts (session : BrowserSession) (canonical : String) :
    Accounts moment (fun after answer => after = account.examine (Account.decided answer))
      (flipDeviceCode approve session canonical moment) account := by
  cases approve with
  | true => exact .reach _
  | false => exact .reach _

theorem decide_conduct (session : BrowserSession) (canonical : String) :
    Accounts moment (Conduct address approve) (decide address approve session canonical)
      { fresh (some session.sid) with charges := paid address (some session.sid) } := by
  refine .bind .now fun _ reading => ?_
  rintro ⟨rfl, rfl⟩
  refine .bind (flipDeviceCode_accounts approve session canonical) fun after answer => ?_
  rintro rfl
  match answer with
  | .error (.failure cause) => exact .pure (.spent rfl nofun nofun)
  | .error .notPending => exact .pure (.spent rfl nofun nofun)
  | .error .expired => exact .pure (.spent rfl nofun nofun)
  | .ok () =>
    refine .bind refundUserCodeAttempt_accounts fun after _ => ?_
    rintro rfl
    exact .pure (.returned rfl rfl (by cases approve <;> nofun) fun _ => rfl)

/-- So does deciding one. -/
theorem handleDecision_conduct (input : DeviceDecisionInput) :
    Accounts moment (Conduct address approve) (ui.handleDecision address approve input) .empty := by
  have idle (session : Option SID) (reason : String) :
      Conduct address approve (fresh session) (.ok (.error reason)) := .idle rfl rfl rfl nofun
  unfold handleDecision
  split
  · exact .pure (idle none _)
  cases ui.codec.parseQuery input.rawBody with
  | none => exact .pure (idle none _)
  | some form =>
    refine .bind (get_accounts _ _) fun after result told => ?_
    match result with
    | .error .noSession =>
      subst told
      exact .pure (idle none _)
    | .error (.failure cause) =>
      subst told
      exact .pure (.idle rfl rfl rfl nofun)
    | .ok session =>
      subst told
      dsimp only
      split
      · exact .pure (idle (some session.sid) _)
      split
      · exact .pure (idle (some session.sid) _)
      refine .bind (@spendUserCodeAttempt_accounts _ (fresh (some session.sid)) _ _ rfl rfl)
        fun after allowed => ?_
      rintro (⟨rfl, rfl⟩ | ⟨rfl, rfl | ⟨sid, known, rfl⟩⟩)
      · cases approve with
        | false => exact decide_conduct false session _
        | true =>
          refine .bind (refuseIfNoAccess_accounts session _) fun after result told => ?_
          match result with
          | .ok none =>
            subst told
            exact decide_conduct true session _
          | .ok (some page) =>
            obtain ⟨rfl, verdict, rfl⟩ := told
            exact .pure (.spent rfl nofun fun _ => ⟨rfl, rfl⟩)
          | .error cause =>
            rcases told with rfl | rfl
            · exact .pure (.spent rfl nofun nofun)
            · exact .pure (.spent rfl nofun nofun)
      · exact .pure (.barred rfl rfl rfl)
      · exact .pure (.short sid known rfl rfl rfl)

/-- Every request conducts itself in one of these ways. -/
theorem handle_conduct (address : String) (request : DeviceRequest) :
    Accounts moment (Conduct address request.approves) (request.handle ui address) .empty := by
  cases request with
  | enter input => exact handleEnterPost_conduct ui input
  | confirm input => exact handleConfirm_conduct ui input
  | decide approve input => exact handleDecision_conduct ui approve input

end Handlers

end Tempogate.Device
