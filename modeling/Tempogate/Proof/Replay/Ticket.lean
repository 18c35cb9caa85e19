/-
This file proves that every token request presents one credential, pays for a replay
and saves only into the family it holds.
-/

import Tempogate.Construction.Oidc.Token
import Tempogate.Foundation.Protocol

namespace Tempogate.Oidc

open Foundation Program Program.Meets

/-- These are the acts of a token request. -/
inductive Act
  | outside
  | drew (familyID : String)
  | presented (clientID : String) (answer : Except StoreError Refresh)
  | redeemed (familyID : String) (answer : Except StoreError AuthCode)
  | polled
  | saved (familyID : String)
  | revoked (familyID : String)
  | foreign

def observeActs : Observer calls Act
  | .inl .randomFamilyID, .ok familyID => .drew familyID
  | .inl _, _ => .outside
  | .inr (.refresh (.consumeRefresh _ clientID _)), answer => .presented clientID answer
  | .inr (.refresh (.saveRefresh refresh)), _ => .saved refresh.familyID
  | .inr (.refresh (.revokeRefreshFamily familyID _)), _ => .revoked familyID
  | .inr (.authCode (.consumeAuthCode _ familyID _)), answer => .redeemed familyID answer
  | .inr (.deviceCode _), _ => .polled
  | .inr _, _ => .foreign

variable {clientID : String} {answer : Except StoreError Refresh}

section Shown

variable {event : Event calls} {familyID : String}

/-- An outside call shows a draw or nothing. -/
theorem observeActs_inl (call : EnvironmentCall) (answer : call.Answer) :
    observeActs (.inl call) answer = .outside ∨
      ∃ familyID, observeActs (.inl call) answer = .drew familyID := by
  cases call with
  | randomFamilyID =>
    rcases (answer : Except String String) with cause | drawn
    · exact .inl rfl
    · exact .inr ⟨drawn, rfl⟩
  | _ => exact .inl rfl

/-- Only outside calls show an outside act. -/
theorem outside_of_shown (shown : observeActs event.effect event.answer = .outside) :
    ∃ call, event.effect = .inl call := by
  match event with
  | ⟨_, .inl call, _⟩ => exact ⟨call, rfl⟩
  | ⟨_, .inr (.refresh call), _⟩ => cases call <;> cases shown
  | ⟨_, .inr (.authCode call), _⟩ => cases call <;> cases shown
  | ⟨_, .inr (.authRequest _), _⟩ | ⟨_, .inr (.deviceCode _), _⟩ => cases shown

/-- Only the revocation of a family shows it revoked. -/
theorem revoked_of_shown (shown : observeActs event.effect event.answer = .revoked familyID) :
    ∃ moment, event.effect = .inr (.refresh (.revokeRefreshFamily familyID moment)) := by
  rcases event with ⟨_, call | call, answer⟩
  · rcases observeActs_inl call answer with other | ⟨drawn, other⟩ <;> cases other.symm.trans shown
  · cases call with
    | refresh call =>
      cases call with
      | revokeRefreshFamily name moment => exact ⟨moment, by rw [Act.revoked.inj shown]⟩
      | _ => cases shown
    | authCode call => cases call <;> cases shown
    | _ => cases shown

/-- A saved token shows its family saved. -/
theorem shown_of_saved {refresh : Refresh}
    (performed : event.effect = .inr (.refresh (.saveRefresh refresh))) :
    observeActs event.effect event.answer = .saved refresh.familyID := by
  obtain ⟨process, effect, answer⟩ := event
  obtain rfl : effect = _ := performed
  rfl

/-- Only the consumption of a token shows it presented. -/
theorem presented_of_shown
    (shown : observeActs event.effect event.answer = .presented clientID answer) :
    ∃ token moment, event =
      ⟨event.process, .inr (.refresh (.consumeRefresh token clientID moment)), answer⟩ := by
  rcases event with ⟨_, call | call, answer⟩
  · rcases observeActs_inl call answer with other | ⟨drawn, other⟩ <;> cases other.symm.trans shown
  · cases call with
    | refresh call =>
      cases call with
      | consumeRefresh token client moment =>
        obtain ⟨rfl, rfl⟩ := Act.presented.inj shown
        exact ⟨token, moment, rfl⟩
      | _ => cases shown
    | authCode call => cases call <;> cases shown
    | _ => cases shown

end Shown

/-- Every call can be answered. -/
theorem nonempty_answer (effect : calls.Effect) : Nonempty (calls.Answer effect) := by
  match effect with
  | .inl .now => exact ⟨(0 : Int)⟩
  | .inl .randomFamilyID | .inl .newRefresh | .inl (.mintIDToken _) =>
    exact ⟨(.error "" : Except String String)⟩
  | .inl (.resolve _) => exact ⟨(.error "" : Except String (Option Perms.Grant))⟩
  | .inl (.mint _) => exact ⟨(.error "" : Except String (String × String))⟩
  | .inr (.refresh call) => cases call <;> exact ⟨.error .refreshNotFound⟩
  | .inr (.authCode call) => cases call <;> exact ⟨.error .authCodeNotFound⟩
  | .inr (.authRequest call) => cases call <;> exact ⟨.error .authRequestNotFound⟩
  | .inr (.deviceCode call) => cases call <;> exact ⟨.error .deviceCodeNotFound⟩

/-- A request starts fresh and holds at most one family.
One that presents a spent credential owes the revocation of its family. -/
inductive Ticket
  | fresh
  | drew (familyID : String)
  | visited
  | holds (familyID : String)
  | owes (familyID : String)
  | refused
  | past
  deriving DecidableEq

namespace Ticket

/-- The request may still ask the outside. -/
def busy : Ticket → Bool
  | fresh | drew _ | visited | holds _ => true
  | owes _ | refused | past => false

/-- A presented token gives the request its family, or a debt if it was spent before. -/
def presented : Except StoreError Refresh → Ticket
  | .ok refresh => holds refresh.familyID
  | .error (.refreshReused refresh) => owes refresh.familyID
  | .error .refreshNotFound => refused
  | .error _ => past

/-- A redeemed code gives the request the family it drew, or a debt if it was spent before. -/
def redeemed (familyID : String) : Except StoreError AuthCode → Ticket
  | .ok _ => holds familyID
  | .error (.authCodeReused authCode) =>
    if authCode.familyID = "" then past else owes authCode.familyID
  | .error _ => past

/-- The credential decides what a request may do next. -/
def read : Ticket → Act → Option Ticket
  | ticket, .outside => if ticket.busy then some ticket else none
  | fresh, .drew familyID => some (drew familyID)
  | visited, .drew familyID => some (holds familyID)
  | holds held, .drew familyID => if held = "" then some (holds familyID) else none
  | fresh, .presented clientID answer =>
    if Storable clientID then some (presented answer) else none
  | drew drawn, .redeemed familyID answer =>
    if drawn = familyID then some (redeemed familyID answer) else none
  | fresh, .polled | visited, .polled => some visited
  | holds held, .saved familyID => if held = familyID then some past else none
  | holds held, .revoked familyID => if held = familyID then some past else none
  | owes owed, .revoked familyID => if owed = familyID then some past else none
  | _, _ => none

/-- This relation lists what each ticket reads. -/
inductive Reads : Ticket → Act → Ticket → Prop
  | outside {ticket : Ticket} (busy : ticket.busy = true) : Reads ticket .outside ticket
  | draws (familyID : String) : Reads fresh (.drew familyID) (drew familyID)
  | starts (familyID : String) : Reads visited (.drew familyID) (holds familyID)
  | names (familyID : String) : Reads (holds "") (.drew familyID) (holds familyID)
  | presents {next : Ticket} {clientID : String} {answer : Except StoreError Refresh}
      (storable : Storable clientID) (same : next = presented answer) :
      Reads fresh (.presented clientID answer) next
  | redeems {next : Ticket} {familyID : String} {answer : Except StoreError AuthCode}
      (same : next = redeemed familyID answer) :
      Reads (drew familyID) (.redeemed familyID answer) next
  | visits : Reads fresh .polled visited
  | polls : Reads visited .polled visited
  | saves (familyID : String) : Reads (holds familyID) (.saved familyID) past
  | revokes (familyID : String) : Reads (holds familyID) (.revoked familyID) past
  | pays (familyID : String) : Reads (owes familyID) (.revoked familyID) past

section Read

variable {ticket next : Ticket} {act : Act} {familyID : String}

theorem Reads.of_read (reads : ticket.read act = some next) : Reads ticket act next := by
  unfold read at reads
  split at reads <;> try split at reads
  all_goals cases reads
  all_goals subst_vars
  -- The cases come in the order of the relation.
  exacts [.outside ‹_›, .draws _, .starts _, .names _, .presents ‹_› rfl, .redeems rfl, .visits,
    .polls, .saves _, .revokes _, .pays _]

/-- A presented token leaves its request neither fresh nor with a draw. -/
theorem presented_ne (answer : Except StoreError Refresh) :
    presented answer ≠ fresh ∧ ∀ familyID, presented answer ≠ drew familyID := by
  rcases answer with error | refresh
  · cases error <;> exact ⟨nofun, nofun⟩
  · exact ⟨nofun, nofun⟩

theorem presented_eq_holds (same : presented answer = holds familyID) :
    ∃ refresh, answer = .ok refresh ∧ refresh.familyID = familyID := by
  rcases answer with error | refresh
  · cases error <;> cases same
  · exact ⟨refresh, rfl, holds.inj same⟩

/-- A redeemed code leaves its request holding, owing or over. -/
theorem redeemed_cases (familyID : String) (answer : Except StoreError AuthCode) :
    redeemed familyID answer = holds familyID ∨
      (∃ owed, redeemed familyID answer = owes owed) ∨ redeemed familyID answer = past := by
  rcases answer with error | authCode
  · cases error with
    | authCodeReused authCode =>
      by_cases unnamed : authCode.familyID = ""
      · exact .inr (.inr (if_pos unnamed))
      · exact .inr (.inl ⟨_, if_neg unnamed⟩)
    | _ => exact .inr (.inr rfl)
  · exact .inl rfl

theorem redeemed_ne (familyID : String) (answer : Except StoreError AuthCode) :
    redeemed familyID answer ≠ fresh ∧ ∀ drawn, redeemed familyID answer ≠ drew drawn := by
  rcases redeemed_cases familyID answer with held | ⟨owed, owing⟩ | ended
  · exact held ▸ ⟨nofun, nofun⟩
  · exact owing ▸ ⟨nofun, nofun⟩
  · exact ended ▸ ⟨nofun, nofun⟩

/-- A request that owes a revocation makes it next. -/
theorem read_owes (reads : (owes familyID).read act = some next) : act = .revoked familyID := by
  cases Reads.of_read reads with
  | outside busy => cases busy
  | pays => rfl

/-- A refused request does nothing more. -/
theorem read_refused (act : Act) : refused.read act = none := by
  cases act <;> rfl

/-- A credential is presented first, by a client of the registry. -/
theorem read_presented (reads : ticket.read (.presented clientID answer) = some next) :
    ticket = fresh ∧ Storable clientID := by
  cases Reads.of_read reads with
  | presents storable => exact ⟨rfl, storable⟩

/-- A code is redeemed with the family that its request drew. -/
theorem read_redeemed {answer : Except StoreError AuthCode}
    (reads : ticket.read (.redeemed familyID answer) = some next) :
    ticket = drew familyID ∧ next = redeemed familyID answer := by
  cases Reads.of_read reads with
  | redeems same => exact ⟨rfl, same⟩

/-- A request saves into the family it holds. -/
theorem read_saved (reads : ticket.read (.saved familyID) = some next) :
    ticket = holds familyID := by
  cases Reads.of_read reads
  rfl

/-- A request is fresh until it calls the store. -/
theorem read_fresh (reads : ticket.read act = some fresh) : ticket = fresh ∧ act = .outside := by
  cases Reads.of_read reads with
  | outside busy => exact ⟨rfl, rfl⟩
  | presents _ same => exact absurd same.symm (presented_ne _).1
  | redeems same => exact absurd same.symm (redeemed_ne _ _).1

/-- A drawn family was drawn by this act or before. -/
theorem read_drew (reads : ticket.read act = some (drew familyID)) :
    ticket = drew familyID ∨ act = .drew familyID := by
  cases Reads.of_read reads with
  | outside busy => exact .inl rfl
  | draws => exact .inr rfl
  | presents _ same => exact absurd same.symm ((presented_ne _).2 familyID)
  | redeems same => exact absurd same.symm ((redeemed_ne _ _).2 familyID)

/-- A held family was held before, or drawn, or it is the family of a token just taken. -/
theorem read_holds (reads : ticket.read act = some (holds familyID)) :
    ticket = holds familyID ∨ ticket = drew familyID ∨ act = .drew familyID ∨
      ∃ clientID refresh, act = .presented clientID (.ok refresh) ∧ Storable clientID ∧
        refresh.familyID = familyID := by
  cases Reads.of_read reads with
  | outside busy => exact .inl rfl
  | starts => exact .inr (.inr (.inl rfl))
  | names => exact .inr (.inr (.inl rfl))
  | presents storable same =>
    obtain ⟨refresh, rfl, family⟩ := presented_eq_holds same.symm
    exact .inr (.inr (.inr ⟨_, refresh, rfl, storable, family⟩))
  | @redeems _ name answer same =>
    rcases redeemed_cases name answer with held | ⟨owed, owing⟩ | ended
    · rw [holds.inj (same.trans held)]
      exact .inr (.inl rfl)
    · cases same.trans owing
    · cases same.trans ended

end Read

/-- An answered request owes nothing, and a refused one says so. -/
def Settles (ticket : Ticket) (result : Except TokenError TokenOutput) : Prop :=
  match ticket with
  | owes _ => False
  | refused => result = .error (oauthErr 400 "invalid_grant"
      "unknown, revoked, or other client's refresh token")
  | _ => True

/-- The request neither owes a revocation nor was refused. -/
def clear : Ticket → Bool
  | owes _ | refused => false
  | _ => true

variable {ticket : Ticket}

theorem clear_of_busy (busy : ticket.busy = true) : ticket.clear = true := by
  cases ticket <;> first | rfl | cases busy

theorem Settles.of_clear (clear : ticket.clear = true) (result : Except TokenError TokenOutput) :
    ticket.Settles result := by
  cases ticket <;> trivial

/-- A request may issue into the family it holds, or into one it has yet to draw. -/
def MayIssue (familyID : String) (ticket : Ticket) : Prop :=
  ticket = holds familyID ∨ ticket = visited ∧ familyID = ""

theorem MayIssue.busy {familyID : String} (may : ticket.MayIssue familyID) :
    ticket.busy = true := by
  rcases may with rfl | ⟨rfl, -⟩ <;> rfl

end Ticket

def ticketProtocol : Protocol Act Ticket := .automaton Ticket.read

abbrev Handler.Obeys {Result : Type} (handler : Handler Result)
    (post : Ticket → Result → Prop) (ticket : Ticket) : Prop :=
  handler.Meets ticketProtocol observeActs post ticket

section Obeys

variable {config : TokenConfig} {ticket : Ticket} {familyID : String}

/-- Asking the outside leaves the ticket of a busy request. -/
theorem outside_obeys {call : EnvironmentCall} (plain : call ≠ .randomFamilyID)
    (busy : ticket.busy = true) :
    (outside call).Obeys (fun after _ => after = ticket) ticket := by
  refine meets_automaton fun answer => ⟨ticket, ?_, rfl⟩
  have seen : observeActs (.inl call) answer = .outside := by
    cases call with
    | randomFamilyID => exact absurd rfl plain
    | _ => rfl
  rw [seen]
  cases ticket <;> first | rfl | cases busy

theorem now_obeys (busy : ticket.busy = true) : now.Obeys (fun after _ => after = ticket) ticket :=
  outside_obeys nofun busy

/-- The clients that authenticate are registered. -/
theorem storable_of_authenticated {config : TokenConfig} {secret : String} {grant : GrantType}
    {client : Client} (ok : authenticateClient config clientID secret grant = .ok client) :
    Storable clientID := by
  unfold authenticateClient at ok
  split at ok
  · cases ok
  · next client found =>
    obtain ⟨earlier, rest, split, -⟩ := List.lookup_eq_some_iff.mp found
    exact config.clientsStorable (clientID, client) (split ▸ List.mem_append_cons_self)

theorem consumeRefresh_obeys (token : String) (moment : Time) (storable : Storable clientID) :
    (consumeRefresh token clientID moment).Obeys (fun after consumed => match consumed with
        | .ok refresh => after = .holds refresh.familyID
        | .error (.refreshReused refresh) => after = .owes refresh.familyID
        | .error .refreshNotFound => after = .refused
        | .error _ => after = .past) .fresh := by
  refine meets_automaton fun answer => ⟨.presented answer, if_pos storable, ?_⟩
  rcases (answer : Except StoreError Refresh) with error | refresh
  · cases error <;> rfl
  · rfl

theorem consumeAuthCode_obeys (code familyID : String) (moment : Time) :
    (consumeAuthCode code familyID moment).Obeys (fun after consumed => match consumed with
        | .ok _ => after = .holds familyID
        | .error (.authCodeReused authCode) =>
          after = if authCode.familyID = "" then .past else .owes authCode.familyID
        | .error _ => after = .past) (.drew familyID) := by
  refine meets_automaton fun answer => ⟨.redeemed familyID answer, if_pos rfl, ?_⟩
  rcases (answer : Except StoreError AuthCode) with error | authCode
  · cases error <;> rfl
  · rfl

/-- A request revokes the family it holds or owes and is over. -/
theorem revokeFamily_obeys (moment : Time)
    (held : ticket = .holds familyID ∨ ticket = .owes familyID) :
    (revokeFamily familyID moment).Obeys (fun after _ => after = .past) ticket := by
  have called : (revokeRefreshFamily familyID moment).Obeys (fun after _ => after = .past)
      ticket := by
    refine meets_automaton fun answer => ⟨.past, ?_, rfl⟩
    rcases held with rfl | rfl
    · exact if_pos rfl
    · exact if_pos rfl
  refine called.bind ?_
  rintro after (error | count) rfl <;> rfl

theorem saveRefresh_obeys (refresh : Refresh) :
    (saveRefresh refresh).Obeys (fun after _ => after = .past) (.holds refresh.familyID) :=
  meets_automaton fun _ => ⟨.past, if_pos rfl, rfl⟩

theorem device_obeys (call : DeviceCodeCall) (visiting : ticket = .fresh ∨ ticket = .visited) :
    (method (.deviceCode call)).Obeys (fun after _ => after = .visited) ticket := by
  refine meets_automaton fun answer => ⟨.visited, ?_, rfl⟩
  rcases visiting with rfl | rfl <;> rfl

theorem permitted_obeys (email : String) (busy : ticket.busy = true) :
    (permitted email).Obeys (fun after _ => after = ticket) ticket := by
  refine bind (outside_obeys nofun busy) ?_
  rintro after (cause | _ | grant) rfl <;> rfl

variable {lineage : Lineage}

/-- A drawn family moves the ticket on, and a failed draw leaves it. -/
def Ticket.Drawn (next : String → Ticket) (kept after : Ticket) : Except String String → Prop
  | .ok familyID => after = next familyID
  | .error _ => after = kept

/-- A started lineage is in the family that the request holds. -/
theorem startLineage_obeys (may : ticket.MayIssue lineage.familyID) (moment : Time) :
    (startLineage lineage moment).Obeys (fun after started => match started with
        | .ok lineage => after = .holds lineage.familyID
        | .error error => after.clear = true ∧ error ≠ .noPermissions) ticket := by
  unfold startLineage
  split
  next unnamed =>
    have drawn : randomFamilyID.Obeys (Ticket.Drawn .holds ticket) ticket := by
      refine meets_automaton fun answer => ?_
      rcases (answer : Except String String) with cause | familyID
      · refine ⟨ticket, ?_, rfl⟩
        exact if_pos may.busy
      · refine ⟨.holds familyID, ?_, rfl⟩
        rcases may with rfl | ⟨rfl, -⟩
        · rw [unnamed]
          rfl
        · rfl
    refine drawn.bind ?_
    rintro after (cause | familyID) drawn
    · obtain rfl : after = _ := drawn
      exact ⟨Ticket.clear_of_busy may.busy, fun wrong => (by cases wrong)⟩
    · exact drawn
  next named =>
    rcases may with rfl | ⟨-, unnamed⟩
    · rfl
    · exact absurd unnamed named

theorem mintAndSave_obeys (identity : Identity) (clientID nonce : String) (grant : Perms.Grant)
    (moment : Time) :
    (mintAndSave config identity clientID nonce grant lineage moment).Obeys
      (fun after result => after.clear = true ∧ result ≠ .error .noPermissions)
      (.holds lineage.familyID) := by
  refine bind (outside_obeys nofun rfl) ?_
  rintro after (cause | ⟨signed, jti⟩) rfl
  · exact ⟨rfl, nofun⟩
  refine bind (outside_obeys nofun rfl) ?_
  rintro after (cause | idToken) rfl
  · exact ⟨rfl, nofun⟩
  refine bind (outside_obeys nofun rfl) ?_
  rintro after (cause | token) rfl
  · exact ⟨rfl, nofun⟩
  refine bind (saveRefresh_obeys _) ?_
  rintro after (error | _) rfl
  · cases error <;> exact ⟨rfl, nofun⟩
  · exact ⟨rfl, nofun⟩

/-- Issuing ends clear, and without permissions it leaves the ticket. -/
theorem issue_obeys (identity : Identity) (clientID nonce : String)
    (may : ticket.MayIssue lineage.familyID) :
    (issue config identity clientID nonce lineage).Obeys
      (fun after result => after.clear = true ∧ (result = .error .noPermissions → after = ticket))
      ticket := by
  have clear := Ticket.clear_of_busy may.busy
  refine (permitted_obeys _ may.busy).bind ?_
  rintro after (cause | _ | grant) rfl
  · exact ⟨clear, fun _ => rfl⟩
  · exact ⟨clear, fun _ => rfl⟩
  refine (now_obeys may.busy).bind ?_
  rintro after moment rfl
  refine (startLineage_obeys may moment).bind ?_
  rintro started (error | lineage) ready
  · exact ⟨ready.1, fun same => absurd (Except.error.inj same) ready.2⟩
  · obtain rfl : started = _ := ready
    refine (mintAndSave_obeys identity clientID nonce grant moment).mono ?_
    rintro final result ⟨settled, unlike⟩
    exact ⟨settled, fun same => absurd same unlike⟩

theorem rotate_obeys (refresh : Refresh) (moment : Time) :
    (rotate config refresh moment).Obeys Ticket.Settles (.holds refresh.familyID) := by
  unfold rotate
  split
  · exact trivial
  split
  · exact trivial
  split
  · exact trivial
  split
  · refine (revokeFamily_obeys moment (.inl rfl)).bind ?_
    rintro after (error | _) rfl <;> exact trivial
  split
  · refine (revokeFamily_obeys moment (.inl rfl)).bind ?_
    rintro after (error | _) rfl <;> exact trivial
  · refine bind (issue_obeys _ _ "" (.inl rfl)) ?_
    rintro after (error | output) ⟨clear, kept⟩
    · cases error with
      | noPermissions =>
        obtain rfl := kept rfl
        refine (revokeFamily_obeys moment (.inl rfl)).bind ?_
        rintro final (error | _) rfl <;> exact trivial
      | _ => exact .of_clear clear _
    · exact .of_clear clear _

variable (request : TokenRequest)

/-- A refresh grant settles its ticket. -/
theorem refreshTokenGrant_obeys :
    (refreshTokenGrant config request).Obeys Ticket.Settles .fresh := by
  unfold refreshTokenGrant
  rcases clientCredentials request with ⟨clientID, secret⟩
  dsimp only
  split
  · exact trivial
  cases authenticated : authenticateClient config clientID secret .refreshToken with
  | error error => exact trivial
  | ok client =>
  refine (now_obeys rfl).bind ?_
  rintro after moment rfl
  refine (consumeRefresh_obeys _ moment (storable_of_authenticated authenticated)).bind ?_
  rintro after (error | refresh) outcome
  · cases error with
    | refreshReused refresh =>
      obtain rfl : after = _ := outcome
      refine (revokeFamily_obeys moment (.inr rfl)).bind ?_
      rintro final (error | _) rfl <;> exact trivial
    | refreshNotFound =>
      obtain rfl : after = _ := outcome
      exact rfl
    | _ =>
      obtain rfl : after = _ := outcome
      exact trivial
  · obtain rfl : after = _ := outcome
    exact rotate_obeys refresh moment

/-- A redeemed code leaves the request holding the family it drew. -/
theorem redeemAuthorizationCode_obeys (request : AuthCodeRedemptionRequest) :
    (redeemAuthorizationCode config request).Obeys (fun after redeemed => match redeemed with
        | .ok redemption => after = .holds redemption.familyID
        | .error _ => after.clear = true) .fresh := by
  unfold redeemAuthorizationCode
  cases checkRedemption config request with
  | error error => exact rfl
  | ok client =>
  have drawn : randomFamilyID.Obeys (Ticket.Drawn .drew .fresh) .fresh := by
    refine meets_automaton fun answer => ?_
    rcases (answer : Except String String) with cause | familyID <;> exact ⟨_, rfl, rfl⟩
  refine drawn.bind ?_
  rintro after (cause | familyID) drew
  · obtain rfl : after = _ := drew
    exact rfl
  obtain rfl : after = _ := drew
  refine (now_obeys rfl).bind ?_
  rintro after moment rfl
  refine (consumeAuthCode_obeys _ _ moment).bind ?_
  rintro after (error | authCode) outcome
  · cases error with
    | authCodeReused authCode =>
      obtain rfl : after = _ := outcome
      dsimp only [settle]
      split
      next named =>
        refine (revokeFamily_obeys moment (.inr rfl)).bind ?_
        rintro final (error | _) rfl <;> exact rfl
      next unnamed =>
        rw [if_pos (not_not.mp unnamed)]
        exact rfl
    | _ =>
      obtain rfl : after = _ := outcome
      exact rfl
  · obtain rfl : after = _ := outcome
    dsimp only [settle]
    cases checkAuthCode config client request authCode moment with
    | error error => exact rfl
    | ok valid => exact rfl

theorem authorizationCodeGrant_obeys :
    (authorizationCodeGrant config request).Obeys Ticket.Settles .fresh := by
  refine (redeemAuthorizationCode_obeys _).bind ?_
  rintro after (error | redemption) redeemed
  · exact .of_clear redeemed _
  obtain rfl : after = _ := redeemed
  refine (now_obeys rfl).bind ?_
  rintro after authTime rfl
  refine bind (issue_obeys _ _ redemption.nonce (.inl rfl)) ?_
  rintro after (error | output) ⟨clear, -⟩
  · cases error <;> exact .of_clear clear _
  · exact .of_clear clear _

theorem redeemDeviceCode_obeys (deviceCode : String) :
    (redeemDeviceCode config deviceCode).Obeys Ticket.Settles .visited := by
  refine (device_obeys (.consumeDeviceCode deviceCode) (.inr rfl)).bind ?_
  rintro after (error | final) rfl
  · cases error <;> exact trivial
  dsimp only
  split
  · exact trivial
  refine bind (issue_obeys _ _ "" (.inr ⟨rfl, rfl⟩)) ?_
  rintro after (error | output) ⟨clear, -⟩
  · cases error <;> exact .of_clear clear _
  · exact .of_clear clear _

/-- A device grant settles its ticket. -/
theorem deviceCodeGrant_obeys : (deviceCodeGrant config request).Obeys Ticket.Settles .fresh := by
  unfold deviceCodeGrant
  rcases clientCredentials request with ⟨clientID, secret⟩
  dsimp only
  split
  · exact trivial
  split
  · exact trivial
  split
  · exact trivial
  cases authenticateClient config clientID secret .deviceCode with
  | error error => exact trivial
  | ok client =>
  refine (device_obeys (.lookupDeviceCodeByDeviceCode _) (.inl rfl)).bind ?_
  rintro after (error | found) rfl
  · cases error <;> exact trivial
  dsimp only
  split
  · exact trivial
  refine (now_obeys rfl).bind ?_
  rintro after moment rfl
  refine (device_obeys (.pollDeviceCode _ _) (.inr rfl)).bind ?_
  rintro after (error | _ | _) rfl
  · cases error <;> exact trivial
  · dsimp only
    split
    · refine (device_obeys (.consumeDeviceCode _) (.inr rfl)).bind ?_
      rintro after consumed rfl
      exact trivial
    split
    · refine (device_obeys (.consumeDeviceCode _) (.inr rfl)).bind ?_
      rintro after consumed rfl
      exact trivial
    split
    · exact trivial
    · exact redeemDeviceCode_obeys _
  · exact trivial

/-- Every token request keeps to its ticket. -/
theorem dispatch_obeys (config : TokenConfig) (request : TokenRequest) :
    (dispatch config request).Obeys Ticket.Settles .fresh := by
  unfold dispatch
  split
  · exact trivial
  split
  · exact authorizationCodeGrant_obeys request
  · exact refreshTokenGrant_obeys request
  · exact deviceCodeGrant_obeys request
  · exact trivial
  · exact trivial

end Obeys

end Tempogate.Oidc
