/-
This file bounds the guesses at user codes over every sequence of requests to the device pages.
-/

import Tempogate.Proof.Device.Conduct
import Tempogate.Proof.Oidc.Labels
import Tempogate.Proof.Ratelimit.Budget

namespace Tempogate.Device

open Foundation Oidc Ratelimit List

variable {served : Served} {span : List Served} {before : Limits}

namespace Served

variable (served : Served)

def account : Account := .of served.now served.exchanges

variable (budget : Budget)

def key : Option String :=
  budgetKey served.address served.account.session budget

def calls : List Call := served.account.calls budget served.now

/-- The request was answered as one too many. -/
def Throttled : Prop := served.page = .ok .tooManyAttempts

/-- The resolver granted the person who wanted to approve nothing. -/
def Refused : Prop := served.request.approves = true ∧ served.account.refused = true

/-- The request of this key found its user code unusable. -/
def missed (key : String) : Bool :=
  served.key budget = some key && served.account.verdict = some false

end Served

/-- A served visit leaves the attempts of a key as if it had not been made. -/
def Served.Spares (limiters : Limiters) (served : Served) (budget : Budget) (key : String) : Prop :=
  ∀ later, served.now ≤ later → (served.after budget).available (limiters budget) later key =
      (served.before budget).available (limiters budget) later key

open Served Charge Account

namespace Charge

variable (limiters : Limiters)

variable (moment : Time)

def perform : Charge → Limits → Limits
  | spend budget key _, limits =>
    Function.update limits budget ((limits budget).allow (limiters budget) moment key).2
  | refund budget key, limits =>
    Function.update limits budget ((limits budget).refund (limiters budget) key)

/-- The limiter answered as the charge says. -/
def Agrees (limits : Limits) : Charge → Prop
  | spend budget key granted => ((limits budget).allow (limiters budget) moment key).1 = granted
  | refund _ _ => True

def performAll (charges : List Charge) (limits : Limits) : Limits :=
  charges.foldl (fun limits charge => charge.perform limiters moment limits) limits

/-- The limiters answered each charge as it says. -/
def Honest (limiters : Limiters) (moment : Time) : List Charge → Limits → Prop
  | [], _ => True
  | charge :: rest, limits =>
    charge.Agrees limiters moment limits ∧
      Honest limiters moment rest (charge.perform limiters moment limits)

end Charge

section Charges

variable {limiters : Limiters} {moment : Time}

theorem honest_append (charges : List Charge) (charge : Charge) (limits : Limits) :
    Honest limiters moment (charges ++ [charge]) limits ↔ Honest limiters moment charges limits ∧
        charge.Agrees limiters moment (Charge.performAll limiters moment charges limits) := by
  induction charges generalizing limits with
  | nil => exact ⟨fun ⟨agrees, _⟩ => ⟨trivial, agrees⟩, fun ⟨_, agrees⟩ => ⟨agrees, trivial⟩⟩
  | cons first rest ih =>
    simp only [cons_append, Honest, ih, and_assoc]
    rfl

/-- Charges on one budget leave the other limiter alone. -/
theorem performAll_charges (budget : Budget) (charges : List Charge) (limits : Limits) :
    Charge.performAll limiters moment charges limits budget =
      Ratelimit.performAll (limiters budget) (charges.filterMap (Charge.call budget moment))
        (limits budget) := by
  induction charges generalizing limits with
  | nil => rfl
  | cons charge rest ih =>
    refine (ih (charge.perform limiters moment limits)).trans ?_
    have unseen {other : Budget} (differs : other ≠ budget) (state : State) :
        Function.update limits other state budget = limits budget :=
      Function.update_of_ne (Ne.symm differs) _ _
    cases charge with
    | spend other key granted =>
      by_cases same : other = budget
      · subst same
        simp [perform, Charge.call, Ratelimit.performAll, Call.perform]
      · simp [perform, Charge.call, same, unseen same]
    | refund other key =>
      by_cases same : other = budget
      · subst same
        simp [perform, Charge.call, Ratelimit.performAll, Call.perform]
      · simp [perform, Charge.call, same, unseen same]

theorem charges_note_reach (account : Account) (call : PageCall) (answer : call.Answer) :
    (account.note moment ⟨.inr call, answer⟩).charges = account.charges := by
  cases call with
  | lookupBrowserSession sid =>
    rcases (answer : Except String (Option _)) with _ | _ | session
    · rfl
    · rfl
    · simp only [note]
      split <;> rfl
  | resolve email =>
    rcases (answer : Except String _) with _ | grant
    · rfl
    · simp only [note]
      split <;> rfl
  | _ => rfl

/-- The limiters stand where the charges of the account put them. -/
structure Settled (limiters : Limiters) (moment : Time) (before : Limits) (account : Account)
    (after : Limits) : Prop where
  honest : Honest limiters moment account.charges before
  after : after = Charge.performAll limiters moment account.charges before

theorem Settled.charge {after : Limits} {account : Account} {charge : Charge}
    (settled : Settled limiters moment before account after)
    (agrees : charge.Agrees limiters moment after) :
    Settled limiters moment before (account.charge charge)
      (charge.perform limiters moment after) := by
  obtain ⟨honest, rfl⟩ := settled
  refine ⟨(honest_append _ _ _).mpr ⟨honest, agrees⟩, ?_⟩
  simp only [Account.charge, Charge.performAll, foldl_append]
  rfl

theorem of_append (log : List (Exchange deviceUICalls)) (exchange : Exchange deviceUICalls) :
    of moment (log ++ [exchange]) = (of moment log).note moment exchange :=
  foldl_append

end Charges

section Serve

variable {Rest : Type} {ui : DeviceUI} {limiters : Limiters} {visit : Visit Rest}
  {limits : Limits} {rest : Rest}

/-- Every exchange settles its charge. -/
theorem responder_settles {account : Account} (effect : deviceUICalls.Effect)
    (settled : Settled limiters visit.now before account limits) :
    Settled limiters visit.now before
      (account.note visit.now ⟨effect, (visit.responder limiters effect (limits, rest)).1⟩)
      (visit.responder limiters effect (limits, rest)).2.1 := by
  match effect with
  | .inl .now => exact settled
  | .inl (.allow budget key) => exact @Settled.charge _ _ _ _ _ (.spend budget key _) settled rfl
  | .inl (.refund budget key) =>
    exact @Settled.charge _ _ _ _ _ (.refund budget key) settled trivial
  | .inr call =>
    have same := @charges_note_reach visit.now account call (visit.respond call rest).1
    exact ⟨same.symm ▸ settled.honest, same.symm ▸ settled.after⟩

theorem serve_settled :
    Settled limiters visit.now limits (visit.serve ui limiters limits rest).1.account
      (visit.serve ui limiters limits rest).1.after := by
  refine Program.evaluate_invariant (fun store : List (Exchange deviceUICalls) × Limits × Rest =>
      Settled limiters visit.now limits (.of visit.now store.1) store.2.1)
    (fun effect store settled => ?_) (visit.request.handle ui visit.address) ⟨trivial, rfl⟩
  have grown := @of_append visit.now store.1 ⟨effect, (visit.responder limiters effect store.2).1⟩
  exact grown.symm ▸ responder_settles effect settled

theorem serve_conduct :
    Conduct visit.address visit.request.approves (visit.serve ui limiters limits rest).1.account
      (visit.serve ui limiters limits rest).1.page := by
  refine @Program.Meets.evaluate deviceUICalls _ _ _ (accounting visit.now) _
    (visit.responder limiters) (fun _ effect _ => ?_) _ _ [] (limits, rest)
    (handle_conduct ui visit.address visit.request)
  match effect with
  | .inl .now => rfl
  | .inl (.allow _ _) => trivial
  | .inl (.refund _ _) => trivial
  | .inr _ => trivial

end Serve

/-- A served visit conducted itself and was charged for it. -/
structure Sane (limiters : Limiters) (served : Served) : Prop where
  conduct : Conduct served.address served.request.approves served.account served.page
  settled : Settled limiters served.now served.before served.account served.after

section Usage

variable {limiters : Limiters} {served : Served} {budget : Budget} {key : String}

/-- These are the ways in which a request uses the limiter of its key. -/
inductive Usage (limiter : Limiter) (served : Served) (budget : Budget) (key : String) : Prop
  | free (calls : served.calls budget = []) (untold : served.account.verdict = none)
  | denied (calls : served.calls budget = [.allow key served.now])
      (answer : ((served.before budget).allow limiter served.now key).1 = false)
      (untold : served.account.verdict = none)
  | spent (calls : served.calls budget = [.allow key served.now])
      (answer : ((served.before budget).allow limiter served.now key).1 = true)
      (kept : served.account.verdict = some true → served.Refused)
  | returned (calls : served.calls budget = [.allow key served.now, .refund key served.now])
      (answer : ((served.before budget).allow limiter served.now key).1 = true)
      (usable : served.account.verdict ≠ some false)
      (granted : served.account.verdict = some true → ¬ served.Refused)

/-- A full payment asks each limiter once for the key it counts under. -/
theorem calls_paid (address : String) (session : Option SID) (budget : Budget) (moment : Time) :
    (paid address session).filterMap (Charge.call budget moment) =
      (budgetKey address session budget).toList.map fun key => .allow key moment := by
  cases budget <;> cases session <;> rfl

theorem calls_repaid (address : String) (session : Option SID) (budget : Budget) (moment : Time) :
    (repaid address session).filterMap (Charge.call budget moment) =
      (budgetKey address session budget).toList.map fun key => .refund key moment := by
  cases budget <;> cases session <;> rfl

/-- A full payment was granted by each limiter. -/
theorem granted_paid {address : String} {session : Option SID} {moment : Time} {limits : Limits}
    {rest : List Charge} (named : budgetKey address session budget = some key)
    (honest : Honest limiters moment (paid address session ++ rest) limits) :
    ((limits budget).allow (limiters budget) moment key).1 = true := by
  cases budget with
  | address =>
    cases named
    exact honest.1
  | session =>
    obtain ⟨sid, rfl, rfl⟩ := Option.map_eq_some_iff.mp named
    exact honest.2.1

theorem calls_of_charges {charges : List Charge} (same : served.account.charges = charges) :
    served.calls budget = charges.filterMap (Charge.call budget served.now) := by
  rw [← same]
  rfl

variable (sane : Sane limiters served)

include sane

/-- A served request uses its bucket as the limiter says. -/
theorem Sane.usage (named : served.key budget = some key) :
    Usage (limiters budget) served budget key := by
  obtain ⟨conduct, ⟨honest, -⟩⟩ := sane
  cases conduct with
  | idle charges unexamined untold page => exact .free (calls_of_charges charges) untold
  | barred charges unexamined untold =>
    rw [charges] at honest
    cases budget with
    | address =>
      cases named
      exact .denied (calls_of_charges charges) honest.1 untold
    | session => exact .free (calls_of_charges charges) untold
  | short sid session charges unexamined untold =>
    rw [charges] at honest
    cases budget with
    | address =>
      cases named
      exact .returned (calls_of_charges charges) honest.1 (by simp [untold]) (by simp [untold])
    | session =>
      rw [Served.key, session] at named
      cases named
      exact .denied (calls_of_charges charges) honest.2.1 untold
  | spent charges page kept =>
    rw [charges, ← append_nil (paid _ _)] at honest
    have calls := @calls_of_charges _ budget _ charges
    rw [calls_paid, show budgetKey _ _ _ = some key from named] at calls
    exact .spent calls (granted_paid named honest) kept
  | returned charges told page granted =>
    rw [charges] at honest
    have calls := @calls_of_charges _ budget _ charges
    rw [filterMap_append, calls_paid, calls_repaid,
      show budgetKey _ _ _ = some key from named] at calls
    refine .returned calls (granted_paid named honest) (by simp [told]) ?_
    rintro - ⟨approves, refused⟩
    exact Bool.false_ne_true ((granted approves).symm.trans refused)

/-- A request without a session leaves the session limiter alone. -/
theorem Sane.unused (unnamed : served.key budget = none) : served.calls budget = [] := by
  cases sane.conduct with
  | idle charges unexamined untold page => exact calls_of_charges charges
  | barred charges unexamined untold =>
    cases budget with
    | address => cases unnamed
    | session => exact calls_of_charges charges
  | short sid session charges unexamined untold =>
    rw [Served.key, session] at unnamed
    cases budget <;> cases unnamed
  | spent charges page kept =>
    rw [calls_of_charges charges, calls_paid, show budgetKey _ _ _ = none from unnamed]
    rfl
  | returned charges told page granted =>
    rw [calls_of_charges charges, filterMap_append, calls_paid, calls_repaid,
      show budgetKey _ _ _ = none from unnamed]
    rfl

theorem Sane.after_eq (budget : Budget) : served.after budget =
      performAll (limiters budget) (served.calls budget) (served.before budget) := by
  rw [sane.settled.after, performAll_charges]
  rfl

/-- A request that finds its code unusable pays for it. -/
theorem Sane.missed_le (budget : Budget) (key : String) :
    (if served.missed budget key then 1 else 0) + refunds key (served.calls budget) ≤
      grants (limiters budget) key (served.calls budget) (served.before budget) := by
  cases named : served.key budget with
  | none =>
    rw [sane.unused named]
    simp [missed, named, refunds]
  | some name =>
    have other (differs : name ≠ key) : served.missed budget key = false := by
      simp [missed, named, differs]
    have verdict (told : served.account.verdict ≠ some false) :
        served.missed budget key = false := by
      simp [missed, told]
    by_cases same : name = key
    · subst same
      cases sane.usage named with
      | free calls untold => simp [calls, verdict (by simp [untold]), refunds]
      | denied calls answer untold => simp [calls, verdict (by simp [untold]), refunds]
      | spent calls answer kept =>
        simp [calls, refunds, grants, Call.perform, Call.key, answer]
        split <;> omega
      | returned calls answer usable granted =>
        simp [calls, verdict usable, refunds, grants, Call.perform, Call.key, answer]
    · rw [other same]
      cases sane.usage named with
      | free calls untold => simp [calls, refunds]
      | denied calls answer untold => simp [calls, refunds]
      | spent calls answer kept => simp [calls, refunds]
      | returned calls answer usable granted => simp [calls, refunds, same]

/-- A request spares the budgets unless it keeps an attempt. -/
theorem Sane.spares (named : served.key budget = some key)
    (linked : Linked (limiters budget) (served.before budget))
    (timely : Timely served.now (served.before budget))
    (kept : served.calls budget ≠ [.allow key served.now] ∨
      ((served.before budget).allow (limiters budget) served.now key).1 = false) :
    served.Spares limiters budget key := by
  intro later ordered
  rw [sane.after_eq]
  cases sane.usage named with
  | free calls untold =>
    rw [calls]
    rfl
  | denied calls answer untold =>
    rw [calls]
    exact available_denied linked timely answer ordered
  | spent calls answer owed =>
    rcases kept with differs | denied
    · exact absurd calls differs
    · exact absurd (denied.symm.trans answer) Bool.false_ne_true
  | returned calls answer usable granted =>
    rw [calls]
    exact available_refund linked timely answer ordered

theorem Sane.not_spares (linked : Linked (limiters budget) (served.before budget))
    (calls : served.calls budget = [.allow key served.now])
    (answer : ((served.before budget).allow (limiters budget) served.now key).1 = true) :
    ¬ served.Spares limiters budget key := by
  intro spares
  have taken := available_allow linked answer
  have same := spares served.now le_rfl
  rw [sane.after_eq, calls] at same
  linarith [show ((served.before budget).allow (limiters budget) served.now key).2.available
    (limiters budget) served.now key = _ from same]

/-- A request with a usable code spares its budgets unless it was refused. -/
theorem Sane.spares_iff (linked : ∀ budget, Linked (limiters budget) (served.before budget))
    (timely : ∀ budget, Timely served.now (served.before budget))
    (usable : served.account.verdict = some true) :
    (∀ budget key, served.key budget = some key → served.Spares limiters budget key) ↔
      ¬ served.Refused := by
  constructor
  · intro spares refused
    cases sane.usage (show served.key .address = some served.address from rfl) with
    | free calls untold => simp [usable] at untold
    | denied calls answer untold => simp [usable] at untold
    | spent calls answer kept =>
      exact sane.not_spares (linked .address) calls answer (spares .address _ rfl)
    | returned calls answer _ granted => exact granted usable refused
  · intro unrefused budget key named
    refine sane.spares named (linked budget) (timely budget) ?_
    cases sane.usage named with
    | free calls untold => simp [usable] at untold
    | denied calls answer untold => simp [usable] at untold
    | spent calls answer kept => exact absurd (kept usable) unrefused
    | returned calls answer _ granted => exact .inl (by simp [calls])

/-- A throttled request examines nothing, and only its session may be out of attempts. -/
theorem Sane.throttled (throttled : served.Throttled) : served.account.examined = false ∧
      (.spend .address served.address true ∈ served.account.charges →
        served.calls .address = [.allow served.address served.now,
          .refund served.address served.now]) := by
  cases sane.conduct with
  | idle charges unexamined untold page => exact absurd throttled page
  | barred charges unexamined untold => exact ⟨unexamined, by simp [charges]⟩
  | short sid session charges unexamined untold =>
    exact ⟨unexamined, fun _ => calls_of_charges charges⟩
  | spent charges page kept => exact absurd throttled page
  | returned charges told page granted => exact absurd throttled page

end Usage

section Run

variable {Rest : Type} {ui : DeviceUI} {limiters : Limiters} {visits : List (Visit Rest)}
  {limits : Limits} {rest : Rest}

theorem serve_before (visit : Visit Rest) :
    (visit.serve ui limiters limits rest).1.before = limits := rfl

theorem serve_sane (visit : Visit Rest) :
    Sane limiters (visit.serve ui limiters limits rest).1 := ⟨serve_conduct, serve_settled⟩

theorem serveAll_sane
    (member : served ∈ serveAll ui limiters visits limits rest) : Sane limiters served := by
  induction visits generalizing limits rest with
  | nil => exact absurd member not_mem_nil
  | cons visit later ih =>
    rcases mem_cons.mp member with rfl | member
    · exact serve_sane visit
    · exact ih member

theorem serveAll_now :
    (serveAll ui limiters visits limits rest).map now = visits.map Visit.now := by
  induction visits generalizing limits rest with
  | nil => rfl
  | cons visit later ih => exact congrArg (List.cons visit.now) ih

/-- The later visits of a run are a run from the limiters that the earlier ones left. -/
theorem serveAll_drop {before tail : List Served}
    (run : serveAll ui limiters visits limits rest = before ++ tail) :
    ∃ (visits : List (Visit Rest)) (after : Limits) (rest : Rest),
      tail = serveAll ui limiters visits after rest ∧ ∀ budget, after budget =
          performAll (limiters budget) (before.flatMap (calls · budget)) (limits budget) := by
  induction before generalizing visits limits rest with
  | nil => exact ⟨visits, limits, rest, run.symm, fun _ => rfl⟩
  | cons served before ih =>
    cases visits with
    | nil => cases run
    | cons visit later =>
      obtain ⟨rfl, remaining⟩ := List.cons.inj run
      obtain ⟨visits, after, others, same, moved⟩ := ih remaining
      refine ⟨visits, after, others, same, fun budget => ?_⟩
      rw [moved, (serve_sane visit).after_eq, flatMap_cons, performAll_append]
      rfl

/-- The requests that find their code unusable are paid for by attempts that nobody returns. -/
theorem missed_add_refunds_le (budget : Budget) (key : String) {after : List Served}
    (run : serveAll ui limiters visits limits rest = span ++ after) :
    span.countP (missed · budget key) + refunds key (span.flatMap (calls · budget)) ≤
      grants (limiters budget) key (span.flatMap (calls · budget)) (limits budget) := by
  induction span generalizing visits limits rest with
  | nil => exact Nat.zero_le _
  | cons served span ih =>
    cases visits with
    | nil => cases run
    | cons visit later =>
      obtain ⟨rfl, remaining⟩ := List.cons.inj run
      have sane : Sane limiters (visit.serve ui limiters limits rest).1 := serve_sane visit
      have first := sane.missed_le budget key
      have others := ih remaining
      rw [sane.after_eq, serve_before] at others
      rw [serve_before] at first
      rw [countP_cons, flatMap_cons, refunds_append, grants_append]
      omega

theorem now_of_mem_calls {budget : Budget} {call : Call}
    (member : call ∈ served.calls budget) : call.now = served.now := by
  obtain ⟨charge, -, same⟩ := mem_filterMap.mp member
  cases charge with
  | spend | refund =>
    simp only [Charge.call, Option.ite_none_right_eq_some, Option.some.injEq] at same
    rw [← same.2]
    rfl

theorem before_of_run {before after : List Served}
    (run : serveAll ui limiters visits limits rest = before ++ served :: after) (budget : Budget) :
    served.before budget =
      performAll (limiters budget) (before.flatMap (calls · budget)) (limits budget) := by
  obtain ⟨visits, between, others, same, moved⟩ := serveAll_drop run
  cases visits with
  | nil => cases same
  | cons visit later =>
    obtain ⟨rfl, -⟩ := List.cons.inj same
    exact moved budget

/-- In a run that starts with empty limiters they are in order before every visit. -/
theorem in_order (clock : (visits.map Visit.now).Pairwise (· ≤ ·))
    (member : served ∈ serveAll ui limiters visits (fun _ => .empty) rest) (budget : Budget) :
    Linked (limiters budget) (served.before budget) ∧ Timely served.now (served.before budget) := by
  obtain ⟨before, after, run⟩ := append_of_mem member
  rw [← @serveAll_now _ ui limiters visits (fun _ => .empty) rest, run, map_append,
    pairwise_append] at clock
  have linked := linked_empty (limiters budget)
  rw [before_of_run run budget]
  refine ⟨linked.performAll _, Timely.performAll linked nofun fun call made => ?_⟩
  obtain ⟨earlier, visited, made⟩ := mem_flatMap.mp made
  rw [now_of_mem_calls made]
  exact clock.2.2 _ (mem_map_of_mem visited) _ (mem_cons_self ..)

/-- The calls of visits inside a span of time lie inside it. -/
theorem within_span {start finish : Time} (clock : (span.map now).Pairwise (· ≤ ·))
    (inside : ∀ served ∈ span, start ≤ served.now ∧ served.now ≤ finish) (budget : Budget) :
    Within start finish (span.flatMap (calls · budget)) := by
  refine ⟨?_, fun call made => ?_⟩
  · rw [pairwise_map, pairwise_flatMap]
    refine ⟨fun served _ => ?_, (pairwise_map.mp clock).imp fun ordered first one second two => ?_⟩
    · refine pairwise_iff_forall_sublist.mpr fun {first second} part => ?_
      rw [now_of_mem_calls (part.subset (.head _)),
        now_of_mem_calls (part.subset (.tail _ (.head _)))]
    · rw [now_of_mem_calls one, now_of_mem_calls two]
      exact ordered
  · obtain ⟨served, member, made⟩ := mem_flatMap.mp made
    rw [now_of_mem_calls made]
    exact inside served member

end Run

/-- In any span of time a session and an address that keep their buckets find at most their burst
and the refill of the span in unusable codes. A throttled request examines no code and costs its
address nothing when only its session is out of attempts. A request with a usable code costs
nothing exactly when it is no approval that the resolver refuses. -/
theorem guesses_keep_budgets {Rest : Type} (ui : DeviceUI) (limiters : Limiters)
    (visits : List (Visit Rest)) (rest : Rest)
    (clock : (visits.map Visit.now).Pairwise (· ≤ ·)) :
    (∀ before span after budget key start finish,
      serveAll ui limiters visits (fun _ => .empty) rest = before ++ span ++ after →
      start ≤ finish → (∀ served ∈ span, start ≤ served.now ∧ served.now ≤ finish) →
      Undisturbed (limiters budget) key (span.flatMap (calls · budget))
        (performAll (limiters budget) (before.flatMap (calls · budget)) .empty) →
      (span.countP (missed · budget key) : ℚ) ≤
        (limiters budget).burst + (limiters budget).rate * seconds (finish - start)) ∧
      ∀ served ∈ serveAll ui limiters visits (fun _ => .empty) rest,
        (served.Throttled → served.account.examined = false ∧
          (.spend .address served.address true ∈ served.account.charges →
            served.Spares limiters .address served.address)) ∧
          (served.account.verdict = some true →
            ((∀ budget key, served.key budget = some key → served.Spares limiters budget key) ↔
              ¬ served.Refused)) := by
  refine ⟨?_, fun served member => ⟨fun throttled => ?_, fun usable => ?_⟩⟩
  · intro before span after budget key start finish run ends inside undisturbed
    rw [← @serveAll_now _ ui limiters visits (fun _ => .empty) rest, run, map_append,
      map_append, pairwise_append, pairwise_append] at clock
    have linked := (linked_empty (limiters budget)).performAll (before.flatMap (calls · budget))
    have granted := grants_le linked ends (within_span clock.1.2.1 inside budget) undisturbed
    rw [append_assoc] at run
    obtain ⟨visits, between, others, same, moved⟩ := serveAll_drop run
    have counted := missed_add_refunds_le budget key same.symm
    rw [moved] at counted
    have counted : (span.countP (missed · budget key) : ℚ) +
        refunds key (span.flatMap (calls · budget)) ≤
          grants (limiters budget) key (span.flatMap (calls · budget))
            (performAll (limiters budget) (before.flatMap (calls · budget)) .empty) := by
      exact_mod_cast counted
    linarith
  · have sane := serveAll_sane member
    obtain ⟨linked, timely⟩ := in_order clock member .address
    obtain ⟨unexamined, returned⟩ := sane.throttled throttled
    refine ⟨unexamined, fun granted => sane.spares rfl linked timely (.inl ?_)⟩
    rw [returned granted]
    nofun
  · exact (serveAll_sane member).spares_iff (fun budget => (in_order clock member budget).1)
      (fun budget => (in_order clock member budget).2) usable

/-- One browser is signed in, and nobody is granted anything. -/
structure Office where
  session : BrowserSession
  codes : DeviceCodes

/-- SQLite decides on the device codes. -/
def Office.respond : Responder pageCalls Office := fun call office =>
  match call with
  | .lookupBrowserSession sid =>
    (.ok (if office.session.sid.text = sid then some office.session else none), office)
  | .newStateNonce => (.error "no randomness", office)
  | .lookupDeviceCodeByUserCode userCode =>
    (DeviceCodes.scanned "" (office.codes.table.rows.find? fun row => row.userCode = userCode),
      office)
  | .approveDeviceCode userCode identity moment =>
    let decided :=
      (approveDeviceCode .sqlite userCode identity moment).evaluate execute office.codes
    (decided.1, { office with codes := decided.2 })
  | .denyDeviceCode userCode moment =>
    let decided := (denyDeviceCode .sqlite userCode moment).evaluate execute office.codes
    (decided.1, { office with codes := decided.2 })
  | .resolve _ => (.ok none, office)
where
  execute : Responder statements DeviceCodes := fun statement codes =>
    (.ok (statement.execute codes).1, (statement.execute codes).2)

/-- This device code waits for its decision. -/
def guestCode : State.DeviceCodeRow :=
  ⟨"h", "ABCD", "cli", "", none, none, none, none, none, none, 5, 0, minute⟩

def sampleOffice : Office where
  session := ⟨⟨"s", by decide⟩, "google", "1", "guest@example.com", 0, minute⟩
  codes := ⟨⟨[⟨1, guestCode⟩], by simp, by simp⟩, by simp [Table.rows]⟩

def decision (approve : Bool) (userCode : String) (now : Time) : Visit Office :=
  ⟨.decide approve ⟨"sid=" ++ sampleUI.sessions.signCookie "s", "https://idp", "",
    "csrf_token=s&user_code=" ++ userCode⟩, "192.0.2.1", now, Office.respond⟩

/-- A person without access approves a pending code. The code is denied, and the attempt is gone
from the budgets of the session and of the address. -/
theorem refused_approval_costs_attempt :
    ∃ served ∈ serveAll sampleUI (fun _ => .default) [decision true "ABCD" 0] (fun _ => .empty)
        sampleOffice,
      served.account.verdict = some true ∧ served.page = .ok .noAccess ∧
        ¬ served.Spares (fun _ => .default) .address "192.0.2.1" ∧
        ¬ served.Spares (fun _ => .default) .session "s" := by
  have sane : Sane (fun _ => .default)
      ((decision true "ABCD" 0).serve sampleUI (fun _ => .default) (fun _ => .empty)
        sampleOffice).1 := serve_sane _
  refine ⟨_, .head _, by decide +kernel, by decide +kernel, ?_, ?_⟩ <;>
    exact sane.not_spares (linked_empty _) (by decide +kernel) (by decide +kernel)

/-- The same person first tries to deny a code that nobody has. -/
@[irreducible]
def guestRun : List Served :=
  serveAll sampleUI (fun _ => .default) [decision false "WXYZ" 0, decision true "ABCD" 1]
    (fun _ => .empty) sampleOffice

theorem guest_guesses_keep_budgets : (guestRun.countP (missed · .session "s") : ℚ) ≤
        Limiter.default.burst + Limiter.default.rate * seconds (1 - 0) ∧
      ∀ served ∈ guestRun, served.account.verdict = some true →
        ((∀ budget key, served.key budget = some key →
          served.Spares (fun _ => .default) budget key) ↔ ¬ served.Refused) := by
  obtain ⟨bounded, spared⟩ := guesses_keep_budgets sampleUI (fun _ => .default)
    [decision false "WXYZ" 0, decision true "ABCD" 1] sampleOffice (by decide)
  rw [← guestRun] at bounded spared
  refine ⟨?_, fun served member => (spared served member).2⟩
  have inside : ∀ served ∈ guestRun, 0 ≤ served.now ∧ served.now ≤ 1 := by decide +kernel
  have own : ∀ call ∈ guestRun.flatMap (calls · .session), call.key = "s" := by decide +kernel
  refine bounded [] guestRun [] .session "s" 0 1 ?_ (by decide) inside
    (undisturbed_of_self (linked_empty _) own)
  rw [append_nil, nil_append]

end Tempogate.Device
