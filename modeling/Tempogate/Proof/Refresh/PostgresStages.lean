/-
This file follows each Postgres client through the stages of its transaction.
-/

import Tempogate.Proof.Refresh.PostgresWrites

namespace Tempogate.Postgres

open Foundation Oidc State Action Program RefreshRow List

variable {Result : Type} {statement : Query (Except String Result)} {stage : Stage}

abbrev Effect : Type := ServerEffect Database Write Key

/-- A stage says how far a client has come.
A save learns that its family has a row and then clears the family or is refused.
A revocation locks families and then knows which of their tokens it has yet to revoke. -/
inductive Stage
  | saving (refresh : Refresh) (known : Bool)
  | cleared (refresh : Refresh)
  | refused (refresh : Refresh)
  | consuming
  | revoking (locked : List String) (rest : Option (List String))
  | failed
  | ended

namespace Stage

def start : RefreshCall → Stage
  | .saveRefresh refresh => saving refresh false
  | .consumeRefresh _ _ _ => consuming
  | .revokeRefreshFamily _ _ | .revokeRefreshByEmail _ _ | .revokeRefreshBySubject _ _ _ =>
    revoking [] none

/-- A locked token whose newest version needs no revocation is settled. -/
def stillOpen (newest : Database) (locked : List String) (tokenHash hash : String) : Bool :=
  hash ≠ tokenHash || (newest.unrevoked locked).any fun row => row.tokenHash = tokenHash

def advance : Stage → (effect : Effect) → effect.Answer → Stage
  | saving refresh known, .begin, .ok _ => saving refresh known
  | saving refresh known, .snapshot, .ok visible =>
    saving refresh (known || (visible.family refresh.familyID).isSome)
  | saving refresh known, .lock _ _, .ok newest =>
    match newest.family refresh.familyID with
    | none => saving refresh known
    | some row => if row.revokedAt.isSome then refused refresh else cleared refresh
  | saving refresh _, .claim _ _ _, .ok _ => saving refresh true
  | cleared refresh, .claim _ _ _, .ok _ => cleared refresh
  | saving _ _, .rollback, _ | cleared _, .commit, .ok _ | cleared _, .rollback, _ => ended
  | refused refresh, _, _ => refused refresh
  | consuming, _, _ => consuming
  | revoking locked rest, .begin, .ok _ => revoking locked rest
  | revoking locked _, .snapshot, .ok visible =>
    revoking locked (some ((visible.unrevoked locked).map tokenHash))
  | revoking locked rest, .lock (.family familyID) _, .ok newest =>
    if (newest.family familyID).isSome then revoking (familyID :: locked) none
    else revoking locked rest
  | revoking locked rest, .lock (.refresh tokenHash) _, .ok newest =>
    revoking locked (rest.map (List.filter (stillOpen newest locked tokenHash)))
  | revoking locked rest, .write (.revokeRefresh tokenHash _), _ =>
    revoking locked (rest.map (List.filter (· ≠ tokenHash)))
  | revoking locked rest, .write (.stampFamily _ _), _ => revoking locked rest
  | revoking _ _, .commit, .ok _ | revoking _ _, .rollback, _ => ended
  | ended, _, _ => ended
  | _, _, _ => failed

/-- A save inserts a token only once it has cleared its family, and gives up before that only when
its family id cannot be stored.
A revocation stamps only families it has locked, and commits only when no token is left. -/
def permits : Stage → (effect : Effect) → effect.Answer → Prop
  | saving _ _, .begin, _ | saving _ _, .snapshot, _ => True
  | saving refresh _, .lock key mode, _ => key = .family refresh.familyID ∧ mode = .share
  | saving refresh _, .claim key free effect, _ =>
    (key = .familyIndex refresh.familyID ∧ effect = .insertFamily refresh.familyID ∧
      ∀ database, free database = (database.family refresh.familyID).isNone) ∧
      Storable refresh.familyID
  | saving refresh _, .rollback, _ => ¬ Storable refresh.familyID
  | cleared refresh, .claim _ _ effect, _ =>
    ∃ row, effect = .insertRefresh row ∧ row.familyID = refresh.familyID
  | cleared _, .commit, _ | cleared _, .rollback, _ => True
  | refused _, .rollback, _ | failed, .rollback, _ => True
  | consuming, .write effect, _ => ∃ tokenHash moment, effect = .consumeRefresh tokenHash moment
  | consuming, .claim _ _ _, _ => False
  | consuming, _, _ => True
  | revoking _ _, .begin, _ | revoking _ _, .snapshot, _ | revoking _ _, .rollback, _ => True
  | revoking _ _, .lock (.family _) mode, _ => mode = .exclusive
  | revoking _ _, .lock (.refresh _) _, _ => True
  | revoking locked _, .write (.stampFamily familyID _), _ => familyID ∈ locked
  | revoking _ _, .write (.revokeRefresh _ _), _ => True
  | revoking _ rest, .commit, _ => rest = some []
  | _, _, _ => False

/-- A family that was seen or created is seen again. -/
def assumes : Stage → (effect : Effect) → effect.Answer → Prop
  | saving refresh true, .snapshot, .ok visible => visible.HasFamily refresh.familyID
  | saving refresh true, .lock _ _, .ok newest => newest.HasFamily refresh.familyID
  | _, _, _ => True

/-- A refused save answers that its family is revoked. -/
def answers : Stage → Returned → Prop
  | refused refresh, returned =>
    returned = ⟨.saveRefresh refresh, .error (.refreshFamilyRevoked refresh.familyID)⟩
  | consuming, _ | failed, _ | ended, _ => True
  | saving _ _, _ | cleared _, _ | revoking _ _, _ => False

end Stage

/-- An observation is an effect with its answer. -/
abbrev Observation : Type := (effect : Effect) × effect.Answer

def stages : Protocol Observation Stage where
  assumes stage seen := stage.assumes seen.1 seen.2
  permits stage seen := stage.permits seen.1 seen.2
  advance stage seen := stage.advance seen.1 seen.2

def observe : Observer (server Database Write Key) Observation := fun effect answer =>
  ⟨effect, answer⟩

/-- This abbreviation is for programs that follow the stages. -/
abbrev Staged {Result : Type} (post : Stage → Result → Prop) (program : Query Result)
    (stage : Stage) : Prop :=
  program.Meets stages observe post stage

/-- A statement runs or is refused. -/
theorem given_staged {texts : List String}
    {post : Stage → Except String Result → Prop}
    (refused : post stage (.error invalidText))
    (runs : Staged post statement stage) : Staged post (given texts statement) stage := by
  unfold given
  split
  · exact runs
  · exact refused

theorem given_storable {text : String} (storable : Storable text)
    (statement : Query (Except String Result)) : given [text] statement = statement :=
  if_pos (by simpa using storable)

variable (refresh : Refresh)

/-- The locked family row decides the save. -/
def RowResult (known : Bool) (stage : Stage) : Except String (Option FamilyRow) → Prop
  | .error _ => stage = .failed
  | .ok none => known = false ∧ stage = .saving refresh false
  | .ok (some row) => stage = if row.revokedAt.isSome then .refused refresh else .cleared refresh

/-- The locking read keeps to its stages. -/
theorem selectFamily_staged (known : Bool) : Staged (RowResult refresh known)
      (selectLocking (.family refresh.familyID) .share
        fun database => database.family refresh.familyID) (.saving refresh known) := by
  refine meets_selectLocking (fun cause _ => ⟨trivial, rfl⟩) ?_ ?_
  · intro visible found assumed
    refine ⟨trivial, ?_⟩
    cases known with
    | true => exact absurd assumed (Database.family_eq_none.mp found)
    | false =>
      change RowResult refresh false
        (.saving refresh (visible.family refresh.familyID).isSome) (.ok none)
      rw [found]
      exact ⟨rfl, rfl⟩
  · intro visible row found _
    refine ⟨trivial, ?_⟩
    change Staged _ _ (.saving refresh (known || (visible.family refresh.familyID).isSome))
    rw [found, Option.isSome_some, Bool.or_true]
    rintro (cause | newest) assumed
    · exact ⟨⟨rfl, rfl⟩, rfl⟩
    · obtain ⟨row, newestRow⟩ := Option.isSome_iff_exists.mp (Database.family_isSome.mpr assumed)
      refine ⟨⟨rfl, rfl⟩, ?_⟩
      change RowResult refresh known (match newest.family refresh.familyID with
        | none => .saving refresh true
        | some row => if row.revokedAt.isSome then .refused refresh else .cleared refresh)
        (.ok (newest.family refresh.familyID))
      rw [newestRow]
      rfl

/-- The loop clears the family or is refused. -/
def LockResult (stage : Stage) : Except String Bool → Prop
  | .error _ =>
    stage = .failed ∨ ¬ Storable refresh.familyID ∧ ∃ known, stage = .saving refresh known
  | .ok true => stage = .refused refresh
  | .ok false => stage = .cleared refresh

/-- The loop needs a second round only when the family had no row, and then no third one. -/
theorem lockFamily_staged (rounds : Nat) (known : Bool) (enough : known = false → 0 < rounds) :
    Staged (LockResult refresh) (lockFamily refresh.familyID (rounds + 1))
      (.saving refresh known) := by
  by_cases storable : Storable refresh.familyID
  case neg =>
    unfold lockFamily
    rw [given, if_neg (by simpa using storable)]
    exact .inr ⟨storable, known, rfl⟩
  induction rounds generalizing known with
  | zero =>
    rw [lockFamily, given_storable storable]
    refine (meets_bind _ _ _).mpr ((selectFamily_staged refresh known).mono ?_)
    rintro stage (cause | _ | row) holds
    · exact .inl holds
    · exact absurd (enough holds.1) (Nat.lt_irrefl 0)
    · obtain rfl : stage = _ := holds
      change LockResult refresh _ (.ok row.revokedAt.isSome)
      cases row.revokedAt.isSome <;> rfl
  | succ rounds ih =>
    rw [lockFamily, given_storable storable]
    refine (meets_bind _ _ _).mpr ((selectFamily_staged refresh known).mono ?_)
    rintro stage (cause | _ | row) holds
    · exact .inl holds
    · obtain ⟨-, rfl⟩ := holds
      dsimp only
      rw [given_storable storable]
      rintro (cause | inserted) _
      · exact ⟨⟨⟨rfl, rfl, fun _ => rfl⟩, storable⟩, .inl rfl⟩
      · exact ⟨⟨⟨rfl, rfl, fun _ => rfl⟩, storable⟩, ih true (by simp)⟩
    · obtain rfl : stage = _ := holds
      change LockResult refresh _ (.ok row.revokedAt.isSome)
      cases row.revokedAt.isSome <;> rfl

/-- A transaction follows the stages when its body does, up to its commit or rollback. -/
theorem inTx_staged {Failure : Type} {other : String → Failure}
    {body : Query (Except Failure Result)} {post : Stage → Except Failure Result → Prop}
    (begins : ∀ begun, stage.permits .begin begun)
    (kept : stage.advance .begin (.ok ()) = stage)
    (stopped : ∀ cause failure, post (stage.advance .begin (.error cause)) (.error failure))
    (runs : Staged (fun after outcome => match outcome with
      | .error failure => Staged (fun final _ => post final (.error failure)) rollback after
      | .ok result => Staged (fun final committed => match committed with
          | .error cause => post final (.error (other ("postgres: commit: " ++ cause)))
          | .ok () => post final (.ok result)) commit after) body stage) :
    Staged post (inTx other body) stage := by
  rintro (cause | ⟨⟩) _
  · exact ⟨begins _, stopped cause _⟩
  · refine ⟨begins _, ?_⟩
    change Staged post (Program.bind body _) (stage.advance .begin (.ok ()))
    rw [kept]
    refine (meets_bind _ _ _).mpr (runs.mono ?_)
    rintro after (failure | result) holds
    · exact holds
    · rintro (cause | ⟨⟩) assumed
      · exact holds (.error cause) assumed
      · exact holds (.ok ()) assumed

variable (crypto : Crypto)

/-- A save keeps to its stages. -/
theorem saveRefresh_staged (rounds : Nat) (refresh : Refresh) :
    Staged (fun stage answer => stage.answers ⟨.saveRefresh refresh, answer⟩)
      (saveRefresh crypto (rounds + 2) refresh) (.saving refresh false) := by
  refine inTx_staged (fun _ => trivial) rfl (fun _ _ => trivial) ?_
  refine (meets_bind _ _ _).mpr ((lockFamily_staged refresh (rounds + 1) false (by simp)).mono ?_)
  rintro stage (cause | _ | _) result
  · rcases result with rfl | ⟨refused, known, rfl⟩
    · exact fun _ _ => ⟨trivial, trivial⟩
    · exact fun _ _ => ⟨refused, trivial⟩
  · obtain rfl : stage = .cleared refresh := result
    dsimp only
    unfold given
    split
    · rintro (cause | _ | _) _
      · exact ⟨⟨_, rfl, rfl⟩, fun _ _ => ⟨trivial, trivial⟩⟩
      · exact ⟨⟨_, rfl, rfl⟩, fun _ _ => ⟨trivial, trivial⟩⟩
      · refine ⟨⟨_, rfl, rfl⟩, ?_⟩
        rintro (cause | ⟨⟩) _
        · exact ⟨trivial, trivial⟩
        · exact ⟨trivial, trivial⟩
    · exact fun _ _ => ⟨trivial, trivial⟩
  · obtain rfl : stage = .refused refresh := result
    exact fun _ _ => ⟨trivial, rfl⟩

/-- A consuming client may commit or roll back each of its statements. -/
theorem autocommit_staged
    (runs : Staged (fun stage _ => stage = .consuming) statement .consuming) :
    Staged (fun stage _ => stage = .consuming) (autocommit statement) .consuming := by
  apply meets_autocommit
  apply runs.mono
  rintro stage (cause | result) rfl
  · exact fun _ _ => ⟨trivial, rfl⟩
  · exact fun _ _ => ⟨trivial, rfl⟩

/-- A consume keeps to its stages. -/
theorem consumeRefresh_staged (token clientID : String) (moment : Time) :
    Staged (fun stage answer => stage.answers ⟨.consumeRefresh token clientID moment, answer⟩)
      (consumeRefresh crypto token clientID moment) .consuming := by
  have updates : Staged (fun stage _ => stage = .consuming)
      (autocommit (change (.refresh (crypto.hash token))
        (fun database => database.consumableRefresh (crypto.hash token) clientID)
        (.consumeRefresh (crypto.hash token) moment))) .consuming := by
    apply autocommit_staged
    apply meets_change
    refine meets_selectLocking (fun _ _ => ⟨trivial, rfl⟩) (fun _ _ _ => ⟨trivial, rfl⟩)
      fun _ _ _ _ => ⟨trivial, ?_⟩
    refine meets_lock (fun _ _ => ⟨trivial, rfl⟩) fun newest _ => ⟨trivial, ?_⟩
    cases found : newest.consumableRefresh (crypto.hash token) clientID with
    | none =>
      simp only [Except.map, found]
      rfl
    | some row =>
      simp only [Except.map, found]
      exact fun _ _ => ⟨⟨_, _, rfl⟩, rfl⟩
  have looks : Staged (fun stage _ => stage = .consuming) (autocommit (select fun database =>
        database.consumedRefresh (crypto.hash token) clientID)) .consuming := by
    apply autocommit_staged
    exact meets_select (fun _ _ => ⟨trivial, rfl⟩) fun _ _ => ⟨trivial, rfl⟩
  refine (meets_bind _ _ _).mpr ((given_staged rfl updates).mono ?_)
  rintro stage (cause | _ | row) rfl
  · trivial
  · refine (meets_bind _ _ _).mpr (looks.mono ?_)
    rintro stage (cause | _ | row) rfl
    · trivial
    · trivial
    · trivial
  · trivial

variable {families locked : List String} {rest : Option (List String)}

theorem Database.unrevoked_congr (database : Database)
    (same : ∀ familyID, familyID ∈ families ↔ familyID ∈ locked) :
    database.unrevoked families = database.unrevoked locked := by
  apply filter_congr
  intro row _
  rw [decide_eq_decide.mpr (same row.familyID)]

/-- The sweep has revoked all tokens of the locked families. -/
def SweepResult (locked : List String) (stage : Stage) : Except String Nat → Prop
  | .error _ => stage = .failed
  | .ok _ => stage = .revoking locked (some [])

section

variable (same : ∀ familyID, familyID ∈ families ↔ familyID ∈ locked)

include same

/-- The loop revokes all tokens of the locked families. -/
theorem revokeEach_staged (moment : Time) (candidates rest : List String)
    (covered : rest ⊆ candidates) :
    Staged (SweepResult locked) (revokeEach families moment candidates)
      (.revoking locked (some rest)) := by
  induction candidates generalizing rest with
  | nil =>
    rw [subset_nil.mp covered]
    exact rfl
  | cons tokenHash candidates ih =>
    rintro (cause | newest) _
    · exact ⟨trivial, rfl⟩
    · refine ⟨trivial, ?_⟩
      change Staged _ _
        (.revoking locked (some (rest.filter (Stage.stillOpen newest locked tokenHash))))
      dsimp only [Program.bind]
      rw [newest.unrevoked_congr same]
      cases found : (newest.unrevoked locked).find? fun row => row.tokenHash = tokenHash with
      | none =>
        apply ih
        intro hash member
        obtain ⟨inRest, isOpen⟩ := mem_filter.mp member
        have settled : (newest.unrevoked locked).any
            (fun row => row.tokenHash = tokenHash) = false := by
          simpa using found
        rw [Stage.stillOpen, settled, Bool.or_false, decide_eq_true_eq] at isOpen
        exact (mem_cons.mp (covered inRest)).resolve_left isOpen
      | some row =>
        intro _ _
        refine ⟨trivial, ?_⟩
        change Staged _ (Program.bind (revokeEach families moment candidates) _) _
        refine (meets_bind _ _ _).mpr ((ih _ ?_).mono ?_)
        · intro hash member
          obtain ⟨inRest, other⟩ := mem_filter.mp member
          have inCandidates := covered (mem_filter.mp inRest).1
          exact (mem_cons.mp inCandidates).resolve_left (of_decide_eq_true other)
        · rintro stage (cause | live) swept
          · exact swept
          · exact swept

theorem revokeTokens_staged (moment : Time) :
    Staged (SweepResult locked) (revokeTokens families moment) (.revoking locked rest) := by
  have reads : Staged (fun stage (outcome : Except String (List RefreshRow)) => match outcome with
      | .ok rows => stage = .revoking locked (some (rows.map tokenHash))
      | .error _ => stage = .failed)
      (select fun database => database.unrevoked families) (.revoking locked rest) := by
    refine meets_select (fun _ _ => ⟨trivial, rfl⟩) fun visible _ => ⟨trivial, ?_⟩
    rw [visible.unrevoked_congr same]
    rfl
  refine (meets_bind _ _ _).mpr (reads.mono ?_)
  rintro stage (cause | rows) holds
  · exact holds
  · obtain rfl : stage = _ := holds
    exact revokeEach_staged same moment _ _ (List.Subset.refl _)

end

/-- The subquery has locked the families it reports. -/
def FamiliesResult (locked : List String) (stage : Stage) : Except String (List String) → Prop
  | .error _ => stage = .failed
  | .ok families => ∃ all rest, stage = .revoking all rest ∧
      ∀ familyID, familyID ∈ all ↔ familyID ∈ families ∨ familyID ∈ locked

/-- The reported families are locked. -/
theorem lockFamilies_staged (candidates locked : List String) (rest : Option (List String)) :
    Staged (FamiliesResult locked) (lockFamilies candidates) (.revoking locked rest) := by
  induction candidates generalizing locked rest with
  | nil => exact ⟨locked, rest, rfl, by simp⟩
  | cons candidate candidates ih =>
    apply (meets_bind _ _ _).mpr
    refine meets_lock (fun _ _ => ⟨rfl, rfl⟩) fun newest _ => ⟨rfl, ?_⟩
    apply (meets_bind _ _ _).mpr
    change Staged _ _ (if (newest.family candidate).isSome then
      Stage.revoking (candidate :: locked) none else .revoking locked rest)
    cases (newest.family candidate).isSome with
    | true =>
      apply (ih (candidate :: locked) none).mono
      rintro stage (cause | families) holds
      · exact holds
      · obtain ⟨all, remaining, rfl, same⟩ := holds
        refine ⟨all, remaining, rfl, fun familyID => ?_⟩
        rw [same, mem_cons, if_pos rfl, mem_cons]
        tauto
    | false =>
      apply (ih locked rest).mono
      rintro stage (cause | families) holds
      · exact holds
      · exact holds

theorem stampEach_staged (moment : Time) (owned : families ⊆ locked) :
    Staged (fun stage _ => stage = .revoking locked rest) (stampEach moment families)
      (.revoking locked rest) := by
  induction families with
  | nil => exact rfl
  | cons familyID families ih =>
    intro _ _
    exact ⟨owned mem_cons_self, ih (subset_of_cons_subset owned)⟩

/-- A revocation may commit only after a complete sweep. -/
def BodyResult (stage : Stage) : Except StoreError Nat → Prop
  | .error _ => stage = .failed ∨ ∃ locked rest, stage = .revoking locked rest
  | .ok _ => ∃ locked, stage = .revoking locked (some [])

theorem revocation_staged {body : Query (Except StoreError Nat)}
    (runs : Staged BodyResult body (.revoking [] none)) :
    Staged (fun stage _ => stage = .failed ∨ stage = .ended) (inTx revokeFailure body)
      (.revoking [] none) := by
  refine inTx_staged (fun _ => trivial) rfl (fun _ _ => .inl rfl) (runs.mono ?_)
  rintro stage (failure | live) result
  · rcases result with rfl | ⟨locked, rest, rfl⟩
    · exact fun _ _ => ⟨trivial, .inl rfl⟩
    · exact fun _ _ => ⟨trivial, .inr rfl⟩
  · obtain ⟨locked, rfl⟩ := result
    rintro (cause | ⟨⟩) _
    · exact ⟨rfl, .inl rfl⟩
    · exact ⟨rfl, .inr rfl⟩

/-- Both revocations end with a sweep of the families they have locked. -/
theorem sweep_staged (same : ∀ familyID, familyID ∈ families ↔ familyID ∈ locked) (moment : Time) :
    Staged BodyResult (Program.bind (revokeTokens families moment) fun swept => match swept with
      | .error cause => done (Except.error (revokeFailure cause))
      | .ok live => done (Except.ok live)) (.revoking locked rest) := by
  apply (meets_bind _ _ _).mpr
  apply (revokeTokens_staged same moment).mono
  rintro stage (cause | live) result
  · exact .inl result
  · exact ⟨locked, result⟩

/-- A stamp locks the row of its family. -/
theorem stampFamily_staged (familyID : String) (moment : Time) :
    Staged (fun stage (outcome : Except String (Option FamilyRow)) => match outcome with
      | .error _ => stage = .failed ∨ ∃ locked rest, stage = .revoking locked rest
      | .ok none => ∃ locked rest, stage = .revoking locked rest
      | .ok (some _) => stage = .revoking [familyID] none)
      (given [familyID] (change (.family familyID) (fun database => database.family familyID)
        (.stampFamily familyID moment))) (.revoking [] none) := by
  apply given_staged (.inr ⟨_, _, rfl⟩)
  apply meets_change
  refine meets_selectLocking (fun _ _ => ⟨trivial, .inl rfl⟩)
    (fun _ _ _ => ⟨trivial, _, _, rfl⟩) fun visible _ _ _ => ⟨trivial, ?_⟩
  refine meets_lock (fun _ _ => ⟨rfl, .inl rfl⟩) fun newest _ => ⟨rfl, ?_⟩
  have next : stages.advance (stages.advance (.revoking [] none) (observe .snapshot (.ok visible)))
      (observe (.lock (.family familyID) .exclusive) (.ok newest)) =
      if (newest.family familyID).isSome then .revoking [familyID] none
      else .revoking [] (some ((visible.unrevoked []).map tokenHash)) := rfl
  rw [next]
  cases found : newest.family familyID with
  | none =>
    simp only [Except.map, found]
    exact ⟨_, _, rfl⟩
  | some row =>
    simp only [Except.map, found]
    exact fun _ _ => ⟨mem_cons_self, rfl⟩

theorem revokeRefreshFamily_staged (familyID : String) (moment : Time) :
    Staged (fun stage _ => stage = .failed ∨ stage = .ended)
      (revokeRefreshFamily familyID moment) (.revoking [] none) := by
  apply revocation_staged
  apply (meets_bind _ _ _).mpr
  apply (stampFamily_staged familyID moment).mono
  rintro stage (cause | _ | row) result
  · exact result
  · exact .inr result
  · obtain rfl : stage = _ := result
    exact sweep_staged (fun _ => Iff.rfl) moment

/-- A revocation by owner keeps to its stages. -/
theorem revokeFamiliesWhere_staged (selector : Selector) (moment : Time) :
    Staged (fun stage _ => stage = .failed ∨ stage = .ended)
      (revokeFamiliesWhere selector moment) (.revoking [] none) := by
  have selects : Staged (fun stage (outcome : Except String (List String)) => match outcome with
      | .error _ => stage = .failed ∨ ∃ locked rest, stage = .revoking locked rest
      | .ok _ => ∃ rest, stage = .revoking [] rest)
      (given selector.texts (select fun database => database.selectedFamilies selector))
      (.revoking [] none) :=
    given_staged (.inr ⟨_, _, rfl⟩)
      (meets_select (fun _ _ => ⟨trivial, .inl rfl⟩) fun _ _ => ⟨trivial, _, rfl⟩)
  apply revocation_staged
  apply (meets_bind _ _ _).mpr
  apply selects.mono
  rintro stage (cause | candidates) result
  · exact result
  · obtain ⟨rest, rfl⟩ := result
    apply (meets_bind _ _ _).mpr
    apply (lockFamilies_staged candidates [] rest).mono
    rintro stage (cause | families) locks
    · exact .inl locks
    · obtain ⟨all, remaining, rfl, same⟩ := locks
      have families_iff : ∀ familyID, familyID ∈ families ↔ familyID ∈ all := by
        intro familyID
        simp [same familyID]
      apply (meets_bind _ _ _).mpr
      apply (stampEach_staged moment fun familyID => (families_iff familyID).mp).mono
      rintro stage _ rfl
      exact sweep_staged families_iff moment

/-- Every client follows the stages of its call. -/
theorem client_staged (rounds : Nat) (call : RefreshCall) :
    Staged Stage.answers (client crypto (rounds + 2) call) (.start call) := by
  have closes : ∀ (returned : Returned) (stage : Stage), stage = .failed ∨ stage = .ended →
      stage.answers returned := by
    rintro returned stage (rfl | rfl)
    · trivial
    · trivial
  apply (meets_bind _ _ _).mpr
  cases call with
  | saveRefresh refresh => exact saveRefresh_staged crypto rounds refresh
  | consumeRefresh token clientID moment => exact consumeRefresh_staged crypto token clientID moment
  | revokeRefreshFamily familyID moment =>
    exact (revokeRefreshFamily_staged familyID moment).mono fun stage _ => closes _ stage
  | revokeRefreshByEmail email moment =>
    exact (revokeFamiliesWhere_staged (.email email) moment).mono fun stage _ => closes _ stage
  | revokeRefreshBySubject connectorID subject moment =>
    exact (revokeFamiliesWhere_staged (.subject connectorID subject) moment).mono
      fun stage _ => closes _ stage

end Tempogate.Postgres
