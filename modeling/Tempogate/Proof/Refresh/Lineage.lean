/-
This file proves that permitted moves keep every refresh family on a single line of descent.
-/

import Tempogate.Proof.Refresh.Standing

namespace Tempogate.State

open Foundation Oidc Standing

variable {deed : Deed} {next : Nat → Standing} {row : RefreshRow}

/-- The rows of a family share their origin, end in time, and at most one of them is live. -/
structure Lineal (maxLifetime : Time) (rows : List RefreshRow) : Prop where
  named : ∀ row ∈ rows, row.familyID ≠ ""
  shared : ∀ first ∈ rows, ∀ second ∈ rows, first.familyID = second.familyID →
    first.origin = second.origin
  bounded : ∀ row ∈ rows, row.expiresAt ≤ row.authTime + maxLifetime
  single : ∀ first ∈ rows, ∀ second ∈ rows, first.familyID = second.familyID →
    first.live → second.live → first.tokenHash = second.tokenHash

/-- A family that some request may save into has one such request and no live row. -/
structure Guarded (rows : List RefreshRow) (standings : Nat → Standing) : Prop where
  exclusive : ∀ one other first second, (standings first).entry = some one →
    (standings second).entry = some other → one.familyID = other.familyID → first = second
  dead : ∀ deed process, (standings process).entry = some deed → FamilyDead rows deed.familyID
  drawn : ∀ familyID process, (standings process).entry = some (.drew familyID) →
    FamilyAbsent rows familyID
  taken : ∀ origin expiresAt moment process,
    (standings process).entry = some (.took origin expiresAt moment) →
    ∃ row ∈ rows, row.origin = origin

/-- The entries after a step are those before it and the one that its deed gives. -/
def Enters (standings next : Nat → Standing) (process : Nat) (deed : Deed) : Prop :=
  ∀ holder entry, (next holder).entry = some entry → (process = holder ∧ deed = entry) ∨
      (standings holder).entry = some entry ∧
        (process = holder → ∀ origin expiresAt, deed ≠ .saved origin expiresAt)

section Moves

variable {maxLifetime : Time} {rows later : List RefreshRow} {standings : Nat → Standing}
  {process : Nat}

/-- An evolution keeps the rows lineal. -/
theorem Lineal.evolve (lineal : Lineal maxLifetime rows) (evolution : Evolution rows later) :
    Lineal maxLifetime later where
  named := by
    intro row present
    obtain ⟨earlier, old, evolves⟩ := evolution.backward row present
    rw [evolves.familyID_eq]
    exact lineal.named earlier old
  shared := by
    intro first inFirst second inSecond family
    obtain ⟨one, old, evolves⟩ := evolution.backward first inFirst
    obtain ⟨other, oldToo, evolvesToo⟩ := evolution.backward second inSecond
    rw [evolves.familyID_eq, evolvesToo.familyID_eq] at family
    rw [evolves.origin_eq, evolvesToo.origin_eq]
    exact lineal.shared one old other oldToo family
  bounded := by
    intro row present
    obtain ⟨earlier, old, evolves⟩ := evolution.backward row present
    have same : row.authTime = earlier.authTime := congrArg Origin.authTime evolves.origin_eq
    rw [evolves.expiresAt_eq, same]
    exact lineal.bounded earlier old
  single := by
    intro first inFirst second inSecond family live liveToo
    obtain ⟨one, old, evolves⟩ := evolution.backward first inFirst
    obtain ⟨other, oldToo, evolvesToo⟩ := evolution.backward second inSecond
    rw [evolves.familyID_eq, evolvesToo.familyID_eq] at family
    rw [evolves.tokenHash_eq, evolvesToo.tokenHash_eq]
    exact lineal.single one old other oldToo family (evolves.live_of_live live)
      (evolvesToo.live_of_live liveToo)

variable {familyID : String} {next : Nat → Standing}

theorem FamilyDead.evolve (dead : FamilyDead rows familyID) (evolution : Evolution rows later) :
    FamilyDead later familyID := by
  intro row present family
  obtain ⟨earlier, old, evolves⟩ := evolution.backward row present
  have spent := dead earlier old (evolves.familyID_eq.symm.trans family)
  by_contra live
  rw [Bool.not_eq_false] at live
  simp [evolves.live_of_live live] at spent

/-- Fewer entries are guarded too. -/
theorem Guarded.weaken (guarded : Guarded rows standings)
    (fewer : ∀ holder entry, (next holder).entry = some entry →
      (standings holder).entry = some entry) : Guarded rows next where
  exclusive one other first second isOne isOther :=
    guarded.exclusive one other first second (fewer _ _ isOne) (fewer _ _ isOther)
  dead deed holder entered := guarded.dead deed holder (fewer _ _ entered)
  drawn familyID holder entered := guarded.drawn familyID holder (fewer _ _ entered)
  taken origin expiresAt moment holder entered :=
    guarded.taken origin expiresAt moment holder (fewer _ _ entered)

/-- An evolution keeps the families guarded. -/
theorem Guarded.evolve (guarded : Guarded rows standings) (evolution : Evolution rows later) :
    Guarded later standings where
  exclusive := guarded.exclusive
  dead deed holder entered := (guarded.dead deed holder entered).evolve evolution
  drawn := by
    intro familyID holder drew row present
    obtain ⟨earlier, old, evolves⟩ := evolution.backward row present
    rw [evolves.familyID_eq]
    exact guarded.drawn familyID holder drew earlier old
  taken := by
    intro origin expiresAt moment holder took
    obtain ⟨row, present, rfl⟩ := guarded.taken origin expiresAt moment holder took
    obtain ⟨next, member, evolves⟩ := evolution.forward row present
    exact ⟨next, member, evolves.origin_eq⟩

theorem FamilyAbsent.dead (absent : FamilyAbsent rows familyID) : FamilyDead rows familyID :=
  fun row present family => absurd family (absent row present)

/-- A request may save into a family once nobody else does and its rows are dead. -/
theorem Guarded.enter (guarded : Guarded rows standings)
    (enters : Enters standings next process deed)
    (fresh : ∀ holder entry, (standings holder).entry = some entry →
      entry.familyID ≠ deed.familyID) (dead : FamilyDead rows deed.familyID)
    (drawn : ∀ familyID, deed = .drew familyID → FamilyAbsent rows familyID)
    (taken : ∀ origin expiresAt moment, deed = .took origin expiresAt moment →
      ∃ row ∈ rows, row.origin = origin) : Guarded rows next where
  exclusive := by
    intro one other first second isOne isOther family
    rcases enters first one isOne with ⟨rfl, rfl⟩ | ⟨old, -⟩
    · rcases enters second other isOther with ⟨rfl, -⟩ | ⟨old, -⟩
      · rfl
      · exact absurd family.symm (fresh second other old)
    · rcases enters second other isOther with ⟨rfl, rfl⟩ | ⟨oldToo, -⟩
      · exact absurd family (fresh first one old)
      · exact guarded.exclusive one other first second old oldToo family
  dead := by
    intro entry holder entered
    rcases enters holder entry entered with ⟨-, rfl⟩ | ⟨old, -⟩
    · exact dead
    · exact guarded.dead entry holder old
  drawn := by
    intro familyID holder entered
    rcases enters holder _ entered with ⟨-, same⟩ | ⟨old, -⟩
    · exact drawn familyID same
    · exact guarded.drawn familyID holder old
  taken := by
    intro origin expiresAt moment holder entered
    rcases enters holder _ entered with ⟨-, same⟩ | ⟨old, -⟩
    · exact taken origin expiresAt moment same
    · exact guarded.taken origin expiresAt moment holder old

/-- Rows with one token hash are the same row. -/
def Keyed (rows : List RefreshRow) : Prop :=
  ∀ first ∈ rows, ∀ second ∈ rows, first.tokenHash = second.tokenHash → first = second

/-- A taken token was the only live one of its family, so the taker guards the family. -/
theorem Guarded.took {found : RefreshRow} {moment : Time}
    (guarded : Guarded rows standings) (lineal : Lineal maxLifetime rows) (keyed : Keyed rows)
    (enters : Enters standings next process (.took found.origin found.expiresAt moment))
    (present : found ∈ rows) (live : found.live) (evolution : Evolution rows later)
    (spent : ∀ row ∈ later, row.live → row ∈ rows ∧ row ≠ found) : Guarded later next := by
  have unclaimed : ∀ holder deed, (standings holder).entry = some deed →
      deed.familyID ≠ found.familyID := by
    intro holder deed entered family
    have dead := guarded.dead deed holder entered found present family.symm
    simp [live] at dead
  have deadNow : FamilyDead later found.familyID := by
    intro row member family
    by_contra alive
    rw [Bool.not_eq_false] at alive
    obtain ⟨old, distinct⟩ := spent row member alive
    exact distinct (keyed row old found present
      (lineal.single row old found present family alive live))
  refine (guarded.evolve evolution).enter enters unclaimed deadNow nofun ?_
  rintro _ _ _ ⟨⟩
  obtain ⟨row, member, evolves⟩ := evolution.forward found present
  exact ⟨row, member, evolves.origin_eq⟩

/-- A request that may save holds the family of the token it saves. -/
theorem entry_of_maySave {standing : Standing} {origin : Origin}
    (may : standing.MaySave maxLifetime origin) :
    ∃ deed, standing.entry = some deed ∧ deed.familyID = origin.familyID := by
  rcases may.entered with rfl | ⟨expiresAt, moment, rfl, -, -⟩ <;> exact ⟨_, rfl, rfl⟩

/-- A saved token starts or continues its family. -/
theorem Lineal.saved (lineal : Lineal maxLifetime rows)
    (guarded : Guarded rows standings)
    (may : (standings process).MaySave maxLifetime row.origin)
    (bounded : row.expiresAt ≤ row.authTime + maxLifetime) :
    Lineal maxLifetime (rows ++ [row]) := by
  have same : ∀ stored ∈ rows, stored.familyID = row.familyID → stored.origin = row.origin := by
    intro stored present family
    rcases may.entered with drew | ⟨expiresAt, moment, took, -, -⟩
    · have absent := guarded.drawn row.familyID process (congrArg entry drew)
      exact absurd family (absent stored present)
    · obtain ⟨other, member, origin⟩ := guarded.taken _ _ _ process (congrArg entry took)
      rw [← origin]
      refine lineal.shared stored present other member (family.trans ?_)
      exact (RefreshRow.familyID_eq_of_origin origin).symm
  have dead : FamilyDead rows row.familyID := by
    obtain ⟨deed, entered, family⟩ := entry_of_maySave may
    have dead := guarded.dead deed process entered
    rw [family] at dead
    exact dead
  constructor <;> simp only [List.mem_append, List.mem_singleton]
  · rintro stored (old | rfl)
    · exact lineal.named stored old
    · exact may.named
  · rintro first (old | rfl) second (oldToo | rfl) family
    · exact lineal.shared first old second oldToo family
    · exact same first old family
    · exact (same second oldToo family.symm).symm
    · rfl
  · rintro stored (old | rfl)
    · exact lineal.bounded stored old
    · exact bounded
  · rintro first (old | rfl) second (oldToo | rfl) family live liveToo
    · exact lineal.single first old second oldToo family live liveToo
    · simp [dead first old family] at live
    · simp [dead second oldToo family.symm] at liveToo
    · rfl

/-- After a save nobody holds the family of the saved token. -/
theorem Guarded.saved (guarded : Guarded rows standings)
    (enters : Enters standings next process (.saved row.origin row.expiresAt))
    (may : (standings process).MaySave maxLifetime row.origin) : Guarded (rows ++ [row]) next := by
  obtain ⟨mine, entered, family⟩ := entry_of_maySave may
  have others : ∀ holder deed, (next holder).entry = some deed →
      (standings holder).entry = some deed ∧ row.familyID ≠ deed.familyID := by
    intro holder deed held
    rcases enters holder deed held with ⟨-, rfl⟩ | ⟨old, unsaved⟩
    · rcases entry_eq_some held with ⟨_, same⟩ | ⟨_, _, _, same⟩ <;> cases same
    · refine ⟨old, fun same => ?_⟩
      exact unsaved (guarded.exclusive mine deed process holder entered old (family.trans same))
        _ _ rfl
  constructor
  · intro one other first second isOne isOther
    exact guarded.exclusive one other first second (others _ _ isOne).1 (others _ _ isOther).1
  · intro deed holder held stored present ofFamily
    rcases List.mem_append.mp present with old | new
    · exact guarded.dead deed holder (others _ _ held).1 stored old ofFamily
    · rw [List.mem_singleton.mp new] at ofFamily
      exact absurd ofFamily (others _ _ held).2
  · intro familyID holder held stored present
    rcases List.mem_append.mp present with old | new
    · exact guarded.drawn familyID holder (others _ _ held).1 stored old
    · rw [List.mem_singleton.mp new]
      exact (others _ _ held).2
  · intro origin expiresAt moment holder held
    obtain ⟨stored, present, same⟩ :=
      guarded.taken origin expiresAt moment holder (others _ _ held).1
    exact ⟨stored, List.mem_append_left _ present, same⟩

/-- A deed that gives no entry adds none. -/
theorem Enters.fewer (enters : Enters standings next process deed)
    (plain : (∀ familyID, deed ≠ .drew familyID) ∧
      ∀ origin expiresAt moment, deed ≠ .took origin expiresAt moment) :
    ∀ holder entry, (next holder).entry = some entry → (standings holder).entry = some entry := by
  intro holder entry entered
  rcases enters holder entry entered with ⟨-, rfl⟩ | ⟨old, -⟩
  · rcases entry_eq_some entered with ⟨familyID, same⟩ | ⟨origin, expiresAt, moment, same⟩
    · exact absurd same (plain.1 familyID)
    · exact absurd same (plain.2 origin expiresAt moment)
  · exact old

/-- Every permitted move of a running request keeps the rows lineal and the families guarded. -/
theorem Moves.lineal {draws : Prop} (moves : Moves rows deed later)
    (lineal : Lineal maxLifetime rows) (guarded : Guarded rows standings) (keyed : Keyed rows)
    (enters : Enters standings next process deed)
    (permitted : (lineageProtocol maxLifetime draws).permits (standings process) deed)
    (awake : standings process ≠ .sweeping)
    (fresh : ∀ familyID, deed = .drew familyID → FamilyAbsent rows familyID ∧
      ∀ holder entry, (standings holder).entry = some entry → entry.familyID ≠ familyID) :
    Lineal maxLifetime later ∧ Guarded later next := by
  cases moves with
  | quiet evolution =>
    exact ⟨lineal.evolve evolution, (guarded.evolve evolution).weaken (enters.fewer ⟨nofun, nofun⟩)⟩
  | read moment => exact ⟨lineal, guarded.weaken (enters.fewer ⟨nofun, nofun⟩)⟩
  | drew familyID =>
    obtain ⟨absent, unheld⟩ := fresh familyID rfl
    refine ⟨lineal, guarded.enter enters unheld absent.dead ?_ nofun⟩
    rintro _ ⟨⟩
    exact absent
  | took moment present live evolution spent =>
    exact ⟨lineal.evolve evolution, guarded.took lineal keyed enters present live evolution spent⟩
  | saved live unrevoked =>
    obtain ⟨bounded, may⟩ := permitted
    exact ⟨lineal.saved guarded may bounded, guarded.saved enters may⟩
  | purged families => exact absurd permitted awake

end Moves

end Tempogate.State
