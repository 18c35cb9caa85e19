/-
This file proves that a user code is read back however it is retyped.
-/

import Tempogate.Construction.Oidc.DeviceUI

namespace Tempogate.Oidc

/-- These bytes come before the first failed read. -/
def delivered : List (Except String (Vector UInt8 16)) → List UInt8
  | .ok buffer :: reads => buffer.toList ++ delivered reads
  | _ => []

def accepted (bytes : List UInt8) : List UInt8 :=
  bytes.filter fun byte => byte.toNat < userCodeRandRejectionCap

theorem drawUserCode_eq {out : List Char} (short : out.length ≤ userCodeLen) (bytes : List UInt8) :
    drawUserCode out bytes = (out ++ (accepted bytes).map userCodeLetter).take userCodeLen := by
  induction bytes generalizing out with
  | nil => simp [drawUserCode, accepted, List.take_of_length_le short]
  | cons byte rest ih =>
    rw [drawUserCode]
    split
    next full => rw [List.take_append_of_le_length full, List.take_of_length_le short]
    next =>
      split
      next rejected => simp [ih short, accepted, Nat.not_lt.mpr rejected]
      next taken =>
        rw [ih (by rw [List.length_append, List.length_singleton]; omega)]
        simp [accepted, Nat.not_le.mp taken]

/-- The code is made of the first accepted bytes, once there are enough of them. -/
theorem randomUserCode_eq_ok_iff {out : List Char} (short : out.length ≤ userCodeLen)
    {reads : List (Except String (Vector UInt8 16))} {code : String} :
    randomUserCode out reads = some (.ok code) ↔ code.toList.length = userCodeLen ∧ code.toList =
      (out ++ (accepted (delivered reads)).map userCodeLetter).take userCodeLen := by
  fun_induction randomUserCode out reads with
  | case1 out reads full =>
    rw [List.take_append_of_le_length full, List.take_of_length_le short, Option.some.injEq,
      Except.ok.injEq, eq_comm, ← String.toList_inj, String.toList_ofList]
    exact ⟨fun same => ⟨same ▸ short.antisymm full, same⟩, And.right⟩
  | case4 out missing buffer reads ih =>
    have left (count : Nat) : userCodeLen - min userCodeLen count = userCodeLen - count := by omega
    rw [ih (by simp [drawUserCode_eq short]), drawUserCode_eq short, List.take_append,
      List.take_take, min_self, List.length_take]
    simp [delivered, accepted, List.take_append, left, Nat.sub_sub]
  | _ out missing =>
    rw [delivered, accepted, List.filter_nil, List.map_nil, List.append_nil,
      List.take_of_length_le short]
    · exact ⟨nofun, fun ⟨length, same⟩ => absurd (same ▸ length).ge missing⟩
    all_goals nofun

/-- A character of a user code is itself or the capital of what was typed. -/
def canonicalChar (char : Char) : Option Char :=
  if 'a' ≤ char ∧ char ≤ 'z' then some (Char.ofNat (char.toNat - 32))
  else if ('A' ≤ char ∧ char ≤ 'Z') ∨ ('0' ≤ char ∧ char ≤ '9') then some char
  else none

theorem canonicalChar_eq_none {char : Char} (sign : char.isAlphanum = false) :
    canonicalChar char = none := by
  unfold Char.isAlphanum Char.isAlpha Char.isUpper Char.isLower Char.isDigit at sign
  grind [canonicalChar, Char.le_def]

theorem canonicalChar_idem (char : Char) :
    (canonicalChar char).bind canonicalChar = canonicalChar char := by
  have capital : ∀ code ≤ 122, 97 ≤ code →
      canonicalChar (.ofNat (code - 32)) = some (.ofNat (code - 32)) := by
    decide +kernel
  by_cases lower : 'a' ≤ char ∧ char ≤ 'z'
  · rw [canonicalChar, if_pos lower]
    exact capital _ (UInt32.le_iff_toNat_le.mp lower.2) (UInt32.le_iff_toNat_le.mp lower.1)
  · grind [canonicalChar]

/-- The code is retyped with letters in either case and with any other signs between them. -/
inductive Retyped : List Char → List Char → Prop
  | nil : Retyped [] []
  | keep {char : Char} {shown typed : List Char} :
      Retyped shown typed → Retyped (char :: shown) (char :: typed)
  | lower {char : Char} {shown typed : List Char} (letter : 'A' ≤ char ∧ char ≤ 'Z') :
      Retyped shown typed → Retyped (char :: shown) (char.toLower :: typed)
  | insert {char : Char} {shown typed : List Char} (sign : char.isAlphanum = false) :
      Retyped shown typed → Retyped shown (char :: typed)

theorem Retyped.filterMap_eq {shown typed : List Char} (retyped : Retyped shown typed) :
    typed.filterMap canonicalChar = shown.filterMap canonicalChar := by
  have lowered : ∀ code ≤ 90,
      canonicalChar (Char.ofNat code).toLower = canonicalChar (.ofNat code) := by
    decide +kernel
  induction retyped with
  | nil => rfl
  | keep _ ih => simp only [List.filterMap_cons, ih]
  | @lower char _ _ letter _ ih =>
    have same := lowered char.toNat (UInt32.le_iff_toNat_le.mp letter.2)
    rw [Char.ofNat_toNat] at same
    simp only [List.filterMap_cons, same, ih]
  | insert sign _ ih => rw [List.filterMap_cons_none (canonicalChar_eq_none sign), ih]

theorem filterMap_formatUserCode (code : String) :
    (formatUserCode code).toList.filterMap canonicalChar = code.toList.filterMap canonicalChar := by
  have dash : canonicalChar '-' = none := by decide
  simp only [formatUserCode]
  split
  next => rfl
  next =>
    rw [← List.take_append_drop (userCodeLen / 2) code.toList, List.filterMap_append]
    simp [dash, List.filterMap_append]

/-- A user code is made of the first accepted bytes, each letter of the alphabet stands for as many
of them, and the code is read back however it is retyped. -/
theorem user_codes_survive_retyping : (∀ reads code, randomUserCode [] reads = some (.ok code) ↔
      code.toList.length = userCodeLen ∧ code.toList =
        ((accepted (delivered reads)).map userCodeLetter).take userCodeLen) ∧
    (∀ reads code, randomUserCode [] reads = some (.ok code) →
      (∀ char ∈ code.toList, char ∈ userCodeAlphabet.toList) ∧
        ∀ typed : String, Retyped (formatUserCode code).toList typed.toList →
          canonicalUserCode typed = code) ∧
    (∀ letter ∈ userCodeAlphabet.toList, (List.range userCodeRandRejectionCap).countP
      (fun value => userCodeLetter (.ofNat value) = letter) = 10) ∧
    ∀ raw, canonicalUserCode (canonicalUserCode raw) = canonicalUserCode raw := by
  have finishes (reads code) := @randomUserCode_eq_ok_iff [] (Nat.zero_le _) reads code
  refine ⟨finishes, ?_, by rw [← List.forall_iff_forall_mem]; decide +kernel, ?_⟩
  · intro reads code finished
    have letters : ∀ char ∈ code.toList, char ∈ userCodeAlphabet.toList := by
      have table : ∀ value < 256, userCodeLetter (.ofNat value) ∈ userCodeAlphabet.toList := by
        decide +kernel
      rw [((finishes reads code).mp finished).2]
      intro char member
      obtain ⟨byte, _, rfl⟩ := List.mem_map.mp (List.mem_of_mem_take member)
      simpa using table byte.toNat byte.toNat_lt
    refine ⟨letters, fun typed retyped => ?_⟩
    have kept : ∀ char ∈ userCodeAlphabet.toList, canonicalChar char = some char := by
      rw [← List.forall_iff_forall_mem]
      decide +kernel
    have same := retyped.filterMap_eq.trans (filterMap_formatUserCode code)
    rw [List.filterMap_congr fun char member => kept char (letters char member),
      List.filterMap_some] at same
    exact (congrArg String.ofList same).trans String.ofList_toList
  · intro raw
    have codes (raw : String) :
        (canonicalUserCode raw).toList = raw.toList.filterMap canonicalChar :=
      String.toList_ofList
    rw [← String.toList_inj, codes, codes, List.filterMap_filterMap]
    simp only [canonicalChar_idem]

end Tempogate.Oidc
