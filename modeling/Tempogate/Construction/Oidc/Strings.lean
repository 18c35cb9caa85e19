/-
This file defines the functions of the strings package that the parsers call.
-/

import Tempogate.Foundation.Text

namespace Tempogate.Oidc

/-- These are the characters that Unicode calls white space. -/
def isSpace (char : Char) : Bool :=
  let code := char.toNat
  (9 ≤ code && code ≤ 13) || (0x2000 ≤ code && code ≤ 0x200a) ||
    code ∈ [0x20, 0x85, 0xa0, 0x1680, 0x2028, 0x2029, 0x202f, 0x205f, 0x3000]

variable (text : String)

def trimSpace : String :=
  String.ofList ((text.toList.dropWhile isSpace).reverse.dropWhile isSpace).reverse

variable (separator : Char)

def split : List String :=
  (text.toList.splitOn separator).map String.ofList

/-- The text is cut at the first separator. -/
def cut : Option (String × String) :=
  (Foundation.cutFirst separator text.toList).map fun parts =>
    (String.ofList parts.1, String.ofList parts.2)

/-- The text is cut at the last separator. -/
def cutAtLast : Option (String × String) :=
  (Foundation.cutLast separator text.toList).map fun parts =>
    (String.ofList parts.1, String.ofList parts.2)

variable {second text : String} {separator : Char}

theorem parts_eq_iff {parts : Option (List Char × List Char)} {first : String} :
    (parts.map fun parts => (String.ofList parts.1, String.ofList parts.2)) =
        some (first, second) ↔ parts = some (first.toList, second.toList) := by
  constructor
  · intro texts
    obtain ⟨⟨front, back⟩, found, same⟩ := Option.map_eq_some_iff.mp texts
    obtain ⟨rfl, rfl⟩ := Prod.mk.inj same
    rw [found, String.toList_ofList, String.toList_ofList]
  · intro found
    rw [found, Option.map_some, String.ofList_toList, String.ofList_toList]

theorem cut_eq_some_iff {first : String} : cut text separator = some (first, second) ↔
      text.toList = first.toList ++ separator :: second.toList ∧ separator ∉ first.toList := by
  rw [cut, parts_eq_iff, Foundation.cutFirst_eq_some_iff]

theorem cutAtLast_eq_some_iff {first : String} : cutAtLast text separator = some (first, second) ↔
      text.toList = first.toList ++ separator :: second.toList ∧ separator ∉ second.toList := by
  rw [cutAtLast, parts_eq_iff, Foundation.cutLast_eq_some_iff]

theorem toList_trimSpace (text : String) :
    (trimSpace text).toList = Foundation.trim isSpace text.toList := by
  rw [trimSpace, String.toList_ofList]
  rfl

theorem trimSpace_eq_self (trimmed : Foundation.Trimmed isSpace text.toList) :
    trimSpace text = text := by
  rw [← String.toList_inj, toList_trimSpace, trimmed.trim_eq]

theorem trimSpace_eq_empty_iff :
    trimSpace text = "" ↔ ∀ char ∈ text.toList, isSpace char = true := by
  rw [← String.toList_inj, toList_trimSpace, String.toList_empty, Foundation.trim_eq_nil_iff]

theorem split_append (first second : String) (separator : Char) :
    split (first ++ separator.toString ++ second) separator =
      split first separator ++ split second separator := by
  have letters : (first ++ separator.toString ++ second).toList =
      first.toList ++ separator :: second.toList := by simp
  rw [split, letters, List.splitOn_append_cons_self, List.map_append, split, split]

theorem split_eq_singleton (absent : separator ∉ text.toList) : split text separator = [text] := by
  rw [split, List.splitOn_eq_singleton absent, List.map_singleton, String.ofList_toList]

end Tempogate.Oidc
