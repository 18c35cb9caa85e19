/-
This file defines how bytes are escaped for a query and proves that the escapes are read back.
-/

import Mathlib.Tactic.Common

namespace Tempogate.Foundation.Query

def hexDigit (value : Nat) : UInt8 := .ofNat (if value < 10 then 48 + value else 55 + value)

def unhex (digit : UInt8) : Option Nat :=
  let code := digit.toNat
  if 48 ≤ code ∧ code ≤ 57 then some (code - 48)
  else if 65 ≤ code ∧ code ≤ 70 then some (code - 55)
  else if 97 ≤ code ∧ code ≤ 102 then some (code - 87)
  else none

/-- Letters, digits and four signs stand for themselves. -/
def unreserved (byte : UInt8) : Bool :=
  let code := byte.toNat
  (65 ≤ code && code ≤ 90) || (97 ≤ code && code ≤ 122) || (48 ≤ code && code ≤ 57) ||
    code ∈ [45, 46, 95, 126]

def escapeByte (byte : UInt8) : List UInt8 :=
  if unreserved byte then [byte]
  else if byte = 32 then [43]
  else [37, hexDigit (byte.toNat / 16), hexDigit (byte.toNat % 16)]

variable (bytes : List UInt8)

def escape : List UInt8 := bytes.flatMap escapeByte

def unescape : List UInt8 → Option (List UInt8)
  | [] => some []
  | byte :: rest =>
    if byte = 37 then
      match rest with
      | high :: low :: rest =>
        match unhex high, unhex low with
        | some high, some low => (unescape rest).map (.ofNat (high * 16 + low) :: ·)
        | _, _ => none
      | _ => none
    else (unescape rest).map ((if byte = 43 then 32 else byte) :: ·)

theorem unhex_hexDigit : ∀ value < 16, unhex (hexDigit value) = some value := by
  decide

theorem unescape_escapeByte (byte : UInt8) (rest : List UInt8) :
    unescape (escapeByte byte ++ rest) = (unescape rest).map (byte :: ·) := by
  have small := byte.toNat_lt
  unfold escapeByte
  split
  next plain =>
    have sign : byte ≠ 37 ∧ byte ≠ 43 := by
      constructor <;> rintro rfl <;> revert plain <;> decide
    simp [unescape.eq_def (byte :: rest), sign]
  · split
    next blank => simp [blank, unescape.eq_def (43 :: rest)]
    · have value : byte.toNat / 16 * 16 + byte.toNat % 16 = byte.toNat := by omega
      simp [unescape, unhex_hexDigit (byte.toNat / 16) (by omega),
        unhex_hexDigit (byte.toNat % 16) (by omega), value]

theorem unescape_escape : unescape (escape bytes) = some bytes := by
  induction bytes with
  | nil => rfl
  | cons byte rest ih =>
    rw [escape, List.flatMap_cons, unescape_escapeByte, ← escape, ih, Option.map_some]

theorem colon_not_mem_escape : 58 ∉ escape bytes := by
  have byte : ∀ code < 256, 58 ∉ escapeByte (.ofNat code) := by decide +kernel
  rw [escape, List.mem_flatMap]
  rintro ⟨value, _, member⟩
  exact byte value.toNat value.toNat_lt (by rwa [UInt8.ofNat_toNat])

end Tempogate.Foundation.Query
