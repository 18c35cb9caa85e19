/-
This file defines how runes are read from bytes and written to them.
-/

import Mathlib.Data.List.Basic

namespace Tempogate.Foundation.Utf8

def encode (chars : List Char) : List UInt8 := chars.flatMap String.utf8EncodeChar

variable (bytes : List UInt8)

/-- The first rune is missing when the bytes do not begin with a whole encoding. -/
def decodeRune : Option Char := bytes.toByteArray.utf8DecodeChar? 0

/-- A byte that begins no encoding counts as a rune of its own. -/
def runeSize : Nat :=
  match decodeRune bytes with
  | some char => char.utf8Size
  | none => if bytes.isEmpty then 0 else 1

/-- This is the index behind the first runes. -/
def runeIndex : Nat → List UInt8 → Nat
  | 0, _ => 0
  | count + 1, bytes => runeSize bytes + runeIndex count (bytes.drop (runeSize bytes))

/-- The bytes run out after as many runes as there are bytes. -/
def runeCountFrom : Nat → List UInt8 → Nat
  | 0, _ => 0
  | fuel + 1, bytes =>
    if bytes.isEmpty then 0 else 1 + runeCountFrom fuel (bytes.drop (runeSize bytes))

def runeCount : Nat := runeCountFrom bytes.length bytes

end Tempogate.Foundation.Utf8
