/-
This file defines base64 in its two alphabets, with padding and without.
-/

import Mathlib.Tactic.Common
import Tempogate.Foundation.Text

namespace Tempogate.Foundation

open List

namespace Base64

def sextets (first second third : UInt8) : List Nat :=
  [first.toNat / 4, first.toNat % 4 * 16 + second.toNat / 16,
    second.toNat % 16 * 4 + third.toNat / 64, third.toNat % 64]

def toDigits : List UInt8 → List Nat
  | first :: second :: third :: rest => sextets first second third ++ toDigits rest
  | [first, second] => (sextets first second 0).take 3
  | [first] => (sextets first 0 0).take 2
  | [] => []

def octets (first second third fourth : Nat) : List UInt8 :=
  [.ofNat (first * 4 + second / 16), .ofNat (second % 16 * 16 + third / 4),
    .ofNat (third % 4 * 64 + fourth)]

/-- The bits that fill no byte are dropped. -/
def ofDigits : List Nat → Option (List UInt8)
  | first :: second :: third :: fourth :: rest =>
    (ofDigits rest).map (octets first second third fourth ++ ·)
  | [first, second, third] => some ((octets first second third 0).take 2)
  | [first, second] => some ((octets first second 0 0).take 1)
  | [_] => none
  | [] => some []

theorem octets_sextets (first second third : UInt8) :
    octets (first.toNat / 4) (first.toNat % 4 * 16 + second.toNat / 16)
      (second.toNat % 16 * 4 + third.toNat / 64) (third.toNat % 64) = [first, second, third] := by
  have small := first.toNat_lt
  have small := second.toNat_lt
  have small := third.toNat_lt
  simp only [octets, List.cons.injEq, ← UInt8.toNat_inj, UInt8.toNat_ofNat', and_true]
  omega

theorem ofDigits_toDigits (bytes : List UInt8) : ofDigits (toDigits bytes) = some bytes := by
  fun_induction toDigits bytes with
  | case1 first second third rest ih => simp [sextets, ofDigits, ih, octets_sextets]
  | case2 first second => exact congrArg (some <| List.take 2 ·) (octets_sextets first second 0)
  | case3 first => exact congrArg (some <| List.take 1 ·) (octets_sextets first 0 0)
  | case4 => rfl

theorem toDigits_lt (bytes : List UInt8) : ∀ digit ∈ toDigits bytes, digit < 64 := by
  have small (first second third : UInt8) : ∀ digit ∈ sextets first second third, digit < 64 := by
    have := first.toNat_lt
    have := second.toNat_lt
    have := third.toNat_lt
    simp only [sextets, forall_mem_cons]
    exact ⟨by omega, by omega, by omega, by omega, nofun⟩
  fun_induction toDigits bytes with
  | case1 first second third rest ih => exact forall_mem_append.mpr ⟨small _ _ _, ih⟩
  | case4 => nofun
  | _ => exact fun digit member => small _ _ _ digit (mem_of_mem_take member)

variable (urlSafe : Bool)

/-- The capital letters, the small letters and the digits come first. -/
def alphabet : List Char :=
  (List.range' 65 26 ++ List.range' 97 26 ++ List.range' 48 10).map Char.ofNat ++
    if urlSafe then ['-', '_'] else ['+', '/']

def letter (digit : Nat) : Char := (alphabet urlSafe).getD digit '='

theorem idxOf_letter : ∀ digit < 64, letter urlSafe digit ∈ alphabet urlSafe ∧
    (alphabet urlSafe).idxOf (letter urlSafe digit) = digit := by
  cases urlSafe <;> decide +kernel

theorem plain_of_mem : ∀ letter ∈ alphabet urlSafe,
    letter ≠ '=' ∧ letter ∉ ['\r', '\n'] := by
  cases urlSafe <;> rw [← forall_iff_forall_mem] <;> decide +kernel

/-- A letter of both alphabets means the same in each. -/
theorem idxOf_alphabet (first second : Bool) : ∀ letter ∈ alphabet first,
    letter ∈ alphabet second → (alphabet first).idxOf letter = (alphabet second).idxOf letter := by
  cases first <;> cases second <;> rw [← forall_iff_forall_mem] <;> decide +kernel

structure Encoding where
  urlSafe : Bool
  padded : Bool

def stdEncoding : Encoding := ⟨false, true⟩

def rawStdEncoding : Encoding := ⟨false, false⟩

def urlEncoding : Encoding := ⟨true, true⟩

def rawURLEncoding : Encoding := ⟨true, false⟩

namespace Encoding

variable (encoding : Encoding)

/-- This many signs complete a group of four. -/
def padding (length : Nat) : Nat := if encoding.padded then (4 - length % 4) % 4 else 0

def encode (bytes : List UInt8) : String :=
  let body := (toDigits bytes).map (letter encoding.urlSafe)
  String.ofList (body ++ .replicate (encoding.padding body.length) '=')

/-- Line breaks are skipped, and the padding has its exact length. -/
def decode (text : String) : Option (List UInt8) :=
  let letters := text.toList.filter (· ∉ ['\r', '\n'])
  let body := letters.rdropWhile (· = '=')
  if letters.length = body.length + encoding.padding body.length ∧
      body.all (· ∈ alphabet encoding.urlSafe) then
    ofDigits (body.map (alphabet encoding.urlSafe).idxOf)
  else none

variable {encoding} {bytes : List UInt8}

theorem mem_encode {char : Char} (member : char ∈ (encoding.encode bytes).toList) :
    char ∈ '=' :: alphabet encoding.urlSafe := by
  rw [encode, String.toList_ofList, mem_append] at member
  obtain body | pad := member
  · obtain ⟨digit, digits, rfl⟩ := mem_map.mp body
    exact .tail _ (idxOf_letter _ digit (toDigits_lt bytes digit digits)).1
  · exact eq_of_mem_replicate pad ▸ .head _

variable (encoding bytes) in
theorem decode_encode : encoding.decode (encoding.encode bytes) = some bytes := by
  have digits := fun digit member =>
    idxOf_letter encoding.urlSafe digit (toDigits_lt bytes digit member)
  have letters : (encoding.encode bytes).toList.filter (· ∉ ['\r', '\n']) =
      (encoding.encode bytes).toList := by
    rw [filter_eq_self]
    intro char member
    obtain _ | ⟨_, member⟩ := mem_encode member
    · rfl
    · exact decide_eq_true (plain_of_mem _ char member).2
  have body : (encoding.encode bytes).toList.rdropWhile (· = '=') =
      (toDigits bytes).map (letter encoding.urlSafe) := by
    rw [encode, String.toList_ofList, rdropWhile_append, rdropWhile_eq_self]
    · rw [forall_mem_map]
      intro digit member
      exact decide_eq_false (plain_of_mem _ _ (digits digit member).1).1
    · intro char member
      exact decide_eq_true (eq_of_mem_replicate member)
  have values : ((toDigits bytes).map (letter encoding.urlSafe)).map
      (alphabet encoding.urlSafe).idxOf = toDigits bytes := by
    rw [map_map]
    exact (map_congr_left fun digit member => (digits digit member).2).trans (map_id _)
  simp only [decode, letters, body, values, ofDigits_toDigits]
  rw [if_pos]
  constructor
  · rw [encode, String.toList_ofList, length_append, length_replicate]
  · rw [all_eq_true, forall_mem_map]
    exact fun digit member => decide_eq_true (digits digit member).1

theorem decode_empty : encoding.decode "" = some [] := by
  obtain ⟨_, _ | _⟩ := encoding <;> rfl

/-- Two encodings that read a text read the same bytes. -/
theorem decode_unique {text : String} {other : Encoding} {others : List UInt8}
    (first : encoding.decode text = some bytes) (second : other.decode text = some others) :
    bytes = others := by
  rw [decode, Option.ite_none_right_eq_some, all_eq_true] at first second
  obtain ⟨⟨_, letters⟩, digits⟩ := first
  obtain ⟨⟨_, otherLetters⟩, otherDigits⟩ := second
  rw [map_congr_left fun char member =>
    idxOf_alphabet _ _ char (of_decide_eq_true (letters char member))
      (of_decide_eq_true (otherLetters char member))] at digits
  exact Option.some.inj (digits.symm.trans otherDigits)

end Encoding

end Base64

end Tempogate.Foundation
