/-
This file proves that all base64 spellings of an encryption key are read as that key.
-/

import Tempogate.Construction.Keys.Encryption

namespace Tempogate.Keys

open Foundation.Base64

theorem mem_encodings (encoding : Encoding) : encoding ∈ encodings := by
  obtain ⟨_ | _, _ | _⟩ := encoding <;> simp [encodings, stdEncoding, rawStdEncoding,
    urlEncoding, rawURLEncoding]

/-- The order of the encodings has no influence. -/
theorem decodeEncryptionKey_eq_ok_iff {text : String} {key : List UInt8} :
    decodeEncryptionKey text = .ok key ↔
      key.length = kekBytes ∧ ∃ encoding : Encoding, encoding.decode text = some key := by
  unfold decodeEncryptionKey
  split
  next unread =>
    rw [List.findSome?_eq_none_iff] at unread
    simp [unread _ (mem_encodings _)]
  next kek read =>
    obtain ⟨first, _, decoded⟩ := List.exists_of_findSome?_eq_some read
    constructor
    · intro accepted
      split at accepted
      · cases accepted
      next length =>
        cases accepted
        exact ⟨not_not.mp length, first, decoded⟩
    · rintro ⟨length, encoding, other⟩
      obtain rfl := Encoding.decode_unique decoded other
      rw [if_neg (not_not.mpr length)]

/-- Each spelling of a key is read as that key. No encoding reads an accepted text as another. -/
theorem encryption_key_spellings_agree :
    (∀ (key : List UInt8) (encoding : Encoding), key.length = kekBytes →
      decodeEncryptionKey (encoding.encode key) = .ok key) ∧
    ∀ (text : String) (key : List UInt8), decodeEncryptionKey text = .ok key →
      key.length = kekBytes ∧ (∃ encoding ∈ encodings, encoding.decode text = some key) ∧
        ∀ encoding ∈ encodings, ∀ other, encoding.decode text = some other → other = key := by
  constructor
  · intro key encoding length
    exact decodeEncryptionKey_eq_ok_iff.mpr ⟨length, encoding, encoding.decode_encode key⟩
  · intro text key accepted
    obtain ⟨length, encoding, decoded⟩ := decodeEncryptionKey_eq_ok_iff.mp accepted
    refine ⟨length, ⟨encoding, mem_encodings encoding, decoded⟩, ?_⟩
    intro _ _ other read
    exact Encoding.decode_unique read decoded

end Tempogate.Keys
