/-
This file proves that Basic credentials are read back and go before those of the form.
-/

import Tempogate.Construction.Oidc.BasicAuth

namespace Tempogate.Oidc

open Foundation Base64

/-- The scheme may have any case, and blanks may stand around the text. -/
theorem parseBasicAuth_append {scheme before sent after : String} {raw : List UInt8}
    (named : scheme.toList.map Char.toLower = "basic".toList)
    (front : ∀ char ∈ before.toList, isSpace char) (back : ∀ char ∈ after.toList, isSpace char)
    (kept : ∀ char ∈ sent.toList, isSpace char = false)
    (decoded : stdEncoding.decode sent = some raw) (filled : raw ≠ []) :
    parseBasicAuth (scheme ++ " " ++ before ++ sent ++ after) =
      (cutFirst 58 raw).map (Prod.map unescaped unescaped) := by
  have length : (scheme.toList ++ [' ']).length = 6 := by
    simpa using congrArg List.length named
  have letters : (scheme ++ " " ++ before ++ sent ++ after).toList =
      (scheme.toList ++ [' ']) ++ (before.toList ++ (sent.toList ++ after.toList)) := by
    simp
  have trimmed : trimSpace (String.ofList (before.toList ++ (sent.toList ++ after.toList))) =
      sent := by
    rw [← String.toList_inj, toList_trimSpace, String.toList_ofList, trim_append front kept back]
  have some : 0 < sent.toList.length := by
    rw [List.length_pos_iff, ne_eq, String.toList_eq_nil_iff]
    rintro rfl
    rw [Encoding.decode_empty] at decoded
    exact filled (Option.some.inj decoded).symm
  rw [parseBasicAuth, hasBasicScheme, letters, List.take_left' length, List.drop_left' length,
    trimmed, decoded, if_neg]
  rintro (short | other)
  · rw [List.length_append, length, List.length_append, List.length_append] at short
    omega
  · rw [List.map_append, named] at other
    exact other (decide_eq_true rfl)

/-- Credentials that are sent as the standard asks are read back, and they go before the form. -/
theorem basic_credentials_round_trip : (∀ (id secret : List UInt8) (scheme before after : String),
      scheme.toList.map Char.toLower = "basic".toList →
      (∀ char ∈ before.toList ++ after.toList, isSpace char) →
        parseBasicAuth (scheme ++ " " ++ before ++
          stdEncoding.encode (Query.escape id ++ 58 :: Query.escape secret) ++ after) =
            some (id, secret)) ∧
    ∀ (header : String) (form : Form) (text : List UInt8 → String),
      (parseBasicAuth header = none → clientCredentials (tokenRequest text form header) =
        (form.get "client_id", form.get "client_secret")) ∧
      ∀ id secret, parseBasicAuth header = some (id, secret) →
        clientCredentials (tokenRequest text form header) = (text id, text secret) := by
  constructor
  · intro id secret scheme before after named blanks
    rw [List.forall_mem_append] at blanks
    have plain : ∀ char ∈ '=' :: alphabet false, isSpace char = false := by
      rw [← List.forall_iff_forall_mem]
      decide +kernel
    rw [parseBasicAuth_append named blanks.1 blanks.2
      (fun char member => plain char (Encoding.mem_encode member)) (Encoding.decode_encode _ _)
      (List.append_ne_nil_of_right_ne_nil _ (List.cons_ne_nil _ _)),
      cutFirst_eq_some_iff.mpr ⟨rfl, Query.colon_not_mem_escape id⟩]
    simp [unescaped, Query.unescape_escape]
  · intro header form text
    constructor
    · intro refused
      simp [clientCredentials, tokenRequest, refused]
    · intro id secret accepted
      simp [clientCredentials, tokenRequest, accepted]

end Tempogate.Oidc
