/-
This file proves that the values under the session signing key are read back and kept apart.
-/

import Tempogate.Construction.Oidc.DeviceUI
import Tempogate.Foundation.Base64
import Tempogate.Foundation.Query

namespace Tempogate.Oidc

open Foundation Base64 Program SessionManager

theorem bytes_inj {first second : String} (same : bytes first = bytes second) : first = second := by
  refine String.toByteArray_inj.mp (ByteArray.ext ?_)
  exact Array.toList_inj.mp same

theorem bytes_eq_flatMap (value : String) :
    bytes value = value.toList.flatMap String.utf8EncodeChar := by
  obtain ⟨chars, rfl⟩ : ∃ chars, value = String.ofList chars := ⟨value.toList, by simp⟩
  simp [bytes, List.utf8Encode]

/-- A connector id holds no zero byte. -/
theorem zero_not_mem_bytes {id : String} (valid : validateConnectorID id = .ok ()) :
    0 ∉ bytes id := by
  rw [bytes_eq_flatMap, List.mem_flatMap]
  rintro ⟨char, member, zero⟩
  have matched : matchConnectorID id := by
    by_contra unmatched
    rw [validateConnectorID, if_pos unmatched] at valid
    cases valid
  simp only [matchConnectorID, Bool.and_eq_true, List.all_eq_true] at matched
  have range : 48 ≤ char.val.toNat ∧ char.val.toNat ≤ 122 := by
    have letter := matched.2 char member
    simp only [decide_eq_true_eq, Bool.or_eq_true, Char.le_def, UInt32.le_iff_toNat_le] at letter
    change (97 ≤ _ ∧ _ ≤ 122) ∨ (48 ≤ _ ∧ _ ≤ 57) at letter
    omega
  have small : char.utf8Size = 1 := by
    rw [Char.utf8Size_eq_one_iff, UInt32.le_iff_toNat_le]
    exact range.2.trans (by decide)
  rw [String.utf8EncodeChar_eq_singleton small, List.mem_singleton, ← UInt8.toNat_inj,
    UInt32.toNat_toUInt8] at zero
  change 0 = _ % 256 at zero
  omega

/-- These are the purposes of the key. -/
inductive Purpose
  | sessionCookie
  | bounceState
  | verifier
  | nonce
  | requestID
  | binding
  deriving DecidableEq

def Purpose.label : Purpose → String
  | sessionCookie => macLabelSessionCookie
  | bounceState => macLabelDeviceBounceState
  | verifier => labelUpstreamVerifier
  | nonce => labelUpstreamNonce
  | requestID => labelUpstreamRequestID
  | binding => labelUpstreamBinding

/-- Only an upstream value has a connector. -/
def Purpose.Allows : Purpose → String → Prop
  | sessionCookie, connectorID | bounceState, connectorID => connectorID = ""
  | _, connectorID => validateConnectorID connectorID = .ok ()

/-- This is an input of the keyed hash. -/
structure Keyed where
  purpose : Purpose
  connectorID : String
  message : List UInt8
  allowed : purpose.Allows connectorID

namespace Keyed

variable (keyed : Keyed)

def input : List UInt8 :=
  bytes keyed.purpose.label ++ bytes keyed.connectorID ++ 0 :: keyed.message

theorem zero_not_mem_connectorID : 0 ∉ bytes keyed.connectorID := by
  obtain ⟨purpose, connectorID, message, allowed⟩ := keyed
  cases purpose with
  | sessionCookie | bounceState =>
    obtain rfl : connectorID = "" := allowed
    exact List.not_mem_nil
  | _ => exact zero_not_mem_bytes allowed

/-- The label is what stands before the first zero byte. -/
theorem takeWhile_input : keyed.input.takeWhile (· ≠ 0) =
    (bytes keyed.purpose.label).takeWhile (· ≠ 0) := by
  obtain ⟨purpose, connectorID, message, allowed⟩ := keyed
  cases purpose with
  | sessionCookie | bounceState =>
    obtain rfl : connectorID = "" := allowed
    rfl
  | _ => rfl

theorem input_injective : Function.Injective input := by
  intro first second same
  have purposes : first.purpose = second.purpose := by
    have labels := first.takeWhile_input.symm.trans (same ▸ second.takeWhile_input)
    generalize first.purpose = purpose, second.purpose = other at labels
    cases purpose <;> cases other <;> first | rfl | exact absurd labels (by decide)
  rw [input, input, purposes, List.append_assoc, List.append_assoc] at same
  have cut := cutFirst_eq_some_iff.mpr
    ⟨List.append_cancel_left same, second.zero_not_mem_connectorID⟩
  rw [cutFirst_eq_some_iff.mpr ⟨rfl, first.zero_not_mem_connectorID⟩] at cut
  obtain ⟨connectors, messages⟩ := Prod.mk.inj (Option.some.inj cut)
  obtain ⟨purpose, connectorID, message, _⟩ := first
  obtain rfl := purposes
  obtain rfl := bytes_inj connectors
  obtain rfl := messages
  rfl

end Keyed

/-- The halves of the text decode to a payload and to its code under the label. -/
def Seals (crypto : Crypto) (codec : Codec) (key : List UInt8) (label text : String)
    (payload : List UInt8) : Prop :=
  ∃ first second, splitSeal text = some (first, second) ∧ codec.rawURLDecode first = some payload ∧
      codec.rawURLDecode second = some (labeledMAC crypto key label payload)

/-- An opened text carries the code of its payload. -/
theorem openSeal_ok {crypto : Crypto} {codec : Codec} {key raw : List UInt8}
    {label signed : String} (opened : openSeal crypto codec key label signed = .ok raw) :
    Seals crypto codec key label signed raw := by
  unfold openSeal at opened
  split at opened
  · cases opened
  next payload code split =>
    refine ⟨payload, code, split, ?_⟩
    split at opened
    · cases opened
    · split at opened
      next decoded mac raws macs =>
        split at opened
        next same =>
          cases opened
          exact ⟨raws, same ▸ macs⟩
        · cases opened
      · cases opened

theorem rawURLEncode_injective : Function.Injective rawURLEncoding.encode :=
  fun first second same => Option.some.inj ((Encoding.decode_encode _ first).symm.trans
    (same ▸ Encoding.decode_encode _ second))

/-- The inputs of the keyed hash differ whenever the purpose, the connector or the message does, and
every value under the key is the code of its input. Without collisions no text passes for a session
cookie and for a bounce state, and the cookie of a browser binds one connector and one state. -/
theorem signing_key_purposes_are_separate : Function.Injective Keyed.input ∧
    (∀ (crypto : Crypto) (key message : List UInt8),
      labeledMAC crypto key macLabelSessionCookie message =
        crypto.hmac key (Keyed.mk .sessionCookie "" message rfl).input ∧
      labeledMAC crypto key macLabelDeviceBounceState message =
        crypto.hmac key (Keyed.mk .bounceState "" message rfl).input) ∧
    (∀ (binding : UpstreamBinding) (connectorID : String) (internalState : List UInt8)
      (valid : validateConnectorID connectorID = .ok ()),
      let code purpose (allowed : purpose.Allows connectorID) :=
        binding.crypto.hmac binding.key (Keyed.mk purpose connectorID internalState allowed).input
      binding.codeVerifier connectorID internalState =
          binding.crypto.rawURLEncode (code .verifier valid) ∧
        binding.nonce connectorID internalState = binding.crypto.rawURLEncode (code .nonce valid) ∧
        binding.requestID connectorID internalState =
          "_" ++ binding.crypto.hexEncode (code .requestID valid) ∧
        (binding.cookie connectorID internalState).value =
          binding.crypto.rawURLEncode (code .binding valid)) ∧
    (∀ (manager : SessionManager) (ui : DeviceUI) (value : String),
      ui.crypto = manager.crypto → ui.codec = manager.codec →
      ui.signingKey = manager.signingKey →
      Function.Injective (manager.crypto.hmac manager.signingKey) →
        manager.verifyCookie value = none ∨
          ∃ cause, ui.verifyBounceState value = .done (.error cause)) ∧
    ∀ (binding : UpstreamBinding) (header connectorID other : String)
      (internalState otherState : List UInt8),
      validateConnectorID connectorID = .ok () → validateConnectorID other = .ok () →
      Function.Injective (binding.crypto.hmac binding.key) →
      binding.crypto.rawURLEncode = rawURLEncoding.encode →
      binding.codec.cookie header (binding.cookieName internalState) =
        some (binding.cookie other otherState).value →
        (binding.boundToBrowser header connectorID internalState ↔
          connectorID = other ∧ internalState = otherState) := by
  refine ⟨Keyed.input_injective, fun _ _ _ => ⟨rfl, rfl⟩, fun _ _ _ _ => ⟨rfl, rfl, rfl, rfl⟩,
    ?_, ?_⟩
  · intro manager ui value crypto codec key injective
    rw [verifyCookie, DeviceUI.verifyBounceState, crypto, codec, key]
    cases cookie : openSeal manager.crypto manager.codec manager.signingKey macLabelSessionCookie
      value with
    | error cause => exact .inl rfl
    | ok raw =>
      cases bounce : openSeal manager.crypto manager.codec manager.signingKey
        macLabelDeviceBounceState value with
      | error cause => exact .inr ⟨cause, rfl⟩
      | ok other =>
        obtain ⟨payload, code, halves, decoded, mac⟩ := openSeal_ok cookie
        obtain ⟨_, _, halvesOther, decodedOther, macOther⟩ := openSeal_ok bounce
        cases halves.symm.trans halvesOther
        cases decoded.symm.trans decodedOther
        have inputs := injective (Option.some.inj (mac.symm.trans macOther))
        have same : Keyed.mk .sessionCookie "" raw rfl = .mk .bounceState "" raw rfl :=
          Keyed.input_injective inputs
        cases same
  · intro binding header connectorID other internalState otherState valid validOther hmac encode
      found
    rw [UpstreamBinding.boundToBrowser, found]
    constructor
    · intro accepted
      have inputs := hmac ((encode ▸ rawURLEncode_injective) (of_decide_eq_true accepted))
      have same : Keyed.mk .binding other otherState validOther =
          .mk .binding connectorID internalState valid := Keyed.input_injective inputs
      cases same
      exact ⟨rfl, rfl⟩
    · rintro ⟨rfl, rfl⟩
      exact decide_eq_true rfl

def ofASCII (raw : List UInt8) : String :=
  String.ofList (raw.map fun byte => Char.ofNat byte.toNat)

/-- The fields of a text stand between these signs and are cut at the other. -/
def fields (separator sign : Char) (text : String) : List (String × String) :=
  (text.toList.splitOn separator).filterMap fun field => (cutFirst sign field).map fun parts =>
    (trimSpace (String.ofList parts.1), trimSpace (String.ofList parts.2))

/-- This library reads the ASCII texts that it writes as the standard library does. -/
def sampleCodec : Codec where
  cookie header name := (fields ';' '=' header).lookup name
  parseQuery text := (fields '&' '=' text).mapM fun field => do
    return (ofASCII (← Query.unescape (bytes field.1)), ofASCII (← Query.unescape (bytes field.2)))
  queryEscape text := ofASCII (Query.escape (bytes text))
  equalFold first second := first.toList.map Char.toLower = second.toList.map Char.toLower
  encodeQuery form := "&".intercalate (form.map fun field =>
    ofASCII (Query.escape (bytes field.1)) ++ "=" ++ ofASCII (Query.escape (bytes field.2)))
  rawURLDecode := rawURLEncoding.decode
  ofBytes := ofASCII
  marshal state := bytes ("\x7b\"user_code\":\"" ++ state.userCode ++ "\",\"nonce\":\"" ++
    state.nonce ++ "\",\"exp\":" ++ toString state.exp ++ "\x7d")
  unmarshal raw :=
    match (raw.splitOn 34).map ofASCII with
    | [_, _, _, userCode, _, _, _, nonce, _, _, exp] =>
      some ⟨userCode, nonce, ((exp.toList.filter Char.isDigit).foldl
        (fun value digit => 10 * value + (digit.toNat - 48)) 0 : Nat)⟩
    | _ => none

/-- The keyed hash of the sample has no collisions. -/
def sampleCrypto : Crypto where
  sum256 := id
  hexEncode raw := String.ofList
    (raw.flatMap fun byte => [Nat.digitChar (byte.toNat / 16), Nat.digitChar (byte.toNat % 16)])
  rawURLEncode := rawURLEncoding.encode
  hmac key message := 0 :: (key ++ message)

def sampleUI : DeviceUI where
  crypto := sampleCrypto
  library := ⟨fun _ => none, id⟩
  codec := sampleCodec
  sessions := ⟨sampleCrypto, sampleCodec, [7], "sid"⟩
  signingKey := [7]
  issuer := "https://idp"
  issuerURL := ⟨"https", "", "idp", "idp", false, "", "", false, "https://idp"⟩
  issuerPath := ""
  internalClientID := "tempogate-device-ui"

def sampleBinding : UpstreamBinding := ⟨sampleCrypto, sampleCodec, [7], false, "", "up_"⟩

def sampleBound : String :=
  sampleBinding.cookieName [1, 2] ++ "=" ++ (sampleBinding.cookie "google" [1, 2]).value

/-- A session cookie is no bounce state, and a browser is bound to one connector. -/
theorem signing_key_purposes_are_separate_sample :
    (∃ cause, sampleUI.verifyBounceState (sampleUI.sessions.signCookie "s") =
      .done (.error cause)) ∧
    sampleBinding.boundToBrowser sampleBound "google" [1, 2] = true ∧
    sampleBinding.boundToBrowser sampleBound "github" [1, 2] ≠ true := by
  obtain ⟨-, -, -, apart, bound⟩ := signing_key_purposes_are_separate
  have hmac : Function.Injective (sampleCrypto.hmac [7]) := fun first second same =>
    List.append_cancel_left (List.cons.inj same).2
  have found : sampleCodec.cookie sampleBound (sampleBinding.cookieName [1, 2]) =
      some (sampleBinding.cookie "google" [1, 2]).value := by decide +kernel
  refine ⟨(apart sampleUI.sessions sampleUI _ rfl rfl rfl hmac).resolve_left (by decide +kernel),
    (bound sampleBinding sampleBound _ _ _ _ rfl rfl hmac rfl found).mpr ⟨rfl, rfl⟩,
    fun other => ?_⟩
  have same := (bound sampleBinding sampleBound _ _ _ _ rfl rfl hmac rfl found).mp other
  exact absurd same.1 (by decide)

section Signed

theorem splitSeal_append {payload code : String} (dotless : '.' ∉ payload.toList) :
    splitSeal (payload ++ "." ++ code) = some (payload, code) := by
  have before : ∀ char ∈ payload.toList, decide (char ≠ '.') = true := fun char member =>
    decide_eq_true fun dot => dotless (dot ▸ member)
  have letters : (payload ++ "." ++ code).toList = payload.toList ++ '.' :: code.toList := by simp
  rw [splitSeal, letters, List.takeWhile_append_of_pos before, List.dropWhile_append_of_pos before]
  simp

/-- The halves are written in base64, and the keyed hash is never empty. -/
structure Standard (crypto : Crypto) (codec : Codec) : Prop where
  encode : crypto.rawURLEncode = rawURLEncoding.encode
  decode : codec.rawURLDecode = rawURLEncoding.decode
  hmac : ∀ key message, crypto.hmac key message ≠ []

variable {crypto : Crypto} {codec : Codec} {key payload : List UInt8} {label : String}

theorem openSeal_sealText (standard : Standard crypto codec) (filled : payload ≠ []) :
    openSeal crypto codec key label (sealText crypto key label payload) = .ok payload := by
  have letters : '.' ∉ '=' :: alphabet true := by decide
  have some {bytes : List UInt8} (filled : bytes ≠ []) : rawURLEncoding.encode bytes ≠ "" := by
    intro blank
    have decoded := rawURLEncoding.decode_encode bytes
    rw [blank, Encoding.decode_empty] at decoded
    exact filled (Option.some.inj decoded).symm
  rw [openSeal, sealText, standard.encode,
    splitSeal_append fun dot => letters (Encoding.mem_encode dot)]
  simp only [standard.decode, Encoding.decode_encode, if_true]
  rw [if_neg]
  rintro (blank | blank)
  · exact some filled blank
  · exact some (standard.hmac _ _) blank

/-- The text carries the payload, and the payload was signed under the label if no text that can be
presented carries a payload that was not signed. -/
def Genuine (crypto : Crypto) (codec : Codec) (key : List UInt8) (label text : String)
    (payload : List UInt8) : Prop :=
  Seals crypto codec key label text payload ∧
    ∀ (presented : String → Prop) (signed : String → List UInt8 → Prop),
      (∀ other label payload, presented other → Seals crypto codec key label other payload →
        signed label payload) → presented text → signed label payload

theorem genuine_of_opened {text : String}
    (opened : openSeal crypto codec key label text = .ok payload) :
    Genuine crypto codec key label text payload :=
  ⟨openSeal_ok opened, fun _ _ unforged held => unforged _ _ _ held (openSeal_ok opened)⟩

/-- What was signed is read back, a bounce state until its last second, and whatever is accepted was
signed for the same purpose. -/
theorem signed_texts_round_trip :
    (∀ (manager : SessionManager) sid, Standard manager.crypto manager.codec → sid ≠ "" →
      manager.codec.ofBytes (bytes sid) = sid →
        manager.verifyCookie (manager.signCookie sid) = some sid) ∧
    (∀ (ui : DeviceUI) code, Standard ui.crypto ui.codec → code ≠ "" →
      canonicalUserCode code = code → ∃ signed : String → Time → String,
      (ui.signBounceState code = do
        match ← reach .newStateNonce with
        | .error cause => return .error cause
        | .ok nonce =>
        let moment : Time ← desk .now
        return .ok (signed nonce moment)) ∧
      ∀ nonce signedAt, let state : BounceState := ⟨code, nonce, unix (signedAt + deviceStateTTL)⟩
        ui.codec.unmarshal (ui.codec.marshal state) = some state → ui.codec.marshal state ≠ [] →
          ui.verifyBounceState (signed nonce signedAt) = do
            let moment : Time ← desk .now
            return if unix moment ≤ state.exp then .ok code else .error "state expired") ∧
    (∀ (manager : SessionManager) value sid, manager.verifyCookie value = some sid → ∃ payload,
      Genuine manager.crypto manager.codec manager.signingKey macLabelSessionCookie value payload ∧
        sid = manager.codec.ofBytes payload) ∧
    ∀ (ui : DeviceUI) {Store : Type} (respond : Responder deviceUICalls Store)
      value start code after,
      (ui.verifyBounceState value).evaluate respond start = (.ok code, after) →
        ∃ payload state, ui.codec.unmarshal payload = some state ∧
          Genuine ui.crypto ui.codec ui.signingKey macLabelDeviceBounceState value payload ∧
            code = canonicalUserCode state.userCode := by
  refine ⟨?_, ?_, ?_, ?_⟩
  · intro manager sid standard named text
    have filled : bytes sid ≠ [] := fun blank => named (bytes_inj blank)
    rw [verifyCookie, signCookie, openSeal_sealText standard filled]
    exact congrArg some text
  · intro ui code standard named canonical
    refine ⟨_, rfl, ?_⟩
    intro nonce signedAt state parsed filled
    rw [DeviceUI.verifyBounceState, openSeal_sealText standard filled]
    simp only [parsed]
    refine congrArg (Program.perform _) (funext fun moment : Time => ?_)
    change (if unix moment > state.exp then Program.done _ else
      if canonicalUserCode code = "" then .done _ else .done _) =
        Program.done (if unix moment ≤ state.exp then _ else _)
    rw [canonical, if_neg named]
    by_cases early : unix moment ≤ state.exp
    · rw [if_neg (not_lt.mpr early), if_pos early]
    · rw [if_pos (not_le.mp early), if_neg early]
  · intro manager value sid accepted
    rw [verifyCookie] at accepted
    split at accepted
    · cases accepted
    next payload opened =>
      cases accepted
      exact ⟨payload, genuine_of_opened opened, rfl⟩
  · intro ui Store respond value start code after accepted
    rw [DeviceUI.verifyBounceState] at accepted
    split at accepted
    · cases accepted
    next payload opened =>
      split at accepted
      · cases accepted
      next state parsed =>
        refine ⟨payload, state, parsed, genuine_of_opened opened, ?_⟩
        have read := (evaluate_call (rfl : respond (.inl .now) start = _)).symm.trans accepted
        split at read
        · cases read
        · split at read
          · cases read
          · cases read
            rfl

/-- One session and one user code are signed and read back. -/
theorem signed_texts_round_trip_sample :
    sampleUI.sessions.verifyCookie (sampleUI.sessions.signCookie "s") = some "s" ∧
    ∃ signed : String → Time → String, sampleUI.verifyBounceState (signed "nonce" 0) = do
      let moment : Time ← desk .now
      return if unix moment ≤ unix deviceStateTTL then .ok "ABCD" else .error "state expired" := by
  obtain ⟨cookies, states, -⟩ := signed_texts_round_trip
  have standard : Standard sampleCrypto sampleCodec := ⟨rfl, rfl, nofun⟩
  obtain ⟨signed, -, reads⟩ := states sampleUI "ABCD" standard (by decide) (by decide)
  exact ⟨cookies sampleUI.sessions "s" standard (by decide) (by decide), signed,
    reads "nonce" 0 (by decide +kernel) (by decide +kernel)⟩

end Signed

end Tempogate.Oidc
