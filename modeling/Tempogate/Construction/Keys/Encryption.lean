/-
This file defines how the key that encrypts the keypairs is read from its base64 text.
-/

import Tempogate.Foundation.Base64

namespace Tempogate.Keys

open Foundation.Base64

def kekBytes : Nat := 32

def encodings : List Encoding := [stdEncoding, rawStdEncoding, urlEncoding, rawURLEncoding]

/-- The first encoding that reads the text decides. -/
def decodeEncryptionKey (text : String) : Except String (List UInt8) :=
  match encodings.findSome? (·.decode text) with
  | none => .error "keys: encryption key is not valid base64"
  | some kek =>
    if kek.length ≠ kekBytes then
      .error ("keys: encryption key must decode to " ++ toString kekBytes ++ " bytes, got " ++
        toString kek.length)
    else .ok kek

end Tempogate.Keys
