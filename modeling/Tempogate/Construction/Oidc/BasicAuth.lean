/-
This file defines how client credentials are read from a Basic header.
-/

import Tempogate.Construction.Oidc.Token
import Tempogate.Foundation.Base64
import Tempogate.Foundation.Query

namespace Tempogate.Oidc

open Foundation Base64

/-- The name of the scheme is read in any case. -/
def hasBasicScheme (header : String) : Bool :=
  (header.toList.take 6).map Char.toLower = "basic ".toList

/-- A half that is not escaped counts as it stands. -/
def unescaped (half : List UInt8) : List UInt8 := (Query.unescape half).getD half

def parseBasicAuth (header : String) : Option (List UInt8 × List UInt8) :=
  if header.toList.length ≤ 6 ∨ ¬ hasBasicScheme header then none
  else match stdEncoding.decode (trimSpace (String.ofList (header.toList.drop 6))) with
    | none => none
    | some raw => (cutFirst 58 raw).map (Prod.map unescaped unescaped)

/-- The token endpoint reads a form and the Authorization header as text. -/
def tokenRequest (text : List UInt8 → String) (form : Form) (authHeader : String) :
    TokenRequest where
  form
  basic := (parseBasicAuth authHeader).map (Prod.map text text)

end Tempogate.Oidc
