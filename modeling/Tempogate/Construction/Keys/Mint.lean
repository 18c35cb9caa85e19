/-
This file defines how processes mint access tokens while keypairs are generated, retired and
reloaded.
-/

import Tempogate.Construction.Admin.Keys
import Tempogate.Construction.Keys.Keys

namespace Tempogate.Keys

open Foundation Oidc

/-- The parser of private keys belongs to a library. -/
structure Signer where
  keys : Keys
  issuer : String
  audience : String
  parseKey : String → Except String Unit

/-- The active keypairs are published, and the retired ones until their grace has elapsed. -/
def published (grace moment : Time) (keypairs : List Keypair) : List Keypair :=
  keypairs.filter fun keypair =>
    !keypair.retired || keypair.retiredAt.any fun retiredAt => moment < retiredAt + grace

namespace Signer

variable (signer : Signer)

def token (request : MintRequest) (jti : String) (issuedAt : Time) (kid : String) : AccessToken :=
  mintedToken signer.issuer signer.audience request jti issuedAt kid

/-- The latest keypair signs when its private key can be parsed. -/
def sign : Operation (Except KeyError String) := do
  match ← signer.keys.latest with
  | .error error => return .error error
  | .ok keypair =>
  match signer.parseKey keypair.privatePEM with
  | .error cause =>
    return .error (.failure ("keys: parse private key (kid=" ++ keypair.kid ++ "): " ++ cause))
  | .ok () => return .ok keypair.kid

def mint (request : MintRequest) (jti : Except String String) :
    Operation (Except KeyError AccessToken) :=
  mintWith .failure signer.issuer signer.audience (return jti) now signer.sign request

/-- The verifier is configured like the signer. -/
def verifier (parser : Parser) : Verifier := ⟨parser, signer.issuer, signer.audience⟩

end Signer

/-- A token is signed by the keypair that its header names. -/
def signedBy (keypairs : List Keypair) (token : AccessToken) : Bool :=
  keypairs.any fun keypair => keypair.kid = token.kid

/-- The jti of a token comes from the random source. -/
inductive RotationTask
  | mint (request : MintRequest) (jti : Except String String)
  | operation (task : KeyTask)

/-- The outcome of a mint names its signer. -/
inductive RotationOutcome
  | minted (signer : Signer) (result : Except KeyError AccessToken)
  | operated (outcome : KeyOutcome)

def RotationTask.program (signer : Signer) : RotationTask → Operation RotationOutcome
  | .mint request jti => do return .minted signer (← signer.mint request jti)
  | .operation task => do return .operated (← task.program signer.keys)

abbrev Rotation : Type := Configuration keyCalls KeyState RotationOutcome

/-- Every task is about to begin in the process it belongs to. -/
def rotation (start : KeyState) (tasks : Nat → Signer × RotationTask) : Rotation :=
  .initial start fun process => (tasks process).2.program (tasks process).1

end Tempogate.Keys
