/-
This file defines how access tokens are minted, the denylist cache of the verifier and the verifier
itself.
-/

import Mathlib.Data.List.AList
import Tempogate.Construction.Oidc.Types
import Tempogate.Foundation.Program

namespace Tempogate.Keys

open Foundation Oidc

structure CacheEntry where
  revoked : Bool
  expires : Time
  deriving DecidableEq, Repr

/-- A cache without a checker treats every jti as not revoked. -/
structure DenylistSettings where
  checker : Bool
  ttl : Time
  maxEntries : Nat

structure DenylistCache where
  entries : AList fun _ : String => CacheEntry
  nextSweep : Time

namespace DenylistCache

def empty : DenylistCache := ⟨∅, 0⟩

variable (cache : DenylistCache)

/-- A fresh entry answers without the store. -/
def probe (jti : String) (now : Time) : Option Bool :=
  match cache.entries.lookup jti with
  | some entry => if now < entry.expires then some entry.revoked else none
  | none => none

/-- This function drops the expired entries. -/
def fresh (now : Time) (entries : AList fun _ : String => CacheEntry) :
    AList fun _ : String => CacheEntry where
  entries := entries.entries.filter fun entry => now < entry.2.expires
  nodupKeys := List.NodupKeys.sublist List.filter_sublist entries.nodupKeys

/-- The sweep runs at most once in each lifetime of an entry. -/
def sweep (now ttl : Time) : DenylistCache :=
  if ¬ now < cache.nextSweep then ⟨fresh now cache.entries, now + ttl⟩ else cache

/-- The loop visits the entries in the order of one map iteration.
It takes the first active entry, else the first entry with a name. -/
def victim : List ((_ : String) × CacheEntry) → String → String
  | [], candidate => candidate
  | entry :: rest, candidate =>
    if !entry.2.revoked then entry.1
    else victim rest (if candidate = "" then entry.1 else candidate)

def evictOne : DenylistCache :=
  { cache with entries := cache.entries.erase (victim cache.entries.entries "") }

/-- One answer is memoized under the lock of the cache. -/
def store (settings : DenylistSettings) (jti : String) (revoked : Bool)
    (now : Time) : DenylistCache :=
  let swept := cache.sweep now settings.ttl
  let room :=
    if jti ∉ swept.entries ∧ swept.entries.entries.length ≥ settings.maxEntries then swept.evictOne
    else swept
  { room with entries := room.entries.insert jti ⟨revoked, now + settings.ttl⟩ }

end DenylistCache

/-- The serialized token stands for its header and its claims. -/
structure AccessToken where
  kid : String
  typ : String
  subject : String
  permissions : List String
  issuer : Option String
  audience : Option String
  jti : String
  issuedAt : Time
  notBefore : Time
  expiration : Option Time
  deriving DecidableEq, Repr

inductive VerifyError
  | noVerificationKeys
  | verifyToken
  | notAccessToken
  | checkDenylist (cause : String)
  | tokenRevoked
  deriving DecidableEq, Repr

def accessTokenType : String := "at+jwt"

/-- A numeric date has whole seconds. -/
def numericDate (moment : Time) : Time := moment / second * second

/-- An empty setting leaves its claim out. -/
def claimOf (value : String) : Option String := if value = "" then none else some value

def mintedToken (issuer audience : String) (request : MintRequest) (jti : String)
    (issuedAt : Time) (kid : String) : AccessToken where
  kid := kid
  typ := accessTokenType
  subject := request.subject
  permissions := request.permissions
  issuer := claimOf issuer
  audience := claimOf audience
  jti := jti
  issuedAt := numericDate issuedAt
  notBefore := numericDate issuedAt
  expiration := if request.ttl > 0 then some (numericDate (issuedAt + request.ttl)) else none

/-- The claims are stamped before the keypair that signs them is chosen. -/
def mintWith {calls : Signature} {Failure : Type} (failure : String → Failure)
    (issuer audience : String) (newJTI : Program calls (Except String String))
    (now : Program calls Time) (sign : Program calls (Except Failure String))
    (request : MintRequest) : Program calls (Except Failure AccessToken) := do
  match ← newJTI with
  | .error cause => return .error (failure ("keys: generate jti: " ++ cause))
  | .ok jti =>
  let issuedAt ← now
  match ← sign with
  | .error error => return .error error
  | .ok kid => return .ok (mintedToken issuer audience request jti issuedAt kid)

/-- A token is expired from its expiration on. -/
def AccessToken.expired (token : AccessToken) (now : Time) : Bool :=
  token.expiration.any (· ≤ now)

/-- The time claims hold at the moment. -/
def AccessToken.current (token : AccessToken) (now : Time) : Bool :=
  (match token.expiration with
    | some expiration => now < expiration
    | none => true) &&
  token.notBefore ≤ now && token.issuedAt ≤ now

/-- The parser of the jwx library is given the published keys, the clock, and the issuer and the
audience where they are configured. It refuses a token that is expired, and it takes a signed one
whose claims hold. -/
structure Parser where
  parse : (issuer audience : String) → (signed : AccessToken → Bool) → Time → AccessToken → Bool
  refuses_expired : ∀ {issuer audience signed now token}, token.expired now →
    parse issuer audience signed now token = false
  takes_valid : ∀ {issuer audience signed now token}, signed token → token.current now →
    issuer = "" ∨ token.issuer = some issuer → audience = "" ∨ token.audience = some audience →
      parse issuer audience signed now token = true

/-- This parser takes nothing else. -/
def Parser.strict : Parser where
  parse issuer audience signed now token := signed token && token.current now &&
    (issuer = "" || token.issuer = some issuer) && (audience = "" || token.audience = some audience)
  refuses_expired {_ _ _ now token} expired := by
    unfold AccessToken.current
    cases carried : token.expiration with
    | none => simp [AccessToken.expired, carried] at expired
    | some expiration =>
      have passed : expiration ≤ now := by simpa [AccessToken.expired, carried] using expired
      simp [passed]
  takes_valid signed current issued addressed := by
    simp [signed, current, issued, addressed]

/-- The verifier enforces the issuer and the audience when they are configured. -/
structure Verifier where
  parser : Parser
  issuer : String
  audience : String

def Verifier.parse (verifier : Verifier) : (AccessToken → Bool) → Time → AccessToken → Bool :=
  verifier.parser.parse verifier.issuer verifier.audience

/-- The set of published keys may be empty. The denylist is asked about every named jti. -/
def Verifier.verify (verifier : Verifier) (published : Bool) (signed : AccessToken → Bool)
    (now : Time) (isRevoked : String → Except String Bool) (token : AccessToken) :
    Except VerifyError AccessToken :=
  if !published then .error .noVerificationKeys
  else if !verifier.parse signed now token then .error .verifyToken
  else if token.typ ≠ accessTokenType then .error .notAccessToken
  else if token.jti = "" then .ok token
  else match isRevoked token.jti with
    | .error cause => .error (.checkDenylist cause)
    | .ok true => .error .tokenRevoked
    | .ok false => .ok token

end Tempogate.Keys
