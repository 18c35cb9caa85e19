/-
This file defines the address that a request is budgeted under.
-/

import Tempogate.Construction.Oidc.Types

namespace Tempogate.Ratelimit

inductive Addr
  | v4 (bits : BitVec 32)
  | v6 (bits : BitVec 128) (zone : String)
  deriving DecidableEq

/-- An IPv4-mapped IPv6 address is the IPv4 address in it. -/
def Addr.unmap : Addr → Addr
  | v4 bits => v4 bits
  | v6 bits zone => if bits >>> 32 = 0xffff#128 then v4 (bits.truncate 32) else v6 bits zone

/-- The port starts after the last colon, and an address with colons stands in brackets. -/
def splitHostPort (hostport : String) : Option (String × String) :=
  let text := hostport.toList
  let port := (text.reverse.takeWhile (· ≠ ':')).reverse
  let host := text.take (text.length - port.length - 1)
  if ':' ∉ text then none
  else if text.head? = some '[' then
    let inside := text.takeWhile (· ≠ ']')
    if ']' ∉ text ∨ inside.length + 1 ≠ host.length then none
    else if '[' ∈ text.tail ∨ ']' ∈ text.drop (inside.length + 1) then none
    else some (String.ofList (inside.drop 1), String.ofList port)
  else if ':' ∈ host then none
  else if '[' ∈ text ∨ ']' ∈ text then none
  else some (String.ofList host, String.ofList port)

/-- These are the standard library's address parsers and printers. What is printed is parsed back,
and a text that is an address has no port to split off. -/
structure Netip where
  parseAddr : String → Option Addr
  parseAddrPort : String → Option Addr
  addrString : Addr → String
  addrPortString : Addr → UInt16 → String
  parseAddr_addrString : ∀ addr, parseAddr (addrString addr) = some addr
  parseAddrPort_addrPortString : ∀ addr port, parseAddrPort (addrPortString addr port) = some addr
  parseAddr_addrPortString : ∀ addr port, parseAddr (addrPortString addr port) = none
  splitHostPort_eq_none : ∀ text addr, parseAddr text = some addr → splitHostPort text = none
  parseAddr_empty : parseAddr "" = none
  parseAddrPort_empty : parseAddrPort "" = none

/-- An IPv4 address is a key, and all IPv6 addresses of one /64 share a key. -/
def Netip.addrKey (netip : Netip) : Addr → String
  | .v4 bits => netip.addrString (.v4 bits)
  | .v6 bits _ => netip.addrString (.v6 ((bits >>> 64) <<< 64) "") ++ "/64"

def Netip.clientKey (netip : Netip) (remoteAddr : String) : String :=
  let host := match splitHostPort remoteAddr with
    | some (host, _) => host
    | none => remoteAddr
  match netip.parseAddr host with
  | none => host
  | some addr => netip.addrKey addr.unmap

end Tempogate.Ratelimit

namespace Tempogate.Oidc

open Ratelimit

inductive Prefix
  | v4 (bits : BitVec 32) (length : Fin 33)
  | v6 (bits : BitVec 128) (length : Fin 129)
  deriving DecidableEq

/-- A prefix holds the addresses of its family that share its first bits and have no zone. -/
def Prefix.contains : Prefix → Addr → Bool
  | v4 bits length, .v4 other => (bits ^^^ other) >>> (32 - length.val) = 0
  | v6 bits length, .v6 other zone =>
    zone = "" && (bits ^^^ other) >>> (128 - length.val) = 0
  | _, _ => false

structure RateLimiter where
  netip : Netip
  trustedProxies : List Prefix

namespace RateLimiter

def trusted (limiter : RateLimiter) (host : String) : Bool :=
  match limiter.netip.parseAddr host with
  | none => false
  | some addr => limiter.trustedProxies.any fun proxy => proxy.contains addr.unmap

/-- Some proxies write the address with a port. -/
def parseForwardedAddr (limiter : RateLimiter) (entry : String) : Option Addr :=
  let text := trimSpace entry
  match limiter.netip.parseAddr text with
  | some addr => some addr.unmap
  | none => (limiter.netip.parseAddrPort text).map Addr.unmap

def hops (forwardedFor : String) : List String :=
  (forwardedFor.toList.splitOn ',').map String.ofList

/-- The loop goes through the entries from the right. An entry that is no address ends it at the
last address a proxy vouched for, and an untrusted address ends it there. -/
def walk (limiter : RateLimiter) : List String → String → String
  | [], client => client
  | hop :: rest, client =>
    match limiter.parseForwardedAddr hop with
    | none => client
    | some addr =>
      let next := limiter.netip.addrString addr
      if !limiter.trusted next then next else limiter.walk rest next

def peer (remoteAddr : String) : String :=
  match Ratelimit.splitHostPort remoteAddr with
  | some (host, _) => host
  | none => remoteAddr

def clientKey (limiter : RateLimiter) (remoteAddr forwardedFor : String) : String :=
  if !limiter.trusted (peer remoteAddr) || forwardedFor = "" then
    limiter.netip.clientKey (peer remoteAddr)
  else
    limiter.netip.clientKey (limiter.walk (hops forwardedFor).reverse (peer remoteAddr))

end RateLimiter

end Tempogate.Oidc
