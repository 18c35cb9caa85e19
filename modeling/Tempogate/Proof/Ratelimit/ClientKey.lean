/-
This file shows that a client cannot choose the key that its requests are budgeted under.
-/

import Tempogate.Construction.Ratelimit.ClientKey

namespace Tempogate.Ratelimit

open List

theorem Addr.unmap_unmap (addr : Addr) : addr.unmap.unmap = addr.unmap := by
  cases addr with
  | v4 bits => rfl
  | v6 bits zone =>
    by_cases mapped : bits >>> 32 = 0xffff#128
    · simp only [unmap, if_pos mapped]
    · simp only [unmap, if_neg mapped]

/-- The key of a printed address is told by the address. -/
theorem Netip.clientKey_addrString (netip : Netip) (addr : Addr) :
    netip.clientKey (netip.addrString addr) = netip.addrKey addr.unmap := by
  have parsed := netip.parseAddr_addrString addr
  simp only [clientKey, netip.splitHostPort_eq_none _ _ parsed, parsed]

end Tempogate.Ratelimit

namespace Tempogate.Oidc

open Ratelimit List

namespace RateLimiter

variable {limiter : RateLimiter}

/-- The entry ends the walk from the right. -/
def Decides (limiter : RateLimiter) (entry : String) : Prop :=
  ∀ addr, limiter.parseForwardedAddr entry = some addr →
    limiter.trusted (limiter.netip.addrString addr) = false

/-- The walk does not look past an entry that ends it. -/
theorem walk_append {common rest : List String} (decides : ∃ entry ∈ common, limiter.Decides entry)
    (client : String) : limiter.walk (common ++ rest) client = limiter.walk common client := by
  induction common generalizing client with
  | nil =>
    obtain ⟨entry, member, -⟩ := decides
    exact absurd member not_mem_nil
  | cons hop later ih =>
    rw [cons_append, walk, walk]
    cases parsed : limiter.parseForwardedAddr hop with
    | none => rfl
    | some addr =>
      dsimp only
      split
      · rfl
      next vouched =>
        refine ih ?_ _
        obtain ⟨entry, member, ends⟩ := decides
        rcases mem_cons.mp member with rfl | after
        · rw [ends addr parsed] at vouched
          exact absurd rfl vouched
        · exact ⟨entry, after, ends⟩

theorem parseForwardedAddr_empty : limiter.parseForwardedAddr "" = none := by
  have trimmed : trimSpace "" = "" := by decide
  simp [parseForwardedAddr, trimmed, limiter.netip.parseAddr_empty,
    limiter.netip.parseAddrPort_empty]

/-- Behind a trusted peer the key is that of the address where the walk ends. -/
theorem clientKey_trusted {remoteAddr : String}
    (trusted : limiter.trusted (peer remoteAddr) = true) (forwardedFor : String) :
    limiter.clientKey remoteAddr forwardedFor = limiter.netip.clientKey
      (limiter.walk (hops forwardedFor).reverse (peer remoteAddr)) := by
  by_cases empty : forwardedFor = ""
  · subst empty
    have single : hops "" = [""] := by decide
    simp [clientKey, single, walk, parseForwardedAddr_empty]
  · simp [clientKey, trusted, empty]

/-- The lists agree from the right up to an entry that ends the walk, or altogether. -/
inductive Agree (limiter : RateLimiter) (first second : List String) : Prop
  | equal (equal : first = second)
  | suffix {before other common : List String} (isFirst : first = before ++ common)
      (isSecond : second = other ++ common) (decides : ∃ entry ∈ common, limiter.Decides entry)

theorem Agree.walk {first second : List String} (agree : limiter.Agree first second)
    (client : String) : limiter.walk first.reverse client = limiter.walk second.reverse client := by
  cases agree with
  | equal equal => rw [equal]
  | @suffix before other common isFirst isSecond decides =>
    obtain ⟨entry, member, ends⟩ := decides
    have reversed : ∃ entry ∈ common.reverse, limiter.Decides entry :=
      ⟨entry, mem_reverse.mpr member, ends⟩
    rw [isFirst, isSecond, reverse_append, reverse_append, walk_append reversed,
      walk_append reversed]

/-- The entry spells the address, bare or with a port, mapped or not, and with any blanks. -/
def Spells (limiter : RateLimiter) (addr : Addr) (entry : String) : Prop :=
  ∃ raw : Addr, raw.unmap = addr ∧ (trimSpace entry = limiter.netip.addrString raw ∨
    ∃ port, trimSpace entry = limiter.netip.addrPortString raw port)

variable {addr : Addr} {entry : String}

theorem Spells.parse (spells : limiter.Spells addr entry) :
    limiter.parseForwardedAddr entry = some addr := by
  obtain ⟨raw, rfl, bare | ⟨port, withPort⟩⟩ := spells
  · simp [parseForwardedAddr, bare, limiter.netip.parseAddr_addrString]
  · simp [parseForwardedAddr, withPort, limiter.netip.parseAddr_addrPortString,
      limiter.netip.parseAddrPort_addrPortString]

theorem parseForwardedAddr_unmap (parsed : limiter.parseForwardedAddr entry = some addr) :
    addr.unmap = addr := by
  unfold parseForwardedAddr at parsed
  dsimp only at parsed
  split at parsed
  · cases parsed
    exact Addr.unmap_unmap _
  · obtain ⟨raw, -, rfl⟩ := Option.map_eq_some_iff.mp parsed
    exact Addr.unmap_unmap _

/-- The walk ends at an untrusted address, unless an entry to its right ends it before. -/
theorem walk_untrusted (parsed : limiter.parseForwardedAddr entry = some addr)
    (untrusted : limiter.trusted (limiter.netip.addrString addr) = false) {right : List String}
    (passes : ¬∃ passed ∈ right, limiter.Decides passed) (rest : List String) (client : String) :
    limiter.walk (right ++ entry :: rest) client = limiter.netip.addrString addr := by
  induction right generalizing client with
  | nil => simp [walk, parsed, untrusted]
  | cons hop later ih =>
    have goesOn : ¬limiter.Decides hop := fun ends => passes ⟨hop, .head _, ends⟩
    simp only [Decides, not_forall] at goesOn
    obtain ⟨vouched, readable, trusted⟩ := goesOn
    simp only [cons_append, walk, readable, trusted, Bool.not_true, Bool.false_eq_true,
      if_false]
    exact ih (fun ⟨passed, member, ends⟩ => passes ⟨passed, .tail _ member, ends⟩) _

/-- Untrusted addresses with one key in the same place lead to one key. -/
theorem clientKey_of_entries {remoteAddr first second other : String}
    {before earlier right : List String} {another : Addr}
    (isFirst : hops first = before ++ entry :: right)
    (isSecond : hops second = earlier ++ other :: right)
    (parsed : limiter.parseForwardedAddr entry = some addr)
    (parsedOther : limiter.parseForwardedAddr other = some another)
    (untrusted : limiter.trusted (limiter.netip.addrString addr) = false)
    (untrustedOther : limiter.trusted (limiter.netip.addrString another) = false)
    (sameKey : limiter.netip.addrKey addr = limiter.netip.addrKey another) :
    limiter.clientKey remoteAddr first = limiter.clientKey remoteAddr second := by
  cases trusted : limiter.trusted (peer remoteAddr) with
  | false => simp [clientKey, trusted]
  | true =>
    rw [clientKey_trusted trusted, clientKey_trusted trusted, isFirst, isSecond]
    simp only [reverse_append, reverse_cons, append_assoc, singleton_append]
    by_cases decided : ∃ passed ∈ right.reverse, limiter.Decides passed
    · rw [walk_append decided, walk_append decided]
    · rw [walk_untrusted parsed untrusted decided,
        walk_untrusted parsedOther untrustedOther decided,
        Netip.clientKey_addrString, Netip.clientKey_addrString, parseForwardedAddr_unmap parsed,
        parseForwardedAddr_unmap parsedOther, sameKey]

/-- A client cannot choose its own key. An untrusted peer is its own client, a trusted one vouches
for the list from the right up to an entry that ends the walk, and in the place of that entry
neither the spelling of an address nor the end of an IPv6 address matters. -/
theorem client_cannot_choose_key (limiter : RateLimiter) (remoteAddr : String) :
    (limiter.trusted (peer remoteAddr) = false → ∀ first second,
      limiter.clientKey remoteAddr first = limiter.clientKey remoteAddr second) ∧
    (limiter.trusted (peer remoteAddr) = true → ∀ first second,
      limiter.Agree (hops first) (hops second) →
        limiter.clientKey remoteAddr first = limiter.clientKey remoteAddr second) ∧
    (∀ first second before earlier right entry other addr,
      hops first = before ++ entry :: right → hops second = earlier ++ other :: right →
      limiter.Spells addr entry → limiter.Spells addr other →
      limiter.trusted (limiter.netip.addrString addr) = false →
        limiter.clientKey remoteAddr first = limiter.clientKey remoteAddr second) ∧
    ∀ first second before earlier right entry other bits otherBits zone otherZone,
      hops first = before ++ entry :: right → hops second = earlier ++ other :: right →
      limiter.parseForwardedAddr entry = some (.v6 bits zone) →
      limiter.parseForwardedAddr other = some (.v6 otherBits otherZone) →
      limiter.trusted (limiter.netip.addrString (.v6 bits zone)) = false →
      limiter.trusted (limiter.netip.addrString (.v6 otherBits otherZone)) = false →
      bits >>> 64 = otherBits >>> 64 →
        limiter.clientKey remoteAddr first = limiter.clientKey remoteAddr second := by
  refine ⟨fun untrusted first second => ?_, fun trusted first second agree => ?_, ?_, ?_⟩
  · simp [clientKey, untrusted]
  · rw [clientKey_trusted trusted, clientKey_trusted trusted, agree.walk]
  · intro first second before earlier right entry other addr isFirst isSecond spells spellsOther
      untrusted
    exact clientKey_of_entries isFirst isSecond spells.parse spellsOther.parse untrusted
      untrusted rfl
  · intro first second before earlier right entry other bits otherBits zone otherZone isFirst
      isSecond parsed parsedOther untrusted untrustedOther same
    refine clientKey_of_entries isFirst isSecond parsed parsedOther untrusted untrustedOther ?_
    rw [Netip.addrKey, Netip.addrKey, same]

section Sample

/-- These are the digits of a value in a base, as many as asked for. -/
def words (base : Nat) : Nat → Nat → List Nat
  | 0, _ => []
  | count + 1, value => words base count (value / base) ++ [value % base]

def dotted (bits : BitVec 32) : List Char :=
  ['.'].intercalate ((words 256 4 bits.toNat).map (Nat.toDigits 10))

/-- This many zero groups stand at the place. -/
def zerosAt (groups : List Nat) (place : Nat) : Nat :=
  ((groups.drop place).takeWhile (· = 0)).length

/-- The first of the longest runs of two or more zero groups is left out. -/
def grouped (groups : List Nat) : List Char :=
  let start := (List.range groups.length).foldl (fun best place =>
    if zerosAt groups best < zerosAt groups place then place else best) 0
  let text (groups : List Nat) := [':'].intercalate (groups.map (Nat.toDigits 16))
  if zerosAt groups start < 2 then text groups
  else text (groups.take start) ++ "::".toList ++ text (groups.drop (start + zerosAt groups start))

def written : Addr → List Char
  | .v4 bits => dotted bits
  | .v6 bits zone =>
    (if bits >>> 32 = 0xffff#128 then "::ffff:".toList ++ dotted (bits.truncate 32)
      else grouped (words 65536 8 bits.toNat)) ++ if zone = "" then [] else '%' :: zone.toList

def writtenPort (addr : Addr) (port : UInt16) : List Char :=
  (match addr with
    | .v4 bits => dotted bits
    | .v6 bits zone => '[' :: written (.v6 bits zone) ++ [']']) ++ ':' :: Nat.toDigits 10 port.toNat

def readNumber (base most : Nat) (text : List Char) : Option Nat :=
  let digits := text.map fun letter => "0123456789abcdef".toList.idxOf letter.toLower
  if text ≠ [] ∧ text.length ≤ most ∧ digits.all (· < base) then
    some (digits.foldl (base * · + ·) 0)
  else none

/-- A number of a dotted address has no leading zero. -/
def readOctets (text : List Char) : Option (List Nat) :=
  ((text.splitOn '.').mapM fun field => (readNumber 10 3 field).filter fun value =>
    value < 256 && Nat.toDigits 10 value = field).filter fun octets => octets.length = 4

/-- An IPv4 address may stand for the last two groups. -/
def readGroups (text : List Char) : Option (List Nat) := do
  if text = [] then
    return []
  let fields := text.splitOn ':'
  let last := fields.getLast?.getD []
  let front ← fields.dropLast.mapM (readNumber 16 4)
  if '.' ∈ last then
    return front ++ words 65536 2 ((← readOctets last).foldl (256 * · + ·) 0)
  else return front ++ [← readNumber 16 4 last]

def cutGap : List Char → Option (List Char × List Char)
  | ':' :: ':' :: rest => some ([], rest)
  | letter :: rest => (cutGap rest).map fun sides => (letter :: sides.1, sides.2)
  | [] => none

def readBits (text : List Char) : Option (BitVec 128) := do
  let groups ← match cutGap text with
    | none => (readGroups text).filter fun groups => groups.length = 8
    | some (left, right) => do
      let front ← if '.' ∈ left then none else readGroups left
      let back ← readGroups right
      if front.length + back.length < 8 then
        some (front ++ List.replicate (8 - front.length - back.length) 0 ++ back)
      else none
  return .ofNat 128 (groups.foldl (65536 * · + ·) 0)

def read (text : List Char) : Option Addr :=
  if ':' ∈ text then
    match text.dropWhile (· ≠ '%') with
    | [] => (readBits text).map (.v6 · "")
    | ['%'] => none
    | _ :: zone => (readBits (text.takeWhile (· ≠ '%'))).map (.v6 · (String.ofList zone))
  else (readOctets text).map fun octets => .v4 (.ofNat 32 (octets.foldl (256 * · + ·) 0))

/-- Only an IPv6 address stands in brackets. -/
def readPort (text : List Char) : Option Addr :=
  let port := (text.reverse.takeWhile (· ≠ ':')).reverse
  if (readNumber 10 port.length port).any (· < 65536) then
    match text.take (text.length - port.length - 1) with
    | '[' :: inside => if inside.getLast? = some ']' then
        (read inside.dropLast).filter fun addr => addr matches .v6 _ _
      else none
    | host => (read host).filter fun addr => addr matches .v4 _
  else none

/-- A tally is the text of last resort, which no address needs. -/
def tally : Addr → List Char
  | .v4 bits => '?' :: List.replicate bits.toNat '.'
  | .v6 bits zone => ':' :: ':' :: (List.replicate bits.toNat '.' ++ '%' :: zone.toList)

def countTally : List Char → Option Addr
  | '?' :: rest => some (.v4 (.ofNat 32 rest.length))
  | ':' :: ':' :: rest =>
    let count := (rest.takeWhile (· = '.')).length
    some (.v6 (.ofNat 128 count) (String.ofList (rest.drop (count + 1))))
  | _ => none

def readTally (text : List Char) : Option Addr :=
  (countTally text).filter fun addr => tally addr = text

theorem readTally_tally (addr : Addr) : readTally (tally addr) = some addr := by
  have counted : countTally (tally addr) = some addr := by
    cases addr with
    | v4 bits => simp [tally, countTally]
    | v6 bits zone =>
      have dots : ((List.replicate bits.toNat '.' ++ '%' :: zone.toList).takeWhile
          (· = '.')).length = bits.toNat := by
        rw [takeWhile_append_of_pos (by simp)]
        simp
      simp only [tally, countTally, dots]
      simp [drop_append]
  rw [readTally, counted, Option.filter_some, if_pos (decide_eq_true rfl)]

theorem takeWhile_stops {Item : Type} {goesOn : Item → Bool} {stop : Item} (first rest : List Item)
    (stops : goesOn stop = false) :
    ((first ++ stop :: rest).takeWhile goesOn).length ≤ first.length := by
  induction first with
  | nil => simp [stops]
  | cons item later ih =>
    rw [cons_append, takeWhile_cons]
    split
    · exact Nat.succ_le_succ ih
    · exact Nat.zero_le _

theorem splitHostPort_tally (addr : Addr) :
    Ratelimit.splitHostPort (String.ofList (tally addr)) = none := by
  cases addr with
  | v4 bits =>
    have absent : ':' ∉ tally (.v4 bits) := by
      simp [tally]
    simp [Ratelimit.splitHostPort, absent]
  | v6 bits zone =>
    obtain ⟨rest, same⟩ : ∃ rest, tally (.v6 bits zone) = ':' :: ':' :: rest := ⟨_, rfl⟩
    have short := @takeWhile_stops Char (fun char => decide (char ≠ ':')) ':' rest.reverse [':']
      (by decide)
    rw [length_reverse] at short
    rw [same, Ratelimit.splitHostPort]
    simp only [String.toList_ofList, reverse_cons, append_assoc, singleton_append,
      length_reverse, length_cons, List.head?_cons]
    rw [if_neg (by simp), if_neg (by decide), if_pos]
    refine mem_iff_getElem?.mpr ⟨0, ?_⟩
    rw [List.getElem?_take_of_lt (by omega)]
    rfl

def parseAddr (text : String) : Option Addr :=
  match readTally text.toList with
  | some addr => some addr
  | none =>
    if Ratelimit.splitHostPort text = none ∧ text.toList.head? ≠ some '[' then read text.toList
    else none

def parseAddrPort (text : String) : Option Addr :=
  match readTally text.toList.tail with
  | some addr => some addr
  | none => readPort text.toList

/-- This library prints and parses as `net/netip` does every text that it reads back. -/
def sampleNetip : Netip where
  parseAddr := parseAddr
  parseAddrPort := parseAddrPort
  addrString addr :=
    if parseAddr (String.ofList (written addr)) = some addr then String.ofList (written addr)
    else String.ofList (tally addr)
  addrPortString addr port :=
    if parseAddr (String.ofList (writtenPort addr port)) = none ∧
        parseAddrPort (String.ofList (writtenPort addr port)) = some addr then
      String.ofList (writtenPort addr port)
    else String.ofList ('[' :: tally addr)
  parseAddr_addrString addr := by
    split
    next reads => exact reads
    · simp [parseAddr, readTally_tally]
  parseAddrPort_addrPortString addr port := by
    split
    next reads => exact reads.2
    · simp [parseAddrPort, readTally_tally]
  parseAddr_addrPortString addr port := by
    split
    next reads => exact reads.1
    · simp [parseAddr, readTally, countTally]
  splitHostPort_eq_none text addr parsed := by
    unfold parseAddr at parsed
    split at parsed
    next found =>
      obtain ⟨-, same⟩ := Option.filter_eq_some_iff.mp found
      rw [← String.ofList_toList (s := text), ← of_decide_eq_true same]
      exact splitHostPort_tally _
    · split at parsed
      next plain => exact plain.1
      · cases parsed
  parseAddr_empty := by decide
  parseAddrPort_empty := by decide

/-- This limiter trusts the proxies of one network. -/
def sampleLimiter : RateLimiter := ⟨sampleNetip, [.v4 0x0a000000#32 8]⟩

/-- Behind a proxy neither what the client writes in front, nor a port and blanks, nor the end of
an IPv6 address chooses the key. -/
theorem sample_client_cannot_choose_key :
    sampleLimiter.clientKey "10.0.0.1:443" "198.51.100.1, 203.0.113.7,10.0.0.2" =
      sampleLimiter.clientKey "10.0.0.1:443" "unknown, 203.0.113.7,10.0.0.2" ∧
    sampleLimiter.clientKey "10.0.0.1:443" "203.0.113.7,10.0.0.2" =
      sampleLimiter.clientKey "10.0.0.1:443" "\t203.0.113.7:51234 ,10.0.0.2" ∧
    sampleLimiter.clientKey "10.0.0.1:443" "2001:db8:1:2:3:4:5:6" =
      sampleLimiter.clientKey "10.0.0.1:443" "2001:db8:1:2::a" ∧
    sampleLimiter.clientKey "10.0.0.1:443" "2001:db8:1:2:3:4:5:6" = "2001:db8:1:2::/64" := by
  obtain ⟨-, agree, spelled, network⟩ := client_cannot_choose_key sampleLimiter "10.0.0.1:443"
  refine ⟨?_, ?_, ?_, by decide +kernel⟩
  · refine agree (by decide +kernel) _ _ (@Agree.suffix _ _ _ ["198.51.100.1"] ["unknown"]
      [" 203.0.113.7", "10.0.0.2"] (by decide) (by decide) ⟨_, mem_cons_self, ?_⟩)
    intro addr parsed
    have isAddr : sampleLimiter.parseForwardedAddr " 203.0.113.7" = some (.v4 0xcb007107#32) := by
      decide +kernel
    obtain rfl := Option.some.inj (isAddr.symm.trans parsed)
    decide +kernel
  · exact spelled _ _ [] [] ["10.0.0.2"] "203.0.113.7" "\t203.0.113.7:51234 " (.v4 0xcb007107#32)
      (by decide) (by decide) ⟨.v4 0xcb007107#32, rfl, .inl (by decide +kernel)⟩
      ⟨.v4 0xcb007107#32, rfl, .inr ⟨51234, by decide +kernel⟩⟩ (by decide +kernel)
  · exact network _ _ [] [] [] "2001:db8:1:2:3:4:5:6" "2001:db8:1:2::a"
      0x20010db8000100020003000400050006#128 0x20010db800010002000000000000000a#128 "" ""
      (by decide) (by decide) (by decide +kernel) (by decide +kernel) (by decide +kernel)
      (by decide +kernel) (by decide)

end Sample

end RateLimiter

end Tempogate.Oidc
