/-
This file proves that a redirect URI is accepted exactly when it is registered, up to the port of a
loopback URI.
-/

import Tempogate.Construction.Oidc.Registration

namespace Tempogate.Oidc

open List

variable {allowInsecure : Bool} {library : Library} {client : Client} {entry registered : String}
  {after : ClientRegistry}

/-- These hosts are written as a loopback address. -/
def loopbackHosts : List String := ["127.0.0.1", "[::1]"]

/-- These are the documented properties of the URL parser that redirect matching relies on. -/
structure NetURL (library : Library) : Prop where
  /-- The hostname is the host without its port and without brackets. -/
  hostname : ∀ {raw url}, library.parseURL raw = some url →
    url.hostname = (splitHostPort url.host).1
  /-- Brackets enclose an IPv6 address, which has a colon. -/
  brackets : ∀ {raw url}, library.parseURL raw = some url → '[' ∈ url.host.toList →
    ':' ∈ url.hostname.toList
  /-- A URL is reassembled from its parts. The letters of a loopback host are not escaped. -/
  text : ∀ {raw url}, library.parseURL raw = some url → url.scheme ≠ "" → url.opaqueData = "" →
    url.host ≠ "" → url.hasUser = false → '#' ∉ raw.toList → url.rawQuery = "" →
    url.forceQuery = false →
    (∀ char ∈ url.host.toList, char.isDigit = true ∨ char ∈ ['.', ':', '[', ']']) →
    url.text = url.scheme ++ "://" ++ url.host ++ url.escapedPath
  /-- A port behind the host belongs to the host and to the text only. -/
  ports : ∀ {host path port url}, host ∈ loopbackHosts →
    library.parseURL ("http://" ++ host ++ path) = some url → url.host = host →
    url.hasUser = false → '#' ∉ path.toList → port ≠ "" → port.toList.all Char.isDigit = true →
    ∃ text, library.parseURL ("http://" ++ host ++ ":" ++ port ++ path) =
      some { url with host := host ++ ":" ++ port, text := text }

/-- The request is a registered loopback URI with a port inserted right after its host. -/
def AtPort (library : Library) (registered request : String) : Prop :=
  ∃ url path port, library.parseURL registered = some url ∧ isLoopback url = true ∧
    url.host ∈ loopbackHosts ∧ registered = "http://" ++ url.host ++ path ∧
    port ≠ "" ∧ port.toList.all Char.isDigit = true ∧
    request = "http://" ++ url.host ++ ":" ++ port ++ path

variable {raw : String} {url : URL}

section Hosts

variable (host : String)

theorem cutPort_spec : cutPort host = (host, "") ∨
      host.toList = (cutPort host).1.toList ++ ':' :: (cutPort host).2.toList ∧
        (cutPort host).2.toList.all Char.isDigit = true := by
  unfold cutPort
  cases found : cutAtLast host ':' with
  | none => exact .inl rfl
  | some parts =>
    obtain ⟨front, port⟩ := parts
    by_cases digits : port.toList.all Char.isDigit = true
    · simp only [if_pos digits]
      exact .inr ⟨(cutAtLast_eq_some_iff.mp found).1, digits⟩
    · simp only [if_neg digits, true_or]

theorem cutPort_prefix : (cutPort host).1.toList <+: host.toList := by
  rcases cutPort_spec host with whole | ⟨split, -⟩
  · exact whole ▸ prefix_refl host.toList
  · rw [split]
    exact prefix_append ..

theorem stripBrackets_spec :
    host = stripBrackets host ∨ host.toList = '[' :: (stripBrackets host).toList ++ [']'] := by
  unfold stripBrackets
  split
  · rename_i rest letters
    split
    · rename_i closed
      refine .inr ?_
      rw [letters, String.toList_ofList]
      exact congrArg ('[' :: ·) (dropLast_append_getLast? _ closed).symm
    · exact .inl rfl
  · exact .inl rfl

/-- This is how a host is written before its port. -/
def hostLiteral (hostname : String) : String := if hostname = "::1" then "[::1]" else hostname

theorem isLoopback_iff : isLoopback url = true ↔ url.scheme = "http" ∧ (url.hostname = "127.0.0.1" ∨
        url.hostname = "::1" ∧ "[::1]".toList <+: url.host.toList) := by
  simp [isLoopback]

theorem hostLiteral_mem (loopback : isLoopback url = true) :
    hostLiteral url.hostname ∈ loopbackHosts := by
  rcases (isLoopback_iff.mp loopback).2 with four | ⟨six, -⟩
  · rw [four]
    decide
  · rw [six]
    decide

variable {library : Library} (laws : NetURL library)

include laws

/-- The host of a loopback URI is a literal address and perhaps a port. -/
theorem NetURL.cutPort_host (parsed : library.parseURL raw = some url)
    (loopback : isLoopback url = true) : (cutPort url.host).1 = hostLiteral url.hostname := by
  have name : url.hostname = stripBrackets (cutPort url.host).1 := laws.hostname parsed
  have start := cutPort_prefix url.host
  have strip := stripBrackets_spec (cutPort url.host).1
  rw [← name] at strip
  rcases (isLoopback_iff.mp loopback).2 with four | ⟨six, bracketed⟩
  · rcases strip with bare | enclosed
    · rw [bare, hostLiteral, four]
      rfl
    · have inside : '[' ∈ url.host.toList := start.subset (by rw [enclosed]; exact mem_cons_self)
      have colon := laws.brackets parsed inside
      rw [four] at colon
      exact absurd colon (by decide)
  · rcases strip with bare | enclosed
    · rw [bare, six] at start
      have same := prefix_of_prefix_length_le start bracketed (by decide)
      exact absurd same (by decide)
    · rw [six] at enclosed
      rw [← String.toList_inj, enclosed, six]
      rfl

end Hosts

section Checks

theorem parseRedirectURI_eq_some_iff :
    parseRedirectURI library raw = some url ↔ library.parseURL raw = some url ∧ url.scheme ≠ "" ∧
      url.opaqueData = "" ∧ url.host ≠ "" ∧ url.host.toList.getLast? ≠ some ':' ∧
      url.hasUser = false ∧ '#' ∉ raw.toList := by
  unfold parseRedirectURI
  cases library.parseURL raw with
  | none => simp
  | some parsed =>
    simp only [Option.ite_none_left_eq_some, Option.some.injEq, contains_iff_mem, not_or,
      not_not, Bool.not_eq_true]
    constructor
    · rintro ⟨⟨absolute, hierarchical⟩, host, port, user, fragment, rfl⟩
      exact ⟨rfl, absolute, hierarchical, host, port, user, fragment⟩
    · rintro ⟨rfl, absolute, hierarchical, host, port, user, fragment⟩
      exact ⟨⟨absolute, hierarchical⟩, host, port, user, fragment, rfl⟩

/-- What a registered URI has passed. -/
theorem checkRegisteredRedirectURI_ok
    (passed : checkRegisteredRedirectURI library raw allowInsecure = .ok ()) :
    ∃ url, parseRedirectURI library raw = some url ∧
      (isLoopback url = true → url.port = "" ∧ url.rawQuery = "" ∧ url.forceQuery = false) := by
  unfold checkRegisteredRedirectURI at passed
  split at passed
  case h_1 => cases passed
  case h_2 url parsed => exact ⟨url, parsed, by grind⟩

end Checks

section Registry

/-- This URI an entry of the configuration registers for the client. -/
def entryURI (clientID entry : String) : Option String :=
  match cut (trimSpace entry) ':' with
  | none => none
  | some (id, uri) => if id = clientID ∧ uri ≠ "" then some uri else none

def registeredURIs (raw clientID : String) : List String :=
  (split raw ',').filterMap (entryURI clientID)

theorem lookup_set (registry : ClientRegistry) (clientID : String) (client : Client)
    (other : String) :
    (registry.set clientID client).lookup other =
      if other = clientID then some client else registry.lookup other := by
  rw [ClientRegistry.lookup, ClientRegistry.set, lookup_cons]
  by_cases same : other = clientID
  · simp [same]
  · rw [if_neg same, beq_eq_false_iff_ne.mpr same]
    change List.lookup other _ = List.lookup other registry
    induction registry with
    | nil => rfl
    | cons entry rest ih =>
      by_cases kept : entry.1 = clientID
      · rw [filter_cons_of_neg (by simpa using kept), ih, lookup_cons,
          beq_eq_false_iff_ne.mpr (fun equal => same (equal.trans kept))]
      · rw [filter_cons_of_pos (by simpa using kept), lookup_cons, lookup_cons, ih]

/-- The clients have the URIs of the entries, all of them checked, and the grants that go with
them. -/
structure Registered (library : Library) (allowInsecure : Bool) (entries : List String)
    (registry : ClientRegistry) : Prop where
  uris : ∀ clientID, ((registry.lookup clientID).elim [] Client.redirectURIs) =
    entries.filterMap (entryURI clientID)
  grants : ∀ clientID client, registry.lookup clientID = some client →
    (client.allows .authorizationCode = true ↔ client.redirectURIs ≠ [])
  checked : ∀ clientID, ∀ uri ∈ entries.filterMap (entryURI clientID),
    checkRegisteredRedirectURI library uri allowInsecure = .ok ()

variable {library : Library} {allowInsecure : Bool}

variable {registry : ClientRegistry}

variable {entries : List String}

/-- An entry that registers nothing leaves what is registered. -/
theorem Registered.skip (registered : Registered library allowInsecure entries registry)
    (nothing : ∀ clientID, entryURI clientID entry = none) :
    Registered library allowInsecure (entries ++ [entry]) registry := by
  have same : ∀ clientID, (entries ++ [entry]).filterMap (entryURI clientID) =
      entries.filterMap (entryURI clientID) := by
    intro clientID
    rw [filterMap_append, filterMap_cons_none (nothing clientID), filterMap_nil,
      append_nil]
  exact ⟨fun clientID => by rw [same]; exact registered.uris clientID, registered.grants,
    fun clientID => by rw [same]; exact registered.checked clientID⟩

/-- An accepted entry is blank, or registers a new device-only client, or adds a checked URI to a
client that is not device-only. -/
theorem registerEntry_ok
    (accepted : registerEntry library allowInsecure registry entry = .ok after) :
    trimSpace entry = "" ∧ after = registry ∨
      ∃ clientID uri, cut (trimSpace entry) ':' = some (clientID, uri) ∧
        (uri = "" ∧ registry.lookup clientID = none ∧
            after = registry.set clientID ⟨[], [.deviceCode, .refreshToken], ""⟩ ∨
          uri ≠ "" ∧ checkRegisteredRedirectURI library uri allowInsecure = .ok () ∧
            ∃ secret, after = registry.set clientID
              ⟨(registry.lookup clientID).elim [] Client.redirectURIs ++ [uri],
                [.authorizationCode, .refreshToken], secret⟩) := by
  unfold registerEntry at accepted
  by_cases empty : trimSpace entry = ""
  · rw [if_pos empty] at accepted
    exact .inl ⟨empty, (Except.ok.inj accepted).symm⟩
  · rw [if_neg empty] at accepted
    cases parts : cut (trimSpace entry) ':' with
    | none =>
      rw [parts] at accepted
      cases accepted
    | some pair =>
      obtain ⟨clientID, uri⟩ := pair
      refine .inr ⟨clientID, uri, rfl, ?_⟩
      -- what is left are the checks of one client
      cases known : registry.lookup clientID with
      | none => grind
      | some client => grind

/-- One accepted entry adds its URI to its client. -/
theorem registered_registerEntry (registered : Registered library allowInsecure entries registry)
    (accepted : registerEntry library allowInsecure registry entry = .ok after) :
    Registered library allowInsecure (entries ++ [entry]) after := by
  rcases registerEntry_ok accepted with ⟨empty, rfl⟩ | ⟨clientID, uri, parts, device | code⟩
  · refine registered.skip fun clientID => ?_
    rw [entryURI, empty]
    rfl
  · obtain ⟨noURI, fresh, rfl⟩ := device
    have nothing : ∀ other, entryURI other entry = none := by
      intro other
      simp [entryURI, parts, noURI]
    have skipped := registered.skip nothing
    refine ⟨fun other => ?_, fun other client found => ?_, skipped.checked⟩
    · rw [← skipped.uris other, lookup_set]
      by_cases same : other = clientID
      · rw [if_pos same, same, fresh]
        rfl
      · rw [if_neg same]
    · rw [lookup_set] at found
      by_cases same : other = clientID
      · rw [if_pos same] at found
        cases found
        decide
      · rw [if_neg same] at found
        exact registered.grants other client found
  · obtain ⟨someURI, passed, secret, rfl⟩ := code
    have own : entryURI clientID entry = some uri := by simp [entryURI, parts, someURI]
    have others : ∀ other, other ≠ clientID → entryURI other entry = none := by
      intro other different
      simp [entryURI, parts, Ne.symm different]
    refine ⟨fun other => ?_, fun other client found => ?_, fun other listed member => ?_⟩
    · rw [lookup_set, filterMap_append, ← registered.uris other]
      by_cases same : other = clientID
      · subst same
        rw [if_pos rfl, filterMap_cons_some own]
        rfl
      · rw [if_neg same, filterMap_cons_none (others other same), filterMap_nil,
          append_nil]
    · rw [lookup_set] at found
      by_cases same : other = clientID
      · rw [if_pos same] at found
        cases found
        simp [Client.allows]
      · rw [if_neg same] at found
        exact registered.grants other client found
    · rw [filterMap_append, mem_append] at member
      rcases member with earlier | now
      · exact registered.checked other listed earlier
      · by_cases same : other = clientID
        · subst same
          rw [filterMap_cons_some own, filterMap_nil, mem_singleton] at now
          rw [now]
          exact passed
        · rw [filterMap_cons_none (others other same)] at now
          cases now

/-- A parsed registry holds what its entries say. -/
theorem registered_parse (accepted : parseClientRegistry library allowInsecure raw = .ok registry) :
    Registered library allowInsecure (split raw ',') registry := by
  have run : ∀ (entries done : List String) (registry final : ClientRegistry),
      Registered library allowInsecure done registry →
      entries.foldlM (registerEntry library allowInsecure) registry = .ok final →
      Registered library allowInsecure (done ++ entries) final := by
    intro entries
    induction entries with
    | nil =>
      intro done registry final registered folded
      cases folded
      rw [append_nil]
      exact registered
    | cons entry rest ih =>
      intro done registry final registered folded
      rw [foldlM_cons] at folded
      cases step : registerEntry library allowInsecure registry entry with
      | error error =>
        rw [step] at folded
        cases folded
      | ok next =>
        rw [step] at folded
        have later := ih (done ++ [entry]) next final
          (registered_registerEntry registered step) folded
        rw [append_assoc] at later
        exact later
  refine run _ [] [] registry ⟨fun _ => rfl, fun _ _ found => ?_, fun _ _ member => ?_⟩ accepted
  · cases found
  · cases member

end Registry

section Matching

/-- What a request and a registered loopback URI agree on. -/
def SameLoopback (library : Library) (request : URL) (registered : String) : Prop :=
  ∃ url, library.parseURL registered = some url ∧ isLoopback url = true ∧
    request.scheme = url.scheme ∧ request.hostname = url.hostname ∧
    request.escapedPath = url.escapedPath

variable {request : String}

/-- A match is exact, or one up to the port of a loopback host. -/
theorem matchRedirectURI_iff :
    client.matchRedirectURI library request = true ↔ request ≠ "" ∧ (request ∈ client.redirectURIs ∨
        ∃ url, parseRedirectURI library request = some url ∧ isLoopback url = true ∧
          url.text = request ∧ url.rawQuery = "" ∧ url.forceQuery = false ∧
          ∃ registered ∈ client.redirectURIs, SameLoopback library url registered) := by
  unfold Client.matchRedirectURI
  by_cases empty : request = ""
  · simp [empty]
  · by_cases listed : request ∈ client.redirectURIs
    · simp [empty, listed]
    · simp only [empty, if_false, contains_iff_mem, listed, ne_eq, not_false_eq_true, true_and,
        false_or]
      cases parsed : parseRedirectURI library request with
      | none => simp
      | some url =>
        have ended := (parseRedirectURI_eq_some_iff.mp parsed).2.2.2.2.1
        simp only [Option.some.injEq, exists_eq_left']
        by_cases loopback : isLoopback url = true
        · by_cases form : url.text = request ∧ url.rawQuery = "" ∧ url.forceQuery = false
          · obtain ⟨text, query, force⟩ := form
            rw [if_neg (by simp [loopback, ended]), if_neg (by simp [text, query, force])]
            simp only [loopback, text, query, force, true_and, any_eq_true]
            refine exists_congr fun registered => and_congr_right fun _ => ?_
            rw [SameLoopback]
            cases library.parseURL registered with
            | none => simp
            | some parsed =>
              simp only [Bool.and_eq_true, decide_eq_true_eq, Option.some.injEq, exists_eq_left',
                and_assoc]
          · have refused : (url.text ≠ request || url.rawQuery ≠ "" || url.forceQuery) = true := by
              by_contra passed
              simp only [ne_eq, decide_not, Bool.or_eq_true, Bool.not_eq_true',
                decide_eq_false_iff_not, not_or, not_not, Bool.not_eq_true] at passed
              exact form ⟨passed.1.1, passed.1.2, passed.2⟩
            rw [if_neg (by simp [loopback, ended]), if_pos refused]
            simp only [Bool.false_eq_true, false_iff]
            rintro ⟨-, text, query, force, -⟩
            exact form ⟨text, query, force⟩
        · simp [loopback]

variable {library : Library} (laws : NetURL library)

include laws

section

variable (parsed : parseRedirectURI library raw = some url) (loopback : isLoopback url = true)

include parsed loopback

/-- A loopback URI that is its own text is put together from its host and path. -/
theorem NetURL.loopback_text (unqueried : url.rawQuery = "" ∧ url.forceQuery = false) :
    url.text = "http://" ++ url.host ++ url.escapedPath := by
  obtain ⟨found, absolute, hierarchical, host, -, user, fragment⟩ :=
    parseRedirectURI_eq_some_iff.mp parsed
  have letters : ∀ char ∈ url.host.toList, char.isDigit = true ∨ char ∈ ['.', ':', '[', ']'] := by
    have literal : ∀ char ∈ (hostLiteral url.hostname).toList,
        char.isDigit = true ∨ char ∈ ['.', ':', '[', ']'] := by
      rcases (isLoopback_iff.mp loopback).2 with four | ⟨six, -⟩
      · rw [four, ← forall_iff_forall_mem]
        decide
      · rw [six, ← forall_iff_forall_mem]
        decide
    have front := laws.cutPort_host found loopback
    rcases cutPort_spec url.host with whole | ⟨split, digits⟩
    · rw [whole] at front
      change url.host = _ at front
      rw [front]
      exact literal
    · intro char member
      rw [split, front, mem_append, mem_cons] at member
      rcases member with inside | rfl | port
      · exact literal char inside
      · exact .inr (by decide)
      · exact .inl (all_eq_true.mp digits char port)
  rw [laws.text found absolute hierarchical host user fragment unqueried.1 unqueried.2 letters,
    (isLoopback_iff.mp loopback).1]
  rfl

/-- A registered loopback URI has a literal address for its host. -/
theorem NetURL.registered_host (unported : url.port = "") :
    url.host = hostLiteral url.hostname := by
  obtain ⟨found, -, -, -, ended, -, -⟩ := parseRedirectURI_eq_some_iff.mp parsed
  have front := laws.cutPort_host found loopback
  have noPort : (cutPort url.host).2 = "" := unported
  rcases cutPort_spec url.host with whole | ⟨split, -⟩
  · rw [whole] at front
    exact front
  · rw [noPort] at split
    refine absurd ?_ ended
    rw [split]
    exact List.getLast?_concat

/-- The host of a request that is not registered has a port. -/
theorem NetURL.requested_host : url.host = hostLiteral url.hostname ∨
      ∃ port, port ≠ "" ∧ port.toList.all Char.isDigit = true ∧
        url.host = hostLiteral url.hostname ++ ":" ++ port := by
  by_cases unported : url.port = ""
  · exact .inl (laws.registered_host parsed loopback unported)
  · obtain ⟨found, -⟩ := parseRedirectURI_eq_some_iff.mp parsed
    have front := laws.cutPort_host found loopback
    rcases cutPort_spec url.host with whole | ⟨split, digits⟩
    · exact absurd (congrArg Prod.snd whole) unported
    · refine .inr ⟨(cutPort url.host).2, unported, digits, ?_⟩
      rw [← String.toList_inj, split, front]
      simp

end

variable {client : Client} {allowInsecure : Bool}
  (checked : ∀ uri ∈ client.redirectURIs,
    checkRegisteredRedirectURI library uri allowInsecure = .ok ())
  (stable : ∀ uri ∈ client.redirectURIs, ∀ url, library.parseURL uri = some url →
    isLoopback url = true → url.text = uri)

include checked stable

/-- A registered loopback URI has no port and no query, and is its host followed by its path. -/
theorem NetURL.registered_loopback (member : registered ∈ client.redirectURIs)
    (parsed : library.parseURL registered = some url) (loopback : isLoopback url = true) :
    parseRedirectURI library registered = some url ∧ url.host = hostLiteral url.hostname ∧
      url.rawQuery = "" ∧ url.forceQuery = false ∧
      registered = "http://" ++ url.host ++ url.escapedPath := by
  obtain ⟨found, passed, rules⟩ := checkRegisteredRedirectURI_ok (checked registered member)
  have same : found = url := by
    have again := (parseRedirectURI_eq_some_iff.mp passed).1
    rw [parsed] at again
    exact (Option.some.inj again).symm
  subst same
  obtain ⟨unported, unqueried⟩ := rules loopback
  refine ⟨passed, laws.registered_host passed loopback unported, unqueried.1, unqueried.2, ?_⟩
  rw [← laws.loopback_text passed loopback unqueried]
  exact (stable registered member found parsed loopback).symm

/-- A request matches no more than the registered URIs and their loopback ports. -/
theorem NetURL.of_matchRedirectURI (accepted : client.matchRedirectURI library request = true) :
    ∃ registered ∈ client.redirectURIs,
      request = registered ∨ AtPort library registered request := by
  obtain ⟨-, listed | ⟨url, parsed, loopback, text, query, force, registered, member, same⟩⟩ :=
    matchRedirectURI_iff.mp accepted
  · exact ⟨request, listed, .inl rfl⟩
  · obtain ⟨known, found, knownLoopback, -, hostname, path⟩ := same
    obtain ⟨-, host, -, -, whole⟩ :=
      laws.registered_loopback checked stable member found knownLoopback
    have assembled := laws.loopback_text parsed loopback ⟨query, force⟩
    rw [text] at assembled
    refine ⟨registered, member, ?_⟩
    rcases laws.requested_host parsed loopback with bare | ⟨port, filled, digits, ported⟩
    · refine .inl ?_
      rw [assembled, whole, bare, host, hostname, path]
    · refine .inr ⟨known, known.escapedPath, port, found, knownLoopback, ?_, whole, filled, digits,
        ?_⟩
      · rw [host]
        exact hostLiteral_mem knownLoopback
      · rw [assembled, ported, host, hostname, path]
        simp only [String.append_assoc]

/-- A registered loopback URI matches at every port. -/
theorem NetURL.matchRedirectURI_atPort
    (member : registered ∈ client.redirectURIs) (atPort : AtPort library registered request) :
    client.matchRedirectURI library request = true := by
  obtain ⟨url, path, port, parsed, loopback, literal, split, filled, digits, rfl⟩ := atPort
  obtain ⟨passed, host, query, force, whole⟩ :=
    laws.registered_loopback checked stable member parsed loopback
  obtain ⟨-, absolute, hierarchical, -, -, user, fragment⟩ := parseRedirectURI_eq_some_iff.mp passed
  have samePath : path = url.escapedPath := by
    have texts := congrArg String.toList (split.symm.trans whole)
    simp only [String.toList_append, append_cancel_left_eq] at texts
    exact String.toList_inj.mp texts
  have noFragment : '#' ∉ path.toList := by
    intro inside
    refine fragment ?_
    rw [split]
    simp [inside]
  obtain ⟨text, ported⟩ := laws.ports literal (split ▸ parsed) rfl user noFragment filled digits
  have requestLoopback : isLoopback { url with host := url.host ++ ":" ++ port, text := text } := by
    obtain ⟨scheme, names⟩ := isLoopback_iff.mp loopback
    refine isLoopback_iff.mpr ⟨scheme, names.imp id fun six => ⟨six.1, ?_⟩⟩
    simp only [String.toList_append, append_assoc]
    exact six.2.trans (prefix_append ..)
  have requestPassed : parseRedirectURI library ("http://" ++ url.host ++ ":" ++ port ++ path) =
      some { url with host := url.host ++ ":" ++ port, text := text } := by
    refine parseRedirectURI_eq_some_iff.mpr ⟨ported, absolute, hierarchical, ?_, ?_, user, ?_⟩
    · simp
    · intro ended
      have last : (url.host ++ ":" ++ port).toList.getLast? = port.toList.getLast? := by
        rw [String.toList_append, List.getLast?_append_of_ne_nil]
        exact fun none => filled (String.toList_eq_nil_iff.mp none)
      have member := mem_of_getLast? (last.symm.trans ended)
      exact absurd (all_eq_true.mp digits _ member) (by decide)
    · intro inside
      simp only [String.toList_append, mem_append] at inside
      rcases inside with (((scheme | host) | colon) | digit) | rest
      · exact absurd scheme (by decide)
      · refine fragment ?_
        rw [split]
        simp [host]
      · exact absurd colon (by decide)
      · exact absurd (all_eq_true.mp digits _ digit) (by decide)
      · exact noFragment rest
  refine matchRedirectURI_iff.mpr ⟨by simp, .inr ⟨_, requestPassed, requestLoopback, ?_, query,
    force, registered, member, url, parsed, loopback, rfl, rfl, rfl⟩⟩
  rw [laws.loopback_text requestPassed requestLoopback ⟨query, force⟩, samePath]
  simp only [String.append_assoc]

end Matching

section Validate

variable {library : Library} {registry : ClientRegistry} {clientID redirectURI : String}

theorem validate_ok (found : registry.lookup clientID = some client) :
    registry.validate library clientID redirectURI = .ok () ↔
      client.allows .authorizationCode = true ∧
        client.matchRedirectURI library redirectURI = true := by
  rw [ClientRegistry.validate, found]
  by_cases allowed : client.allows .authorizationCode = true
  · by_cases matched : client.matchRedirectURI library redirectURI = true
    · simp [allowed, matched]
    · simp [allowed, matched]
  · simp [allowed]

theorem ne_empty_of_registered {uri : String} (member : uri ∈ registeredURIs raw clientID) :
    uri ≠ "" := by
  obtain ⟨entry, -, parts⟩ := mem_filterMap.mp member
  unfold entryURI at parts
  split at parts
  · cases parts
  · split at parts
    · rename_i own
      cases parts
      exact own.2
    · cases parts

/-- A request that is accepted has no user information, no fragment and no query of a loopback URI,
and goes to the host of a registered URI. -/
def Safe (library : Library) (registered : List String) (request : String) : Prop :=
  ∃ url, library.parseURL request = some url ∧ url.hasUser = false ∧ '#' ∉ request.toList ∧
    (∃ uri ∈ registered, ∃ known, library.parseURL uri = some known ∧
      url.scheme = known.scheme ∧ url.hostname = known.hostname) ∧
    (isLoopback url = true → url.rawQuery = "" ∧ url.forceQuery = false)

/-- A match against checked URIs is safe. -/
theorem safe_of_matchRedirectURI (checked : ∀ uri ∈ client.redirectURIs,
      checkRegisteredRedirectURI library uri allowInsecure = .ok ())
    (accepted : client.matchRedirectURI library redirectURI = true) :
    Safe library client.redirectURIs redirectURI := by
  obtain ⟨-, listed | ⟨url, parsed, -, -, query, force, registered, member, same⟩⟩ :=
    matchRedirectURI_iff.mp accepted
  · obtain ⟨url, passed, rules⟩ := checkRegisteredRedirectURI_ok (checked redirectURI listed)
    obtain ⟨found, -, -, -, -, user, fragment⟩ := parseRedirectURI_eq_some_iff.mp passed
    exact ⟨url, found, user, fragment, ⟨redirectURI, listed, url, found, rfl, rfl⟩,
      fun loopback => (rules loopback).2⟩
  · obtain ⟨found, -, -, -, -, user, fragment⟩ := parseRedirectURI_eq_some_iff.mp parsed
    obtain ⟨known, knownFound, -, scheme, hostname, -⟩ := same
    exact ⟨url, found, user, fragment, ⟨registered, member, known, knownFound, scheme, hostname⟩,
      fun _ => ⟨query, force⟩⟩

/-- A redirect URI is accepted exactly when it is one that the configuration registers for the
client, or such a loopback URI with a port, and what is accepted is safe. -/
theorem redirect_accepted_iff (laws : NetURL library) {allowInsecure : Bool} {raw : String}
    (parsed : parseClientRegistry library allowInsecure raw = .ok registry)
    (stable : ∀ clientID, ∀ uri ∈ registeredURIs raw clientID, ∀ url,
      library.parseURL uri = some url → isLoopback url = true → url.text = uri)
    (clientID redirectURI : String) :
    (registry.validate library clientID redirectURI = .ok () ↔
      (∃ client, registry.lookup clientID = some client ∧ client.allows .authorizationCode = true) ∧
      ∃ registered ∈ registeredURIs raw clientID,
        redirectURI = registered ∨ AtPort library registered redirectURI) ∧
    (registry.validate library clientID redirectURI = .ok () →
      Safe library (registeredURIs raw clientID) redirectURI) := by
  have registered := registered_parse parsed
  have uris := registered.uris clientID
  have checked := registered.checked clientID
  change _ = registeredURIs raw clientID at uris
  cases found : registry.lookup clientID with
  | none =>
    have refused : registry.validate library clientID redirectURI ≠ .ok () := by
      rw [ClientRegistry.validate, found]
      exact nofun
    refine ⟨⟨fun accepted => absurd accepted refused, ?_⟩, fun accepted => absurd accepted refused⟩
    rintro ⟨⟨client, known, -⟩, -⟩
    cases known
  | some client =>
    rw [found] at uris
    change ∀ uri ∈ registeredURIs raw clientID, _ at checked
    have own := stable clientID
    rw [← uris] at checked own ⊢
    rw [validate_ok found]
    refine ⟨⟨fun accepted => ⟨⟨client, rfl, accepted.1⟩,
      laws.of_matchRedirectURI checked own accepted.2⟩, ?_⟩,
      fun accepted => safe_of_matchRedirectURI checked accepted.2⟩
    rintro ⟨⟨other, same, allowed⟩, uri, member, equal | ported⟩
    · cases same
      subst equal
      exact ⟨allowed, matchRedirectURI_iff.mpr
        ⟨ne_empty_of_registered (uris ▸ member), .inl member⟩⟩
    · cases same
      exact ⟨allowed, laws.matchRedirectURI_atPort checked own member ported⟩

end Validate

section Plain

/-- This parser knows the loopback URIs whose paths need no escaping. -/
def plainURL (raw : String) : Option URL :=
  let rest := raw.toList.drop 7
  let host := String.ofList (rest.takeWhile (· ≠ '/'))
  let path := String.ofList (rest.dropWhile (· ≠ '/'))
  if "http://".toList <+: raw.toList ∧ (cutPort host).1 ∈ loopbackHosts ∧
      path.toList.all (fun char => char.isAlphanum || char = '/') = true then
    some ⟨"http", "", host, (splitHostPort host).1, false, path, "", false, raw⟩
  else none

/-- The plain parser takes exactly these loopback URLs. -/
theorem plainURL_eq_some_iff : plainURL raw = some url ↔ ∃ host path : String,
      raw = "http://" ++ host ++ path ∧ '/' ∉ host.toList ∧
      (path = "" ∨ path.toList.head? = some '/') ∧ (cutPort host).1 ∈ loopbackHosts ∧
      path.toList.all (fun char => char.isAlphanum || char = '/') = true ∧
      url = ⟨"http", "", host, (splitHostPort host).1, false, path, "", false, raw⟩ := by
  unfold plainURL
  constructor
  · intro found
    dsimp only at found
    split at found
    · rename_i passed
      cases found
      obtain ⟨scheme, literal, plain⟩ := passed
      refine ⟨_, _, ?_, ?_, ?_, literal, plain, rfl⟩
      · rw [← String.toList_inj]
        simp only [String.toList_append, String.toList_ofList, append_assoc,
          takeWhile_append_dropWhile]
        exact (prefix_iff_eq_append.mp scheme).symm
      · rw [String.toList_ofList]
        exact fun inside => by simpa using mem_takeWhile_imp inside
      · cases rest : (raw.toList.drop 7).dropWhile (· ≠ '/') with
        | nil => exact .inl rfl
        | cons first others =>
          refine .inr ?_
          have head := List.head?_dropWhile_not (· ≠ '/') (raw.toList.drop 7)
          rw [rest] at head
          simpa using head
    · cases found
  · rintro ⟨host, path, rfl, outside, start, literal, plain, rfl⟩
    have rest : ("http://" ++ host ++ path).toList.drop 7 = host.toList ++ path.toList := by
      rw [String.toList_append, String.toList_append, append_assoc]
      rfl
    have before : ∀ char ∈ host.toList, (char ≠ '/' : Bool) = true := by
      intro char inside
      exact decide_eq_true fun same => outside (same ▸ inside)
    have stop : path.toList.takeWhile (· ≠ '/') = [] ∧
        path.toList.dropWhile (· ≠ '/') = path.toList := by
      rcases start with rfl | slash
      · exact ⟨rfl, rfl⟩
      · cases letters : path.toList with
        | nil => exact ⟨rfl, rfl⟩
        | cons first others =>
          rw [letters, List.head?_cons, Option.some.injEq] at slash
          subst slash
          exact ⟨rfl, rfl⟩
    have hostEq : String.ofList ((("http://" ++ host ++ path).toList.drop 7).takeWhile (· ≠ '/')) =
        host := by
      rw [rest, takeWhile_append_of_pos before, stop.1, append_nil, String.ofList_toList]
    have pathEq : String.ofList ((("http://" ++ host ++ path).toList.drop 7).dropWhile (· ≠ '/')) =
        path := by
      rw [rest, dropWhile_append_of_pos before, stop.2, String.ofList_toList]
    have scheme : "http://".toList <+: ("http://" ++ host ++ path).toList := by
      rw [String.toList_append, String.toList_append, append_assoc]
      exact prefix_append ..
    dsimp only
    rw [hostEq, pathEq, if_pos ⟨scheme, literal, plain⟩]

def plainLibrary : Library := ⟨plainURL, id⟩

theorem cutPort_ported {host port : String} (digits : port.toList.all Char.isDigit = true) :
    cutPort (host ++ ":" ++ port) = (host, port) := by
  have colon : ':' ∉ port.toList := by
    intro inside
    exact absurd (all_eq_true.mp digits _ inside) (by decide)
  have found : cutAtLast (host ++ ":" ++ port) ':' = some (host, port) := by
    refine cutAtLast_eq_some_iff.mpr ⟨?_, colon⟩
    simp
  rw [cutPort, found]
  simp [digits]

/-- The plain library keeps the laws of the URL parser. -/
theorem netURL_plainLibrary : NetURL plainLibrary where
  hostname := by
    intro raw url parsed
    obtain ⟨host, path, -, -, -, -, -, rfl⟩ := plainURL_eq_some_iff.mp parsed
    rfl
  brackets := by
    intro raw url parsed inside
    obtain ⟨host, path, -, -, -, literal, -, rfl⟩ := plainURL_eq_some_iff.mp parsed
    change '[' ∈ host.toList at inside
    change ':' ∈ (stripBrackets (cutPort host).1).toList
    simp only [loopbackHosts, mem_cons, not_mem_nil, or_false] at literal
    rcases literal with four | six
    · rcases cutPort_spec host with whole | ⟨split, digits⟩
      · rw [whole] at four
        change host = _ at four
        rw [four] at inside
        exact absurd inside (by decide)
      · rw [split, four, mem_append, mem_cons] at inside
        rcases inside with number | colon | port
        · exact absurd number (by decide)
        · exact absurd colon (by decide)
        · exact absurd (all_eq_true.mp digits _ port) (by decide)
    · rw [six]
      decide
  text := by
    intro raw url parsed _ _ _ _ _ _ _ _
    obtain ⟨host, path, rfl, -, -, -, -, rfl⟩ := plainURL_eq_some_iff.mp parsed
    rfl
  ports := by
    intro host path port url literal parsed same _ _ filled digits
    obtain ⟨found, rest, whole, outside, start, -, plain, rfl⟩ := plainURL_eq_some_iff.mp parsed
    change found = host at same
    subst same
    have samePath : path = rest := by
      have texts := congrArg String.toList whole
      simp only [String.toList_append, append_cancel_left_eq] at texts
      exact String.toList_inj.mp texts
    subst samePath
    have bare : (cutPort found).1 = found := by
      simp only [loopbackHosts, mem_cons, not_mem_nil, or_false] at literal
      rcases literal with rfl | rfl
      · decide
      · decide
    have ported := @cutPort_ported found port digits
    refine ⟨"http://" ++ found ++ ":" ++ port ++ path, ?_⟩
    refine plainURL_eq_some_iff.mpr ⟨found ++ ":" ++ port, path, ?_, ?_, start, ?_, plain, ?_⟩
    · simp only [String.append_assoc]
    · intro inside
      simp only [String.toList_append, mem_append] at inside
      rcases inside with (host | colon) | digit
      · exact outside host
      · exact absurd colon (by decide)
      · exact absurd (all_eq_true.mp digits _ digit) (by decide)
    · rw [ported]
      exact literal
    · simp only [splitHostPort, ported, bare]

/-- A client with one loopback URI accepts it at every port and nothing else. -/
theorem loopback_client_accepted :
    parseClientRegistry plainLibrary false "cli:http://127.0.0.1/callback" =
        .ok [("cli", ⟨["http://127.0.0.1/callback"], [.authorizationCode, .refreshToken], ""⟩)] ∧
      (ClientRegistry.validate plainLibrary
        [("cli", ⟨["http://127.0.0.1/callback"], [.authorizationCode, .refreshToken], ""⟩)] "cli"
        "http://127.0.0.1:8080/callback" = .ok () ↔
      (∃ client, ClientRegistry.lookup
          [("cli", ⟨["http://127.0.0.1/callback"], [.authorizationCode, .refreshToken], ""⟩)]
          "cli" = some client ∧ client.allows .authorizationCode = true) ∧
      ∃ registered ∈ registeredURIs "cli:http://127.0.0.1/callback" "cli",
        "http://127.0.0.1:8080/callback" = registered ∨
          AtPort plainLibrary registered "http://127.0.0.1:8080/callback") := by
  have parsed : parseClientRegistry plainLibrary false "cli:http://127.0.0.1/callback" =
      .ok [("cli", ⟨["http://127.0.0.1/callback"], [.authorizationCode, .refreshToken], ""⟩)] := by
    decide +kernel
  refine ⟨parsed, (redirect_accepted_iff netURL_plainLibrary parsed ?_ "cli"
    "http://127.0.0.1:8080/callback").1⟩
  intro clientID uri _ url found _
  obtain ⟨host, path, -, -, -, -, -, rfl⟩ := plainURL_eq_some_iff.mp found
  rfl

end Plain

end Tempogate.Oidc
