import Headscale.Netip.Parse

/-!
# Clients behind trusted proxies

A proxy names the client it forwards for in a header. `resolve_trusted_proxy_headers` believes the
header of a trusted peer: of the hops in `X-Forwarded-For`, read from the right, the first that is no
trusted proxy is the client. The lines of the header are one list, but only the first line is read, and
only if it is printable; a proxy that adds a line of its own leaves the first one to the client.
-/

namespace Headscale.Serve

open GoNetip List Option

/-! ## Headers -/

/-- The lines of a request's headers, under their lower-case names. -/
abbrev HeaderMap := List (String × List UInt8)

namespace HeaderMap

variable (headers : HeaderMap) (name : String)

def getAll : List (List UInt8) := (headers.filter (·.1 = name)).map (·.2)

/-- `HeaderMap::get`: the first line. -/
def get : Option (List UInt8) := (headers.getAll name).head?

def remove : HeaderMap := headers.filter (·.1 ≠ name)

end HeaderMap

def headerTrueClientIp : String := "true-client-ip"
def headerXRealIp : String := "x-real-ip"
def headerXForwardedFor : String := "x-forwarded-for"

def forwardedHeaderNames : List String :=
  [headerTrueClientIp, headerXRealIp, headerXForwardedFor, "forwarded", "x-forwarded-host",
    "x-forwarded-proto"]

/-- `HeaderValue::to_str`: printable ASCII and tabs. -/
def toStr (value : List UInt8) : Option (List UInt8) :=
  if value.all fun b => (32 ≤ b && b < 127) || b = 9 then some value else none

/-- `str::trim`, on what `to_str` lets through. -/
def trim (text : List UInt8) : List UInt8 :=
  let blank := fun b : UInt8 => b = 32 || b = 9
  ((text.dropWhile blank).reverse.dropWhile blank).reverse

/-! ## The client of a request -/

@[ext]
structure SocketAddr where
  ip : IpAddr
  port : Nat
deriving DecidableEq

structure TrustedProxyConfig where
  cidrs : List IpNet

open HeaderMap

def TrustedProxyConfig.isTrusted (trusted : TrustedProxyConfig) (ip : IpAddr) : Bool :=
  trusted.cidrs.any fun cidr => cidr.contains ip

section Resolve

-- `str::parse` at `IpAddr`
variable (parse : List UInt8 → Option IpAddr) (trusted : TrustedProxyConfig) (headers : HeaderMap)

def singleIpHeader (name : String) : Option IpAddr :=
  ((((headers.get name).bind toStr).map trim).filter (· ≠ [])).bind parse

/-- The loop over the hops, the last one first. -/
def searchHops : List (List UInt8) → Option IpAddr
  | [] => none
  | hop :: rest =>
    if trim hop = [] then searchHops rest
    else
      match parse (trim hop) with
      | none => none
      | some ip => if trusted.isTrusted ip then searchHops rest else some ip

def hops (line : List UInt8) : List (List UInt8) := line.splitOn 44

def rightmostUntrustedXForwardedFor : Option IpAddr := do
  let value ← headers.get headerXForwardedFor
  let value ← toStr value
  searchHops parse trusted (hops value).reverse

def trustedProxyClientIp : Option IpAddr :=
  ((singleIpHeader parse headers headerTrueClientIp).or (singleIpHeader parse headers headerXRealIp)).or
    (rightmostUntrustedXForwardedFor parse trusted headers)

def stripForwardedHeaders : HeaderMap := forwardedHeaderNames.foldl remove headers

/-- The client and the headers that are left. -/
def resolveTrustedProxyHeaders (peer : SocketAddr) : SocketAddr × HeaderMap :=
  if !trusted.isTrusted peer.ip then (peer, stripForwardedHeaders headers)
  else
    match trustedProxyClientIp parse trusted headers with
    | some ip => (⟨ip, peer.port⟩, headers)
    | none => (peer, headers)

/-! ## What a proxy forwards -/

/-- A hop that the search passes: blank, or a trusted proxy. -/
def IsProxy (hop : List UInt8) : Prop :=
  trim hop = [] ∨ ∃ ip, parse (trim hop) = some ip ∧ trusted.isTrusted ip = true

/-- The list ends in the client, followed only by trusted proxies. -/
def EndsInClient (list : List (List UInt8)) (client : IpAddr) : Prop :=
  ∃ before hop proxies, list = before ++ hop :: proxies ∧ (trim hop ≠ [] ∧
    parse (trim hop) = some client ∧ trusted.isTrusted client = false) ∧
    ∀ proxy ∈ proxies, IsProxy parse trusted proxy

variable {parse trusted headers} {list : List (List UInt8)} {client : IpAddr} {name : String}

lemma searchHops_cons {hop : List UInt8} : searchHops parse trusted (hop :: list) = some client ↔
    (trim hop ≠ [] ∧ parse (trim hop) = some client ∧ trusted.isTrusted client = false) ∨
      (IsProxy parse trusted hop ∧ searchHops parse trusted list = some client) := by
  rw [searchHops]
  grind [IsProxy]

/-- The search finds the client a list ends in. -/
theorem searchHops_iff :
    searchHops parse trusted list.reverse = some client ↔ EndsInClient parse trusted list client := by
  have hreversed : ∀ l : List (List UInt8), searchHops parse trusted l = some client ↔
      ∃ proxies hop rest, l = proxies ++ hop :: rest ∧ (trim hop ≠ [] ∧
        parse (trim hop) = some client ∧ trusted.isTrusted client = false) ∧
        ∀ proxy ∈ proxies, IsProxy parse trusted proxy := by
    intro l
    induction l with
    | nil => simp [searchHops]
    | cons first l ih =>
      rw [searchHops_cons, ih]
      constructor
      · rintro (hclient | ⟨hproxy, proxies, hop, rest, rfl, hclient, hproxies⟩)
        · exact ⟨[], first, l, rfl, hclient, by simp⟩
        · exact ⟨first :: proxies, hop, rest, rfl, hclient, by simpa using ⟨hproxy, hproxies⟩⟩
      · rintro ⟨proxies, hop, rest, heq, hclient, hproxies⟩
        cases proxies with
        | nil =>
          obtain ⟨rfl, rfl⟩ := List.cons.inj heq
          exact .inl hclient
        | cons proxy proxies =>
          obtain ⟨rfl, rfl⟩ := List.cons.inj heq
          obtain ⟨hproxy, hproxies⟩ := forall_mem_cons.mp hproxies
          exact .inr ⟨hproxy, proxies, hop, rest, rfl, hclient, hproxies⟩
  rw [hreversed]
  constructor
  · rintro ⟨proxies, hop, rest, heq, hclient, hproxies⟩
    exact ⟨rest.reverse, hop, proxies.reverse, by simpa using congrArg List.reverse heq, hclient,
      by simpa using hproxies⟩
  · rintro ⟨before, hop, proxies, rfl, hclient, hproxies⟩
    exact ⟨proxies.reverse, hop, before.reverse, by simp, hclient, by simpa using hproxies⟩

lemma rightmost_iff : rightmostUntrustedXForwardedFor parse trusted headers = some client ↔
    ∃ line, headers.get headerXForwardedFor = some line ∧ toStr line = some line ∧
      EndsInClient parse trusted (hops line) client := by
  have hself : ∀ {line text}, toStr line = some text → text = line := by
    intro line text h
    unfold toStr at h
    split at h
    · exact (Option.some.inj h).symm
    · cases h
  simp only [rightmostUntrustedXForwardedFor, bind_eq_bind, bind_eq_some_iff, searchHops_iff]
  constructor
  · rintro ⟨line, hline, text, htext, hends⟩
    obtain rfl := hself htext
    exact ⟨text, hline, htext, hends⟩
  · rintro ⟨line, hline, htext, hends⟩
    exact ⟨line, hline, line, htext, hends⟩

lemma get_remove_of_none {other : String} (h : headers.get name = none) :
    (headers.remove other).get name = none := by
  simp only [HeaderMap.get, getAll, remove, head?_eq_none_iff, map_eq_nil_iff,
    filter_eq_nil_iff, mem_filter] at h ⊢
  exact fun line hline => h line hline.1

/-- Every name that is removed on the way is gone at the end. -/
theorem get_removeAll {names : List String} (h : name ∈ names ∨ headers.get name = none) :
    (names.foldl remove headers).get name = none := by
  induction names generalizing headers with
  | nil => simpa using h
  | cons first names ih =>
    refine ih ?_
    rcases h with h | h
    · rcases mem_cons.mp h with rfl | h
      · exact .inr (by simp [HeaderMap.get, getAll, remove])
      · exact .inl h
    · exact .inr (get_remove_of_none h)

end Resolve

/-- Behind a trusted peer the client that the joined lines end in is found exactly where the first line
alone is printable and ends in it, as it is where there is one line; an untrusted peer is the client
itself, and no forwarding header is left. -/
theorem forwarded_client_is_read_from_the_first_line (parse : List UInt8 → Option IpAddr)
    (trusted : TrustedProxyConfig) (headers : HeaderMap) (peer : SocketAddr) :
    (trusted.isTrusted peer.ip = true → headers.get headerTrueClientIp = none →
      headers.get headerXRealIp = none → ∀ client,
      EndsInClient parse trusted ((headers.getAll headerXForwardedFor).flatMap hops) client →
      ((resolveTrustedProxyHeaders parse trusted headers peer).1 = ⟨client, peer.port⟩ ↔
        ∃ line, headers.get headerXForwardedFor = some line ∧ toStr line = some line ∧
          EndsInClient parse trusted (hops line) client) ∧
      ∀ line, headers.getAll headerXForwardedFor = [line] → toStr line = some line →
        (resolveTrustedProxyHeaders parse trusted headers peer).1 = ⟨client, peer.port⟩) ∧
    (trusted.isTrusted peer.ip = false →
      (resolveTrustedProxyHeaders parse trusted headers peer).1 = peer ∧
      ∀ name ∈ forwardedHeaderNames,
        (resolveTrustedProxyHeaders parse trusted headers peer).2.get name = none) := by
  constructor
  · intro hpeer htrue hreal client hends
    have hclient : (resolveTrustedProxyHeaders parse trusted headers peer).1 = ⟨client, peer.port⟩ ↔
        rightmostUntrustedXForwardedFor parse trusted headers = some client := by
      have hne : peer.ip ≠ client := by
        rintro rfl
        obtain ⟨_, _, _, _, hclient, _⟩ := hends
        exact absurd hpeer (by simp [hclient.2.2])
      simp only [resolveTrustedProxyHeaders, hpeer, trustedProxyClientIp, singleIpHeader, htrue, hreal]
      cases rightmostUntrustedXForwardedFor parse trusted headers with
      | none => simpa [SocketAddr.ext_iff] using fun h => absurd h hne
      | some ip => simp
    rw [hclient, rightmost_iff]
    refine ⟨Iff.rfl, fun line hline htext => ⟨line, ?_, htext, ?_⟩⟩
    · rw [HeaderMap.get, hline, head?_cons]
    · simpa [hline] using hends
  · intro hpeer
    simp only [resolveTrustedProxyHeaders, hpeer, Bool.not_false, if_true]
    exact ⟨trivial, fun name hname => get_removeAll (.inl hname)⟩

/-! ## A line of its own -/

def headerText (text : String) : List UInt8 := text.toList.map Text.asciiByte

/-- Reads an address without a zone. -/
def readAddress (text : List UInt8) : Option IpAddr :=
  match parseAddr (String.ofList (text.map fun b => Char.ofNat b.toNat)) with
  | .ok (ip, none) => some ip
  | _ => none

def tenNet : TrustedProxyConfig := ⟨[⟨.ofNat .v4 0x0a000000, 8, by decide⟩]⟩

def proxyPeer : SocketAddr := ⟨.ofNat .v4 0x0a000001, 4711⟩

/-- A client sends an address of its choice, and the proxy adds the client's on a line of its own. -/
def addedLine : HeaderMap :=
  [(headerXForwardedFor, headerText "192.0.2.1"), (headerXForwardedFor, headerText "203.0.113.9")]

/-- The proxy adds the address to the client's line. -/
def sameLine : HeaderMap := [(headerXForwardedFor, headerText "192.0.2.1, 203.0.113.9")]

theorem client_of_sameLine :
    EndsInClient readAddress tenNet ((sameLine.getAll headerXForwardedFor).flatMap hops)
      (.ofNat .v4 0xcb007109) ∧
    (resolveTrustedProxyHeaders readAddress tenNet sameLine proxyPeer).1 =
      ⟨.ofNat .v4 0xcb007109, 4711⟩ := by
  have hends : EndsInClient readAddress tenNet ((sameLine.getAll headerXForwardedFor).flatMap hops)
      (.ofNat .v4 0xcb007109) := searchHops_iff.mp (by decide +kernel)
  refine ⟨hends, ?_⟩
  exact ((forwarded_client_is_read_from_the_first_line readAddress tenNet sameLine proxyPeer).1
    (by decide) rfl rfl _ hends).2 _ rfl (by decide +kernel)

theorem client_chooses_its_address :
    tenNet.isTrusted proxyPeer.ip = true ∧
    addedLine.get headerTrueClientIp = none ∧ addedLine.get headerXRealIp = none ∧
    EndsInClient readAddress tenNet ((addedLine.getAll headerXForwardedFor).flatMap hops)
      (.ofNat .v4 0xcb007109) ∧
    (resolveTrustedProxyHeaders readAddress tenNet addedLine proxyPeer).1 =
      ⟨.ofNat .v4 0xc0000201, 4711⟩ :=
  ⟨by decide, rfl, rfl, searchHops_iff.mp (by decide +kernel), by decide +kernel⟩

end Headscale.Serve
