import Headscale.Policy.Store

/-!
# Policy tests

A policy may carry tests: a source, and destinations that it must or must not reach. They are
evaluated against the global filter compiled from the policy. A destination counts as reached when
every prefix of the source overlaps an allowing rule, and a rule allows a destination when it covers
a whole port range of it. A passed denial therefore speaks about some prefix of the source and about
whole ranges, which is all of it only for a source of one prefix and for single ports.
-/

namespace Headscale.Policy

open GoNetip Collection IpSet List

/-! ## Test destinations -/

/-- The destination of a test: an alias and port ranges. -/
structure TestDestination where
  target : String
  ports : List PortRange
deriving DecidableEq, Repr

section Destination

-- `quote` is Go's `strconv.Quote`, and `json` reads a JSON string.
variable (quote : String → String) (json : String → Except String String)

/-- The text of an alias as the typed policy prints it. -/
def canonicalAlias (value : String) : Except String String :=
  match aliasPrefix value with
  | some text => .ok text
  | none =>
    if (aliasKind value).isSome then .ok value
    else .error ("invalid alias format: " ++ quote value)

def validateTagName (tag : String) : Except String Unit :=
  match Text.stripStartStr "tag:" tag with
  | none => .error ("tag must start with 'tag:', got: " ++ quote tag)
  | some rest =>
    if rest.toList.head?.any Char.isAlpha then .ok ()
    else .error "tag names must start with a letter, after 'tag:'"

def knownAutogroups : List String :=
  ["autogroup:internet", "autogroup:member", "autogroup:nonroot", "autogroup:tagged",
    "autogroup:self", "autogroup:danger-all"]

def validateGoAclAliasSyntax (target : String) : Except String Unit :=
  (canonicalAlias quote target).bind fun _ =>
    match aliasKind target with
    | some .tag => validateTagName quote target
    | some .autoGroup =>
      if target ∈ knownAutogroups then .ok ()
      else
        .error ("invalid autogroup: got " ++ quote target ++ ", must be one of [" ++
          " ".intercalate knownAutogroups ++ "]")
    | _ => .ok ()

def bracketsError : String := "square brackets are only valid around IPv6 addresses"

/-- Takes the brackets off an IPv6 address in front of a port or a prefix length. -/
def normalizeBracketedIpv6Destination (input : String) : Except String String :=
  if input.toList.head? ≠ some '[' then .ok input
  else
    match Text.splitOnce ']' input.toList with
    | none => .error bracketsError
    | some (before, rest) =>
      let host := String.ofList (before.drop 1)
      match parseAddr host with
      | .ok (.v6 _, _) =>
        if rest.head? = some ':' ∨ rest.head? = some '/' then .ok (host ++ String.ofList rest)
        else .error (bracketsError ++ ": " ++ quote input)
      | _ => .error (bracketsError ++ ": " ++ quote host)

def splitGoDestinationAndPort (input : String) : Except String (String × String) :=
  (normalizeBracketedIpv6Destination quote input).bind fun input =>
    match Text.rsplitOnce ':' input.toList with
    | none => .error "hostport must contain a colon (\":\")"
    | some (destination, port) =>
      if destination = [] then .error "input cannot start with a colon character"
      else if port = [] then .error "input cannot end with a colon character"
      else .ok (String.ofList destination, String.ofList port)

/-- The destination stands in quotes that are read as JSON once more. -/
def parseTestDestination (destination : String) : Except String TestDestination :=
  (json ("\"" ++ destination ++ "\"")).bind fun decoded =>
    if !Text.containsChar ':' decoded then .error "hostport must contain a colon"
    else
      (splitGoDestinationAndPort quote decoded).bind fun (target, port) =>
        match parseGoPortRanges port.toList with
        | .error error =>
          .error ("dst=" ++ quote decoded ++ ": port range " ++ quote port ++ ": " ++ error.text)
        | .ok ports =>
          (validateGoAclAliasSyntax quote target).bind fun _ =>
            (canonicalAlias quote target).map fun target => { target := target, ports := ports }

end Destination

/-! ## Running a test -/

structure PolicyCheckNode where
  id : Nat
  userId : Option Nat := none
  name : String := ""
  user : Option String := none
  addrs : List String := []
  tags : List String := []
deriving DecidableEq, Repr

structure PolicyCheckNodeSnapshot where
  node : PolicyCheckNode
  advertisedRoutes : List String := []
  approvedRoutes : List String := []
deriving DecidableEq, Repr

def PolicyCheckNodeSnapshot.activeRoutes (snapshot : PolicyCheckNodeSnapshot) : List String :=
  snapshot.advertisedRoutes.filter fun route => route ∈ snapshot.approvedRoutes

/-- Protocols other than these are tested only against rules for every protocol. -/
def testProtocols (proto : String) : List Int :=
  match proto with
  | "tcp" => [6]
  | "6" => [6]
  | "udp" => [17]
  | "17" => [17]
  | "sctp" => [132]
  | "132" => [132]
  | "" => [6, 17, 1, 58]
  | _ => []

/-- The rule is about a source that overlaps the prefix, one of the protocols, a destination that
overlaps, and a whole range of the ports. -/
def FilterRule.allowsTest (rule : FilterRule) (source : String) (protocols : List Int)
    (dsts : List String) (ports : List PortRange) : Bool :=
  (rule.srcIps.any fun raw =>
      (fromFilterString raw).any fun set => set.overlapsPrefix source) &&
    (rule.ipProto = [] || rule.ipProto.any fun protocol => protocol ∈ protocols) &&
    rule.dstPorts.any fun allowed =>
      ((fromFilterString allowed.ip).any fun set => dsts.any fun dst => set.overlapsPrefix dst) &&
        (ports = [] || ports.any fun range =>
          allowed.ports.first ≤ range.first && range.last ≤ allowed.ports.last)

section Tests

variable (quote : String → String) (json : String → Except String String)

/-- The prefixes of a test's source. A name has to be one user's where the users are known. -/
def resolveTestSource (doc : PolicyDoc) (nodes : List PacketFilterNode) (source : String) :
    Except String (List String) :=
  match canonicalAlias quote source with
  | .error error => .error ("invalid alias: " ++ error)
  | .ok target =>
    let resolved :=
      match (resolveAlias doc target nodes).checked with
      | .error errors => .error ("resolving: " ++ aliasErrorsText quote errors)
      | .ok ips => .ok (fromStrings ips).prefixes
    match doc.users with
    | none => resolved
    | some users =>
      let token := (Text.stripLastStr '@' target).getD target
      if aliasKind target ≠ some .username ∨
          users.any (fun user => user.providerIdentifier = some token) then resolved
      else
        match users.filter fun user => user.name = token ∨ user.email = token with
        | [] => .error ("resolving: user not found: token " ++ quote target)
        | [_] => resolved
        | found =>
          .error ("resolving: " ++ (AliasError.multipleUsers target
            (found.map fun user => (user.id, user.name))).text quote)

def testAllows (doc : PolicyDoc) (nodes : List PacketFilterNode) (test : PolicyTest)
    (srcs : List String) (dst : String) (rules : List FilterRule) : Except String Bool :=
  match parseTestDestination quote json dst with
  | .error error => .error ("invalid destination " ++ quote dst ++ ": " ++ error)
  | .ok destination =>
    match (resolveAlias doc destination.target nodes).checked with
    | .error errors => .error ("resolving destination: " ++ aliasErrorsText quote errors)
    | .ok ips =>
      let dsts := (fromStrings ips).prefixes
      if dsts = [] then .error ("destination resolved to no IP addresses: " ++ quote dst)
      else
        .ok (srcs.all fun source => rules.any fun rule =>
          rule.allowsTest source (testProtocols test.proto) dsts destination.ports)

/-- The failures of a test: destinations that could not be tested, then broken promises of access,
then broken denials. -/
def runPolicyTest (test : PolicyTest) (doc : PolicyDoc) (nodes : List PacketFilterNode)
    (rules : List FilterRule) : List String :=
  let protoSuffix := if test.proto = "" then "" else " (" ++ test.proto ++ ")"
  let label := test.src ++ protoSuffix
  match resolveTestSource quote doc nodes test.src with
  | .error error =>
    [label ++ ": failed to resolve source " ++ quote test.src ++ ": " ++ error]
  | .ok srcs =>
    if srcs = [] then
      [label ++ ": source " ++ quote test.src ++ " resolved to no IP addresses"]
    else
      let verdict (dst : String) := testAllows quote json doc nodes test srcs dst rules
      ((test.accept ++ test.deny).filterMap fun dst =>
        match verdict dst with
        | .error error => some (label ++ ": error testing " ++ quote dst ++ ": " ++ error)
        | .ok _ => none) ++
      (test.accept.filterMap fun dst =>
        match verdict dst with
        | .ok false =>
          some (test.src ++ " -> " ++ dst ++ protoSuffix ++ ": expected ALLOWED, got DENIED")
        | _ => none) ++
      test.deny.filterMap fun dst =>
        match verdict dst with
        | .ok true =>
          some (test.src ++ " -> " ++ dst ++ protoSuffix ++ ": expected DENIED, got ALLOWED")
        | _ => none

/-- The nodes of a check, with the active routes of the snapshot at the same place. -/
def checkNodes (nodes : List PolicyCheckNode) (snapshots : Option (List PolicyCheckNodeSnapshot)) :
    List PacketFilterNode :=
  nodes.zipIdx.map fun (node, index) =>
    { id := node.id
      userId := node.userId
      user := node.user
      addrs := node.addrs
      tags := node.tags
      routes := ((snapshots.bind fun snapshots => snapshots[index]?).map
        PolicyCheckNodeSnapshot.activeRoutes).getD [] }

/-- The global filter that tests run against. The text of the policy counts only if it belongs to the
document. -/
def testRules (readers : SourceReaders) (doc : PolicyDoc) (raw : Option String)
    (nodes : List PacketFilterNode) : Except GrantIpError (List FilterRule) :=
  match raw.filter fun raw => (readers.containerShape raw doc).isSome with
  | none => .ok (aclToGlobalFilterRules doc nodes [])
  | some raw =>
    if readers.omitsPacketFilterRules raw then .ok allowAllFilterRules
    else
      let acls := ((readers.aclDetails raw doc).map Prod.fst).getD doc.rules
      (packetFilterDocument doc acls).map fun compiled =>
        aclToGlobalFilterRules compiled nodes (readers.grantAppShapes raw)

def runPolicyTests (readers : SourceReaders) (doc : PolicyDoc) (raw : Option String)
    (nodes : List PolicyCheckNode) (snapshots : Option (List PolicyCheckNodeSnapshot)) :
    List String :=
  if doc.tests = [] then []
  else
    match testRules readers doc raw (checkNodes nodes snapshots) with
    | .error error => ["compiling policy tests: " ++ error.text quote]
    | .ok rules =>
      doc.tests.flatMap fun test =>
        runPolicyTest quote json test doc (checkNodes nodes snapshots) rules

/-- `sshFailures` are the failures of the SSH tests. -/
def checkPolicySemanticsInner (readers : SourceReaders)
    (sshFailures : PolicyDoc → List PolicyCheckNode → List String) (doc : PolicyDoc)
    (raw : Option String) (nodes : List PolicyCheckNode)
    (snapshots : Option (List PolicyCheckNodeSnapshot)) : Except String Unit :=
  let failures := [runPolicyTests quote json readers doc raw nodes snapshots, sshFailures doc nodes]
  match (failures.filter (· ≠ [])).map fun errors => "test(s) failed:\n" ++ "\n".intercalate errors with
  | [] => .ok ()
  | [error] => .error error
  | errors => .error ("multiple errors:\n\t" ++ "\n\t".intercalate errors)

end Tests

/-! ## What a passed denial says -/

/-- No entry of the rules that is about the packet covers a whole range of the ports; without ports,
no entry is about the packet. -/
def DeniesWhole (rules : List FilterRule) (ports : List PortRange) (packet : Packet) : Prop :=
  ∀ rule ∈ rules, rule.HasSource packet.src → rule.HasProtocol packet.proto →
    ∀ allowed ∈ rule.dstPorts, FilterStringMem allowed.ip packet.dst →
      ports ≠ [] ∧ ∀ range ∈ ports,
        ¬ (allowed.ports.first ≤ range.first ∧ range.last ≤ allowed.ports.last)

variable {rules : List FilterRule} {packet : Packet}

/-- Where the ports are single ones, a packet to one of them is not accepted. -/
theorem DeniesWhole.not_accepts {ports : List PortRange} (h : DeniesWhole rules ports packet)
    (hsingle : ∀ range ∈ ports, range.first = range.last)
    (hport : ports = [] ∨ ∃ range ∈ ports, range.Contains packet.port) :
    ¬ Accepts rules packet := by
  rintro ⟨rule, hrule, hsrc, hproto, allowed, hallowed, hdst, hcontains⟩
  obtain ⟨hports, hwhole⟩ := h rule hrule hsrc hproto allowed hallowed hdst
  rcases hport with hnil | ⟨range, hrange, hin⟩
  · exact hports hnil
  · refine hwhole range hrange ?_
    have hone := hsingle range hrange
    simp only [PortRange.Contains] at hin hcontains
    omega

lemma overlapsPrefix_of_mem {value raw : String} {ip : IpAddr} (hvalue : PrefixMem value ip)
    (hraw : FilterStringMem raw ip) :
    ((fromFilterString raw).any fun set => set.overlapsPrefix value) = true := by
  obtain ⟨s, hs, hsip⟩ := hvalue
  obtain ⟨set, hset, hsetip⟩ := hraw
  rw [Option.mem_def.mp hset, Option.any_some, overlapsPrefix_iff]
  exact ⟨s, hs, ip, hsip, hsetip⟩

/-- A rule that does not allow a test accepts no packet of it for a whole range. -/
theorem FilterRule.deniesWhole_of_not_allowsTest {source : String} {protocols : List Int}
    {dsts : List String} {ports : List PortRange}
    (h : ∀ rule ∈ rules, rule.allowsTest source protocols dsts ports = false)
    (hsrc : PrefixMem source packet.src) (hproto : packet.proto ∈ protocols)
    (hdst : ∃ dst ∈ dsts, PrefixMem dst packet.dst) : DeniesWhole rules ports packet := by
  intro rule hrule hsource hprotocol allowed hallowed hip
  obtain ⟨raw, hraw, hrawMem⟩ := hsource
  obtain ⟨dst, hdst, hdstMem⟩ := hdst
  have hfalse := h rule hrule
  by_contra hcovered
  have hsources : (rule.srcIps.any fun raw =>
      (fromFilterString raw).any fun set => set.overlapsPrefix source) = true :=
    any_eq_true.mpr ⟨raw, hraw, overlapsPrefix_of_mem hsrc hrawMem⟩
  have hprotocols : (decide (rule.ipProto = []) ||
      rule.ipProto.any fun protocol => decide (protocol ∈ protocols)) = true := by
    rcases hprotocol with hnil | hmem
    · simp [hnil]
    · simp only [Bool.or_eq_true, any_eq_true, decide_eq_true_eq]
      exact .inr ⟨packet.proto, hmem, hproto⟩
  have hdsts : ((fromFilterString allowed.ip).any fun set =>
      dsts.any fun dst => set.overlapsPrefix dst) = true := by
    have hoverlap := overlapsPrefix_of_mem hdstMem hip
    rw [Option.any_eq_true] at hoverlap ⊢
    obtain ⟨set, hset, hone⟩ := hoverlap
    exact ⟨set, hset, any_eq_true.mpr ⟨dst, hdst, hone⟩⟩
  have hports : (decide (ports = []) || ports.any fun range =>
      allowed.ports.first ≤ range.first && range.last ≤ allowed.ports.last) = true := by
    simp only [Bool.or_eq_true, any_eq_true, Bool.and_eq_true, decide_eq_true_eq]
    by_contra hnone
    simp only [not_or, not_exists, not_and] at hnone
    exact hcovered ⟨hnone.1, fun range hrange hcover => hnone.2 range hrange hcover.1 hcover.2⟩
  have hentry : (rule.dstPorts.any fun allowed =>
      ((fromFilterString allowed.ip).any fun set => dsts.any fun dst => set.overlapsPrefix dst) &&
        (decide (ports = []) || ports.any fun range =>
          allowed.ports.first ≤ range.first && range.last ≤ allowed.ports.last)) = true :=
    any_eq_true.mpr ⟨allowed, hallowed, by rw [hdsts, hports]; rfl⟩
  rw [FilterRule.allowsTest, hsources, hprotocols, hentry] at hfalse
  cases hfalse

section Passed

variable {quote : String → String} {json : String → Except String String} {doc : PolicyDoc}
  {nodes : List PacketFilterNode} {readers : SourceReaders} {raw : Option String}
  {rules : List FilterRule} {dst : String} {snapshots : Option (List PolicyCheckNodeSnapshot)}

lemma runPolicyTests_nil_of_check {sshFailures : PolicyDoc → List PolicyCheckNode → List String}
    {nodes : List PolicyCheckNode}
    (h : checkPolicySemanticsInner quote json readers sshFailures doc raw nodes snapshots = .ok ())
    :
    runPolicyTests quote json readers doc raw nodes snapshots = [] := by
  by_contra hfails
  simp only [checkPolicySemanticsInner] at h
  rw [filter_cons_of_pos (by simpa using hfails), map_cons] at h
  split at h
  · rename_i hnil
    cases hnil
  · cases h
  · cases h

variable {test : PolicyTest}

lemma runPolicyTests_nil {nodes : List PolicyCheckNode}
    (h : runPolicyTests quote json readers doc raw nodes snapshots = [])
    (htest : test ∈ doc.tests) :
    ∃ rules, testRules readers doc raw (checkNodes nodes snapshots) = .ok rules ∧
      runPolicyTest quote json test doc (checkNodes nodes snapshots) rules = [] := by
  unfold runPolicyTests at h
  rw [if_neg (ne_nil_of_mem htest)] at h
  split at h
  · cases h
  · rename_i rules hrules
    exact ⟨rules, hrules, flatMap_eq_nil_iff.mp h test htest⟩

lemma runPolicyTest_nil (h : runPolicyTest quote json test doc nodes rules = [])
    (hdst : dst ∈ test.deny) :
    ∃ srcs, resolveTestSource quote doc nodes test.src = .ok srcs ∧ srcs ≠ [] ∧
      testAllows quote json doc nodes test srcs dst rules = .ok false := by
  simp only [runPolicyTest] at h
  split at h
  · cases h
  rename_i srcs hsrcs
  split at h
  · cases h
  rename_i hne
  simp only [append_eq_nil_iff, filterMap_eq_nil_iff] at h
  obtain ⟨⟨herrors, -⟩, hdenials⟩ := h
  refine ⟨srcs, hsrcs, hne, ?_⟩
  have herror := herrors dst (mem_append_right _ hdst)
  have hdenial := hdenials dst hdst
  cases hverdict : testAllows quote json doc nodes test srcs dst rules with
  | error error => simp [hverdict] at herror
  | ok allowed =>
    cases allowed with
    | true => simp [hverdict] at hdenial
    | false => rfl

lemma testAllows_false {srcs : List String}
    (h : testAllows quote json doc nodes test srcs dst rules = .ok false) :
    ∃ destination ips, parseTestDestination quote json dst = .ok destination ∧
      (resolveAlias doc destination.target nodes).checked = .ok ips ∧
      ∃ source ∈ srcs, ∀ rule ∈ rules, rule.allowsTest source (testProtocols test.proto)
        (fromStrings ips).prefixes destination.ports = false := by
  unfold testAllows at h
  split at h
  · cases h
  rename_i destination hdestination
  split at h
  · cases h
  rename_i ips hips
  simp only at h
  split at h
  · cases h
  · simp only [Except.ok.injEq, all_eq_false, any_eq_true, not_exists, not_and,
      Bool.not_eq_true] at h
    exact ⟨destination, ips, hdestination, hips, h⟩

end Passed

/-- What a passed denial says: some prefix of the source reaches no address of the destination by an
entry that covers a whole range of its ports. If the source has one prefix and the destination single
ports, then no packet from the source to one of them is accepted. -/
structure DenialHolds (srcs : List String) (protocols : List Int) (destination : TestDestination)
    (ips : List String) (rules : List FilterRule) : Prop where
  somePrefix : ∃ source ∈ srcs, ∀ packet : Packet, PrefixMem source packet.src →
    packet.proto ∈ protocols → (fromStrings ips).Mem packet.dst →
    DeniesWhole rules destination.ports packet
  single : (∃ source, srcs = [source]) →
    (∀ range ∈ destination.ports, range.first = range.last) →
    ∀ packet : Packet, (∃ source ∈ srcs, PrefixMem source packet.src) →
    packet.proto ∈ protocols → (fromStrings ips).Mem packet.dst →
    (destination.ports = [] ∨ ∃ range ∈ destination.ports, range.Contains packet.port) →
    ¬ Accepts rules packet

/-- Of a policy whose check reports no failure, every denial of every test holds in the global filter
compiled from the policy. -/
theorem checkPolicySemantics_denials_hold (quote : String → String)
    (json : String → Except String String) (readers : SourceReaders)
    (sshFailures : PolicyDoc → List PolicyCheckNode → List String) (doc : PolicyDoc)
    (raw : Option String) (nodes : List PolicyCheckNode)
    (snapshots : Option (List PolicyCheckNodeSnapshot))
    (h : checkPolicySemanticsInner quote json readers sshFailures doc raw nodes snapshots = .ok ())
    (test : PolicyTest) (htest : test ∈ doc.tests) (dst : String) (hdst : dst ∈ test.deny) :
    ∃ rules srcs destination ips,
      testRules readers doc raw (checkNodes nodes snapshots) = .ok rules ∧
      resolveTestSource quote doc (checkNodes nodes snapshots) test.src = .ok srcs ∧
      parseTestDestination quote json dst = .ok destination ∧
      (resolveAlias doc destination.target (checkNodes nodes snapshots)).checked = .ok ips ∧
      DenialHolds srcs (testProtocols test.proto) destination ips rules := by
  obtain ⟨rules, hrules, htestNil⟩ := runPolicyTests_nil (runPolicyTests_nil_of_check h) htest
  obtain ⟨srcs, hsrcs, -, hverdict⟩ := runPolicyTest_nil htestNil hdst
  obtain ⟨destination, ips, hdestination, hips, source, hsource, hnone⟩ := testAllows_false hverdict
  have hdenies : ∀ packet : Packet, PrefixMem source packet.src →
      packet.proto ∈ testProtocols test.proto → (fromStrings ips).Mem packet.dst →
      DeniesWhole rules destination.ports packet := by
    intro packet hpacket hproto hmem
    rw [← fromPrefixStrings_prefixes (fromStrings ips), mem_fromPrefixStrings]
      at hmem
    obtain ⟨value, hvalue, s, hs, hip⟩ := hmem
    exact FilterRule.deniesWhole_of_not_allowsTest hnone hpacket hproto ⟨value, hvalue, s, hs, hip⟩
  refine ⟨rules, srcs, destination, ips, hrules, hsrcs, hdestination, hips,
    ⟨source, hsource, hdenies⟩, ?_⟩
  rintro ⟨only, rfl⟩ hsingle packet ⟨first, hfirst, hpacket⟩ hproto hmem hport
  obtain rfl := mem_singleton.mp hsource
  obtain rfl := mem_singleton.mp hfirst
  exact (hdenies packet hpacket hproto hmem).not_accepts hsingle hport

/-! ## A source of two prefixes -/

/-- Reads JSON strings without escapes. -/
def plainJson (text : String) : Except String String :=
  match (Text.stripStart ['"'] text.toList).bind (Text.stripLast '"') with
  | some body =>
    if body.all fun c => c ≠ '"' ∧ c ≠ '\\' ∧ ' ' ≤ c then .ok (String.ofList body)
    else .error "escaped or malformed string"
  | none => .error "not a string"

/-- One client may log in to the server; the test asks that clients may not. -/
def loginPolicy : PolicyDoc :=
  { rules := [{ src := ["100.64.0.1"], dst := ["100.64.0.9"], ports := ["tcp/22"] }],
    tests := [{ src := "tag:client", deny := ["100.64.0.9:22"] }] }

def client (id : Nat) (addr : String) : PolicyCheckNode :=
  { id := id, addrs := [addr], tags := ["tag:client"] }

/-- The test passes with a second client, and the first client's login is accepted. -/
theorem loginPolicy_passes_and_accepts :
    checkPolicySemanticsInner id plainJson noReaders (fun _ _ => []) loginPolicy none
        [client 1 "100.64.0.1", client 2 "100.64.0.5"] none = .ok () ∧
      resolveTestSource id loginPolicy
        (checkNodes [client 1 "100.64.0.1", client 2 "100.64.0.5"] none) "tag:client" =
          .ok ["100.64.0.1/32", "100.64.0.5/32"] ∧
      PrefixMem "100.64.0.1/32" (.v4 0x64400001) ∧
      parseTestDestination id plainJson "100.64.0.9:22" =
        .ok { target := "100.64.0.9/32", ports := [⟨22, 22⟩] } ∧
      testRules noReaders loginPolicy none
          (checkNodes [client 1 "100.64.0.1", client 2 "100.64.0.5"] none) =
        .ok (aclToGlobalFilterRules loginPolicy
          (checkNodes [client 1 "100.64.0.1", client 2 "100.64.0.5"] none) []) ∧
      Accepts (aclToGlobalFilterRules loginPolicy
          (checkNodes [client 1 "100.64.0.1", client 2 "100.64.0.5"] none) [])
        ⟨.v4 0x64400001, 6, .v4 0x64400009, 22⟩ :=
  ⟨by decide +kernel, by decide +kernel, by decide +kernel, by decide +kernel, rfl,
    by decide +kernel⟩

/-- With the second client alone, its login is not accepted. -/
theorem loginPolicy_denies_only_client :
    ¬ Accepts (aclToGlobalFilterRules loginPolicy (checkNodes [client 2 "100.64.0.5"] none) [])
      ⟨.v4 0x64400005, 6, .v4 0x64400009, 22⟩ := by
  obtain ⟨rules, srcs, destination, ips, hrules, hsrcs, hdestination, hips, hholds⟩ :=
    checkPolicySemantics_denials_hold id plainJson noReaders (fun _ _ => []) loginPolicy none
      [client 2 "100.64.0.5"] none (by decide +kernel)
      { src := "tag:client", deny := ["100.64.0.9:22"] } (by decide) "100.64.0.9:22" (by decide)
  cases hrules
  have hsource : resolveTestSource id loginPolicy (checkNodes [client 2 "100.64.0.5"] none)
      "tag:client" = .ok ["100.64.0.5/32"] := by decide +kernel
  cases hsrcs.symm.trans hsource
  have hparsed : parseTestDestination id plainJson "100.64.0.9:22" =
      .ok { target := "100.64.0.9/32", ports := [⟨22, 22⟩] } := by decide +kernel
  cases hdestination.symm.trans hparsed
  have hresolved : (resolveAlias loginPolicy "100.64.0.9/32"
      (checkNodes [client 2 "100.64.0.5"] none)).checked = .ok ["100.64.0.9/32"] := by
    decide +kernel
  cases hips.symm.trans hresolved
  exact hholds.single ⟨_, rfl⟩ (by simp) _ (by decide +kernel) (by decide +kernel)
    (by decide +kernel) (by decide +kernel)

end Headscale.Policy
