import Headscale.Lib.Collection
import Headscale.Policy.Rule

/-!
# Reducing a filter to one node

Before a filter is sent to a node it is cut down to the destinations that concern the node. Rules
with destination ports keep the entries that meet an address or a route of the node. Capability
grants are narrowed to the node's own addresses and to the destinations its subnet routes meet.

The reduction changes nothing for the traffic that reaches the node, and it adds nothing.
-/

namespace Headscale.Policy

open GoNetip Collection List

/-! ## Model -/

def isExitRoute (route : String) : Bool := route = "0.0.0.0/0" ∨ route = "::/0"

/-- Zoned addresses are in no prefix. -/
def netContainsAddr (net : IpNet) (addr : String) : Bool :=
  match parseAddr addr with
  | .ok (ip, none) => net.contains ip
  | _ => false

def netsOverlap (a b : IpNet) : Bool := (ipnetInterval a).toSpan.Overlaps (ipnetInterval b).toSpan

def isSingleIp (net : IpNet) : Bool := net.prefixLen = net.addr.family.bits

/-- The host prefix of an address, its zone dropped. -/
def addrPrefixString (addr : String) : Option String :=
  match parseAddr addr with
  | .ok (ip, _) => some (hostNet ip).toString
  | .error _ => none

/-- The order destinations are sorted in: as prefixes, as text where one of them is none. -/
def DestinationLe (a b : String) : Prop := (prefixCompare a b).getD (compare a b) ≠ .gt

instance : DecidableRel DestinationLe := fun _ _ => inferInstanceAs (Decidable (_ ≠ _))

/-- What a destination leaves at the node's own addresses: itself when it is a single address of the
node, and otherwise the host prefixes of the addresses inside it. -/
def ownDestinations (node : PacketFilterNode) (dst : String) : List String :=
  match parsePrefixNet dst with
  | none => []
  | some net =>
    if isSingleIp net then
      if node.addrs.any (netContainsAddr net) then [net.toString] else []
    else
      node.addrs.filterMap fun addr =>
        if netContainsAddr net addr then addrPrefixString addr else none

/-- A destination that meets a subnet route of the node is kept whole. -/
def routedDestinations (node : PacketFilterNode) (dst : String) : List String :=
  match parsePrefixNet dst with
  | none => []
  | some net =>
    if node.routes.any fun route =>
        !isExitRoute route && (parsePrefixNet route).any (netsOverlap net) then
      [net.toString]
    else []

/-- The destinations of a grant at the node: own addresses first, then routed ones, without
repetitions and sorted. -/
def reducedDestinations (node : PacketFilterNode) (dsts : List String) : List String :=
  ((dsts.flatMap (ownDestinations node) ++ dsts.flatMap (routedDestinations node)).foldl
    pushUnique []).insertionSort DestinationLe

def reduceCapGrant (node : PacketFilterNode) (grant : CapGrant) : Option CapGrant :=
  let dsts := reducedDestinations node grant.dsts
  if dsts = [] then none else some { dsts := dsts, capMap := grant.capMap }

def reduceCapGrantRuleForNode (rule : FilterRule) (node : PacketFilterNode) : Option FilterRule :=
  let capGrant := rule.capGrant.filterMap (reduceCapGrant node)
  if capGrant = [] then none else some { srcIps := rule.srcIps, capGrant := capGrant }

/-- The entry meets an address or a route of the node. -/
def keepsDestination (node : PacketFilterNode) (destination : NetPortRange) : Bool :=
  match IpSet.fromFilterString destination.ip with
  | none => false
  | some expanded => expanded.containsNode node || node.routes.any expanded.overlapsPrefix

def reduceRule (node : PacketFilterNode) (rule : FilterRule) : Option FilterRule :=
  if rule.capGrant ≠ [] then reduceCapGrantRuleForNode rule node
  else
    let dstPorts := rule.dstPorts.filter (keepsDestination node)
    if dstPorts = [] then none else some { rule with dstPorts := dstPorts }

def reduceFilterRulesForNode (rules : List FilterRule) (node : PacketFilterNode) :
    List FilterRule :=
  rules.filterMap (reduceRule node)

/-! ## Port entries -/

variable {node : PacketFilterNode}

/-- The entry is kept when the node has an address or a route at one of its addresses. -/
theorem keepsDestination_iff {destination : NetPortRange} :
    keepsDestination node destination = true ↔
      ∃ ip, FilterStringMem destination.ip ip ∧ (node.HasAddress ip ∨ node.Routes ip) := by
  unfold keepsDestination FilterStringMem
  cases IpSet.fromFilterString destination.ip with
  | none => simp
  | some set =>
    simp only [Bool.or_eq_true, IpSet.containsNode_iff, any_eq_true,
      IpSet.overlapsPrefix_iff, Option.mem_def,
      Option.some.injEq, exists_eq_left']
    constructor
    · rintro (⟨ip, haddr, hmem⟩ | ⟨route, hroute, s, hs, ip, hsip, hmem⟩)
      · exact ⟨ip, hmem, .inl haddr⟩
      · exact ⟨ip, hmem, .inr ⟨route, hroute, s, hs, hsip⟩⟩
    · rintro ⟨ip, hmem, haddr | ⟨route, hroute, s, hs, hsip⟩⟩
      · exact .inl ⟨ip, haddr, hmem⟩
      · exact .inr ⟨route, hroute, s, hs, ip, hsip, hmem⟩

variable {rule : FilterRule}

/-- A rule with destination ports is reduced to the entries that concern the node. -/
theorem reduceRule_ports (h : rule.capGrant = []) {reduced : FilterRule}
    (hr : reduceRule node rule = some reduced) :
    reduced = { rule with dstPorts := rule.dstPorts.filter (keepsDestination node) } := by
  rw [reduceRule, if_neg (by simp [h])] at hr
  simp only at hr
  split at hr
  · cases hr
  · exact (Option.some.inj hr).symm

lemma reduceRule_eq_some (h : rule.capGrant = []) {d : NetPortRange} (hd : d ∈ rule.dstPorts)
    (hkeep : keepsDestination node d = true) :
    reduceRule node rule =
      some { rule with dstPorts := rule.dstPorts.filter (keepsDestination node) } := by
  have hne : rule.dstPorts.filter (keepsDestination node) ≠ [] :=
    ne_nil_of_mem (mem_filter.mpr ⟨hd, hkeep⟩)
  rw [reduceRule, if_neg (by simp [h])]
  exact if_neg hne

/-! ## Capability grants -/

lemma netContainsAddr_iff {net : IpNet} {addr : String} :
    netContainsAddr net addr = true ↔
      ∃ ip, parseAddr addr = .ok (ip, none) ∧ net.contains ip = true := by
  unfold netContainsAddr
  split
  · rename_i ip hip
    simp [hip]
  · rename_i hno
    simp only [Bool.false_eq_true, false_iff, not_exists, not_and]
    intro ip hip
    exact absurd hip (hno ip)

/-- What a destination leaves at the node's own addresses lies inside it. -/
theorem ownDestinations_sound {dst d : String} {ip : IpAddr} (hd : d ∈ ownDestinations node dst)
    (hip : PrefixMem d ip) : PrefixMem dst ip := by
  unfold ownDestinations at hd
  cases hnet : parsePrefixNet dst with
  | none => simp [hnet] at hd
  | some net =>
    rw [prefixMem_iff]
    refine ⟨net, hnet, ?_⟩
    simp only [hnet] at hd
    split at hd
    · split at hd
      · obtain rfl := mem_singleton.mp hd
        exact (prefixMem_toString net ip).mp hip
      · simp at hd
    · obtain ⟨addr, -, hsome⟩ := mem_filterMap.mp hd
      split at hsome
      · rename_i hin
        obtain ⟨a, ha, hcontains⟩ := netContainsAddr_iff.mp hin
        obtain rfl : (hostNet a).toString = d := by simpa [addrPrefixString, ha] using hsome
        obtain rfl := (contains_hostNet a ip).mp ((prefixMem_toString _ _).mp hip)
        exact hcontains
      · cases hsome

/-- An own address inside a destination stays covered. -/
theorem ownDestinations_complete {dst : String} {ip : IpAddr} (haddr : node.HasAddress ip)
    (hip : PrefixMem dst ip) : ∃ d ∈ ownDestinations node dst, PrefixMem d ip := by
  obtain ⟨net, hnet, hcontains⟩ := prefixMem_iff.mp hip
  obtain ⟨addr, hmem, hparse⟩ := haddr
  rw [Option.mem_def] at hnet
  have hin : netContainsAddr net addr = true := netContainsAddr_iff.mpr ⟨ip, hparse, hcontains⟩
  unfold ownDestinations
  simp only [hnet]
  split
  · rw [if_pos (any_eq_true.mpr ⟨addr, hmem, hin⟩)]
    exact ⟨_, mem_singleton_self _, (prefixMem_toString net ip).mpr hcontains⟩
  · refine ⟨(hostNet ip).toString, mem_filterMap.mpr ⟨addr, hmem, ?_⟩, ?_⟩
    · simp [hin, addrPrefixString, hparse]
    · exact (prefixMem_toString _ _).mpr ((contains_hostNet ip ip).mpr rfl)

/-- A routed destination is the destination itself. -/
theorem routedDestinations_sound {dst d : String} {ip : IpAddr}
    (hd : d ∈ routedDestinations node dst) (hip : PrefixMem d ip) : PrefixMem dst ip := by
  unfold routedDestinations at hd
  cases hnet : parsePrefixNet dst with
  | none => simp [hnet] at hd
  | some net =>
    simp only [hnet] at hd
    split at hd
    · obtain rfl := mem_singleton.mp hd
      exact prefixMem_iff.mpr ⟨net, hnet, (prefixMem_toString net ip).mp hip⟩
    · simp at hd

lemma mem_reducedDestinations {dsts : List String} {d : String} :
    d ∈ reducedDestinations node dsts ↔
      (∃ dst ∈ dsts, d ∈ ownDestinations node dst) ∨
        ∃ dst ∈ dsts, d ∈ routedDestinations node dst := by
  rw [reducedDestinations, (perm_insertionSort _ _).mem_iff, mem_foldl_pushUnique]
  simp

variable {grant reduced : CapGrant} {dst : IpAddr}

/-- The destinations of a reduced grant lie inside the destinations of the grant. -/
theorem reduceCapGrant_destination (hr : reduceCapGrant node grant = some reduced)
    (hdst : ∃ d ∈ reduced.dsts, PrefixMem d dst) : ∃ d ∈ grant.dsts, PrefixMem d dst := by
  simp only [reduceCapGrant] at hr
  split at hr <;> cases hr
  obtain ⟨d, hd, hdst⟩ := hdst
  rcases mem_reducedDestinations.mp hd with ⟨whole, hmem, hown⟩ | ⟨whole, hmem, hrouted⟩
  · exact ⟨whole, hmem, ownDestinations_sound hown hdst⟩
  · exact ⟨whole, hmem, routedDestinations_sound hrouted hdst⟩

variable {cap : String} {values : Option (List String)}

/-- Reducing a grant gives nothing new. -/
theorem reduceCapGrant_sound (hr : reduceCapGrant node grant = some reduced)
    (hgives : reduced.Gives dst cap values) : grant.Gives dst cap values := by
  obtain ⟨hdst, hcap⟩ := hgives
  refine ⟨reduceCapGrant_destination hr hdst, .inl ?_⟩
  simp only [reduceCapGrant] at hr
  split at hr <;> cases hr
  simpa using hcap

/-- Reducing a grant keeps what it gives at the node's own addresses. -/
theorem reduceCapGrant_complete {grant : CapGrant} (hcaps : grant.caps = [])
    (haddr : node.HasAddress dst) (hgives : grant.Gives dst cap values) :
    ∃ reduced, reduceCapGrant node grant = some reduced ∧ reduced.Gives dst cap values := by
  obtain ⟨⟨whole, hmem, hdst⟩, hcap⟩ := hgives
  obtain ⟨d, hown, hd⟩ := ownDestinations_complete haddr hdst
  have hreduced : d ∈ reducedDestinations node grant.dsts :=
    mem_reducedDestinations.mpr (.inl ⟨whole, hmem, hown⟩)
  refine ⟨{ dsts := reducedDestinations node grant.dsts, capMap := grant.capMap }, ?_, ?_, ?_⟩
  · simp only [reduceCapGrant]
    rw [if_neg (ne_nil_of_mem hreduced)]
  · exact ⟨d, hreduced, hd⟩
  · exact .inl (hcap.resolve_right (by simp [hcaps]))

/-! ## Rules -/

/-- A rule as the compiler emits it: destination ports or capability grants, never both, and no
entries of the deprecated capability list. -/
structure FilterRule.Emitted (rule : FilterRule) : Prop where
  exclusive : rule.dstPorts = [] ∨ rule.capGrant = []
  noLegacyCaps : ∀ grant ∈ rule.capGrant, grant.caps = []

/-- A rule with capability grants is reduced grant by grant. -/
theorem reduceRule_caps (h : rule.capGrant ≠ []) {reduced : FilterRule}
    (hr : reduceRule node rule = some reduced) :
    reduced =
      { srcIps := rule.srcIps, capGrant := rule.capGrant.filterMap (reduceCapGrant node) } := by
  rw [reduceRule, if_pos h, reduceCapGrantRuleForNode] at hr
  split at hr
  · cases hr
  · exact (Option.some.inj hr).symm

/-- Reducing a rule adds no packet. -/
theorem reduceRule_accepts {rule reduced : FilterRule} (hr : reduceRule node rule = some reduced)
    {packet : Packet} (h : reduced.Accepts packet) : rule.Accepts packet := by
  by_cases hcap : rule.capGrant = []
  · obtain rfl := reduceRule_ports hcap hr
    obtain ⟨hsrc, hproto, d, hd, hmatch⟩ := h
    exact ⟨hsrc, hproto, d, (mem_filter.mp hd).1, hmatch⟩
  · obtain rfl := reduceRule_caps hcap hr
    obtain ⟨-, -, d, hd, -⟩ := h
    simp at hd

/-- Reducing a rule adds no capability. -/
theorem reduceRule_grants {rule reduced : FilterRule} (hr : reduceRule node rule = some reduced)
    {src dst : IpAddr} (h : reduced.Grants src dst cap values) :
    rule.Grants src dst cap values := by
  by_cases hcap : rule.capGrant = []
  · obtain rfl := reduceRule_ports hcap hr
    exact h
  · obtain rfl := reduceRule_caps hcap hr
    obtain ⟨hsrc, narrowed, hmem, hgives⟩ := h
    obtain ⟨grant, hgrant, hnarrowed⟩ := mem_filterMap.mp hmem
    exact ⟨hsrc, grant, hgrant, reduceCapGrant_sound hnarrowed hgives⟩

lemma reduceRule_accepts_complete (hrule : rule.Emitted) {packet : Packet}
    (hdst : node.HasAddress packet.dst ∨ node.Routes packet.dst) (h : rule.Accepts packet) :
    ∃ reduced, reduceRule node rule = some reduced ∧ reduced.Accepts packet := by
  obtain ⟨hsrc, hproto, d, hd, hmatch⟩ := h
  have hcap : rule.capGrant = [] :=
    hrule.exclusive.resolve_left (ne_nil_of_mem hd)
  have hkeep : keepsDestination node d = true := keepsDestination_iff.mpr ⟨_, hmatch.1, hdst⟩
  exact ⟨_, reduceRule_eq_some hcap hd hkeep, hsrc, hproto, d,
    mem_filter.mpr ⟨hd, hkeep⟩, hmatch⟩

lemma reduceRule_grants_complete (hrule : rule.Emitted) {src dst : IpAddr}
    (haddr : node.HasAddress dst) (h : rule.Grants src dst cap values) :
    ∃ reduced, reduceRule node rule = some reduced ∧ reduced.Grants src dst cap values := by
  obtain ⟨hsrc, grant, hgrant, hgives⟩ := h
  obtain ⟨narrowed, hnarrowed, hgives'⟩ :=
    reduceCapGrant_complete (hrule.noLegacyCaps grant hgrant) haddr hgives
  have hmem : narrowed ∈ rule.capGrant.filterMap (reduceCapGrant node) :=
    mem_filterMap.mpr ⟨grant, hgrant, hnarrowed⟩
  refine ⟨{ srcIps := rule.srcIps, capGrant := rule.capGrant.filterMap (reduceCapGrant node) },
    ?_, hsrc, narrowed, hmem, hgives'⟩
  rw [reduceRule, if_pos (ne_nil_of_mem hgrant)]
  exact if_neg (ne_nil_of_mem hmem)

lemma mem_reduceFilterRulesForNode {rules : List FilterRule} {reduced : FilterRule} :
    reduced ∈ reduceFilterRulesForNode rules node ↔
      ∃ rule ∈ rules, reduceRule node rule = some reduced := mem_filterMap

/-! ## The reduced filter -/

/-- For rules as the compiler emits them, the reduced filter decides every packet to an address or a
route of the node as the whole filter does, still grants every capability the whole filter grants at
the node's own addresses, and has no rule that accepts or grants anything the whole filter does
not. -/
theorem reduceFilterRulesForNode_preserves (rules : List FilterRule) (node : PacketFilterNode)
    (hrules : ∀ rule ∈ rules, rule.Emitted) :
    (∀ packet : Packet, node.HasAddress packet.dst ∨ node.Routes packet.dst →
      (Accepts (reduceFilterRulesForNode rules node) packet ↔ Accepts rules packet)) ∧
    (∀ src dst cap values, node.HasAddress dst → Grants rules src dst cap values →
      Grants (reduceFilterRulesForNode rules node) src dst cap values) ∧
    ∀ reduced ∈ reduceFilterRulesForNode rules node,
      (∀ packet, reduced.Accepts packet → Accepts rules packet) ∧
      ∀ src dst cap values, reduced.Grants src dst cap values →
        Grants rules src dst cap values := by
  have hsound : ∀ reduced ∈ reduceFilterRulesForNode rules node,
      ∀ packet, reduced.Accepts packet → Accepts rules packet := by
    intro reduced hmem packet h
    obtain ⟨rule, hrule, hr⟩ := mem_reduceFilterRulesForNode.mp hmem
    exact ⟨rule, hrule, reduceRule_accepts hr h⟩
  refine ⟨?_, ?_, ?_⟩
  · intro packet hdst
    constructor
    · rintro ⟨reduced, hmem, h⟩
      exact hsound reduced hmem packet h
    · rintro ⟨rule, hrule, h⟩
      obtain ⟨reduced, hr, h'⟩ := reduceRule_accepts_complete (hrules rule hrule) hdst h
      exact ⟨reduced, mem_reduceFilterRulesForNode.mpr ⟨rule, hrule, hr⟩, h'⟩
  · rintro src dst cap values haddr ⟨rule, hrule, h⟩
    obtain ⟨reduced, hr, h'⟩ := reduceRule_grants_complete (hrules rule hrule) haddr h
    exact ⟨reduced, mem_reduceFilterRulesForNode.mpr ⟨rule, hrule, hr⟩, h'⟩
  · intro reduced hmem
    refine ⟨hsound reduced hmem, ?_⟩
    intro src dst cap values h
    obtain ⟨rule, hrule, hr⟩ := mem_reduceFilterRulesForNode.mp hmem
    exact ⟨rule, hrule, reduceRule_grants hr h⟩

/-- A router of `10.0.0.0/8` at `100.64.0.1`. -/
def routerNode : PacketFilterNode :=
  { id := 1, addrs := ["100.64.0.1"], routes := ["10.0.0.0/8"] }

/-- One rule with destination ports and one with a capability, both wider than the node. -/
def routerRules : List FilterRule :=
  [{ srcIps := ["100.64.0.2"], ipProto := [6],
     dstPorts := [⟨"10.1.0.0/16", ⟨22, 22⟩⟩, ⟨"192.168.0.0/24", ⟨22, 22⟩⟩] },
   { srcIps := ["*"],
     capGrant := [{ dsts := ["100.64.0.0/10"], capMap := [("cap", none)] }] }]

theorem routerRules_preserved :
    (∀ rule ∈ routerRules, rule.Emitted) ∧
    Accepts (reduceFilterRulesForNode routerRules routerNode)
      ⟨.v4 0x64400002, 6, .v4 0x0a010203, 22⟩ ∧
    Grants (reduceFilterRulesForNode routerRules routerNode)
      (.v4 0x64400002) (.v4 0x64400001) "cap" none := by
  have hrules : ∀ rule ∈ routerRules, rule.Emitted := by
    intro rule hrule
    simp only [routerRules, mem_cons, not_mem_nil, or_false] at hrule
    rcases hrule with rfl | rfl <;> exact ⟨by simp, by simp⟩
  obtain ⟨haccepts, hgrants, -⟩ := reduceFilterRulesForNode_preserves routerRules routerNode hrules
  refine ⟨hrules, (haccepts _ (.inr ?_)).mpr ?_, hgrants _ _ _ _ ?_ ?_⟩
  · exact ⟨"10.0.0.0/8", by decide, by decide +kernel⟩
  · decide +kernel
  · exact ⟨"100.64.0.1", by decide, by decide +kernel⟩
  · exact ⟨_, mem_cons_of_mem _ mem_cons_self, ⟨"*", by decide, by decide +kernel⟩,
      _, mem_cons_self, ⟨"100.64.0.0/10", by decide, by decide +kernel⟩, by decide⟩

end Headscale.Policy
