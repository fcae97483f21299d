import Headscale.Policy.RuntimeOrder

/-!
# Peers and filters agree

Who sees whom is decided by matchers over unreduced rules; what a node accepts is decided by the
filter it is served, which is reduced to the node and, at an exit node, has the self rules of other
users added. Whoever may send to a node, or is granted a capability at it, is its peer.
-/

namespace Headscale.Policy

open GoNetip Collection List RuleMatcher IpSet

/-! ## The map -/

namespace CompiledRuntime

lemma visible_comm (rt : CompiledRuntime) (nodes : List PacketFilterNode)
    (left right : PacketFilterNode) : rt.visible nodes left right = rt.visible nodes right left := by
  have hswap : ∀ a b c d p : Bool, (a || b || (p && (c || d))) = (b || a || (p && (d || c))) := by
    decide
  exact hswap _ _ _ _ _

/-- The ids listed as the peers of an id. -/
def peers (rt : CompiledRuntime) (nodes : List PacketFilterNode) (id : Nat) : List Nat :=
  valuesAt (rt.buildPeerMap nodes) id

variable {i : Nat} {nodes' : List PacketFilterNode} {j : Nat}

/-- Visible nodes with different ids are what makes an edge. -/
theorem mem_peerEdges {rt : CompiledRuntime} {nodes : List PacketFilterNode} :
    (i, j) ∈ rt.peerEdges nodes ↔
      ∃ a ∈ nodes, ∃ b ∈ nodes, a.id = i ∧ b.id = j ∧ i ≠ j ∧ rt.visible nodes a b = true := by
  unfold peerEdges
  rw [mem_flatMap]
  constructor
  · rintro ⟨⟨a, b⟩, hpair, hmem⟩
    obtain ⟨ha, hb⟩ := mem_of_mem_pairs hpair
    split at hmem
    · rename_i hcond
      simp only [mem_cons, not_mem_nil, or_false] at hmem
      rcases hmem with ⟨rfl, rfl⟩ | ⟨rfl, rfl⟩
      · exact ⟨a, ha, b, hb, rfl, rfl, hcond⟩
      · exact ⟨b, hb, a, ha, rfl, rfl, hcond.1.symm, visible_comm rt nodes a b ▸ hcond.2⟩
    · simp at hmem
  · rintro ⟨a, ha, b, hb, rfl, rfl, hne, hvisible⟩
    rcases mem_pairs_or ha hb (fun h => hne (h ▸ rfl)) with hpair | hpair
    · exact ⟨(a, b), hpair, by simp [hne, hvisible]⟩
    · refine ⟨(b, a), hpair, ?_⟩
      rw [visible_comm] at hvisible
      simp [hne.symm, hvisible]

lemma mem_peers {rt : CompiledRuntime} {nodes : List PacketFilterNode} :
    j ∈ rt.peers nodes i ↔ (i, j) ∈ rt.peerEdges nodes := mem_valuesAt_groupEdges

lemma peers_symm {rt : CompiledRuntime} {nodes : List PacketFilterNode}
    (h : j ∈ rt.peers nodes i) : i ∈ rt.peers nodes j := by
  rw [mem_peers, mem_peerEdges] at h ⊢
  obtain ⟨a, ha, b, hb, hi, hj, hne, hvisible⟩ := h
  exact ⟨b, hb, a, ha, hj, hi, hne.symm, visible_comm rt nodes a b ▸ hvisible⟩

lemma not_mem_peers_self (rt : CompiledRuntime) (nodes : List PacketFilterNode) (id : Nat) :
    id ∉ rt.peers nodes id := by
  rw [mem_peers, mem_peerEdges]
  rintro ⟨a, -, b, -, -, -, hne, -⟩
  exact hne rfl

/-! ## The matchers of a listed node -/

lemma peerMatchers_of_mem {rt : CompiledRuntime} {nodes : List PacketFilterNode}
    (hids : (nodes.map PacketFilterNode.id).Nodup) {node : PacketFilterNode} (hnode : node ∈ nodes) :
    rt.peerMatchers nodes node.id =
      if rt.perNode then rt.freshMatchersFor node else rt.globalMatchers := by
  have hfind : nodes.reverse.find? (fun n => n.id = node.id) = some node :=
    find_reverse_key hids hnode
  simp only [peerMatchers, hfind]

/-- The map depends on which nodes are listed and which of them are visible to each other. -/
theorem buildPeerMap_congr {rt rt' : CompiledRuntime} {nodes : List PacketFilterNode}
    (hmem : ∀ node, node ∈ nodes' ↔ node ∈ nodes)
    (hvisible : ∀ a ∈ nodes, ∀ b ∈ nodes, rt'.visible nodes' a b = rt.visible nodes a b) :
    rt'.buildPeerMap nodes' = rt.buildPeerMap nodes := by
  refine groupEdges_congr ?_
  rintro ⟨i, j⟩
  simp only [mem_peerEdges, hmem]
  constructor
  · rintro ⟨a, ha, b, hb, hi, hj, hne, h⟩
    exact ⟨a, ha, b, hb, hi, hj, hne, hvisible a ha b hb ▸ h⟩
  · rintro ⟨a, ha, b, hb, hi, hj, hne, h⟩
    exact ⟨a, ha, b, hb, hi, hj, hne, (hvisible a ha b hb).symm ▸ h⟩

/-- For a given runtime the order in which the nodes are listed does not matter. -/
theorem buildPeerMap_perm (rt : CompiledRuntime) {nodes : List PacketFilterNode}
    (hids : (nodes.map PacketFilterNode.id).Nodup) (hperm : nodes.Perm nodes') :
    rt.buildPeerMap nodes' = rt.buildPeerMap nodes := by
  have hids' : (nodes'.map PacketFilterNode.id).Nodup :=
    (hperm.map PacketFilterNode.id).nodup_iff.mp hids
  refine buildPeerMap_congr (fun x => hperm.mem_iff.symm) ?_
  intro a ha b hb
  simp only [visible, peerMatchers_of_mem hids ha, peerMatchers_of_mem hids hb,
    peerMatchers_of_mem hids' (hperm.mem_iff.mp ha),
    peerMatchers_of_mem hids' (hperm.mem_iff.mp hb)]

lemma peerMatchers_eq {rt : CompiledRuntime}
    (hglobal : rt.globalMatchers = fromRules rt.globalRules)
    {nodes : List PacketFilterNode} (hids : (nodes.map PacketFilterNode.id).Nodup)
    {node : PacketFilterNode} (hnode : node ∈ nodes) :
    rt.peerMatchers nodes node.id = fromRules (rt.visibilityRules node) := by
  rw [peerMatchers_of_mem hids hnode, hglobal]
  unfold visibilityRules freshMatchersFor
  split <;> rfl

/-- A link in either direction, in the rules of either node, makes the nodes visible; without
per-node filters both are matched against the same rules. -/
theorem visible_of_canAccess {rt : CompiledRuntime}
    (hglobal : rt.globalMatchers = fromRules rt.globalRules)
    {nodes : List PacketFilterNode} (hids : (nodes.map PacketFilterNode.id).Nodup)
    {a b : PacketFilterNode} (ha : a ∈ nodes) (hb : b ∈ nodes)
    (h : canAccess (fromRules (rt.visibilityRules a)) b a = true) :
    rt.visible nodes a b = true := by
  simp only [visible, peerMatchers_eq hglobal hids ha, peerMatchers_eq hglobal hids hb]
  by_cases hper : rt.perNode = true
  · simp [hper, h]
  · have hsame : rt.visibilityRules b = rt.visibilityRules a := by simp [visibilityRules, hper]
    simp [hsame, h]

end CompiledRuntime

/-! ## Self rules -/

/-- No address of the node carries a zone. -/
def PacketFilterNode.ZoneFree (node : PacketFilterNode) : Prop :=
  ∀ addr ∈ node.addrs, ∀ ip zone, parseAddr addr ≠ .ok (ip, some zone)

lemma fromFilterString_addr (ip : IpAddr) :
    fromFilterString ip.toString = some (.single (addressSpan ip)) := by
  have hslash : '/' ∉ ip.toString.toList :=
    not_mem_addr_toString (by decide) (by decide) (by decide) ip
  have hdash : '-' ∉ ip.toString.toList :=
    not_mem_addr_toString (by decide) (by decide) (by decide) ip
  have hstar : ip.toString ≠ "*" := by
    intro h
    have hnot : '*' ∉ ip.toString.toList :=
      not_mem_addr_toString (by decide) (by decide) (by decide) ip
    simp [h] at hnot
  have hcount : ip.toString.toList.count '-' ≠ 1 := by
    rw [count_eq_zero_of_not_mem hdash]
    decide
  rw [fromFilterString, if_neg hstar, if_neg hslash, if_neg hcount, parseAddr_toString]

variable {node : PacketFilterNode} {dst : IpAddr} {rules : List FilterRule} {value : String}

/-- The addresses of a node without zones are printed as themselves. -/
theorem hasAddress_of_nodeIpStrings (hzone : node.ZoneFree) (hvalue : value ∈ nodeIpStrings node)
    (hdst : FilterStringMem value dst) : node.HasAddress dst := by
  obtain ⟨addr, haddr, rfl⟩ := mem_map.mp hvalue
  split at hdst
  · obtain ⟨set, hset, -⟩ := hdst
    cases hset
  · rename_i ip hparse
    obtain ⟨set, hset, hmem⟩ := hdst
    rw [fromFilterString_addr] at hset
    cases hset
    obtain rfl := (mem_addressSpan ip dst).mp ((mem_single _ _).mp hmem)
    exact ⟨addr, haddr, hparse⟩
  · rename_i ip zone hparse
    exact absurd hparse (hzone addr haddr ip zone)

lemma hasAddress_of_nodeAddrPrefixes (hzone : node.ZoneFree)
    (hvalue : value ∈ nodeAddrPrefixes node) :
    ∃ ip, node.HasAddress ip ∧ value = (hostNet ip).toString := by
  obtain ⟨addr, haddr, hsome⟩ := mem_filterMap.mp hvalue
  unfold addrPrefixString at hsome
  split at hsome <;> cases hsome
  rename_i ip zone hparse
  cases zone with
  | none => exact ⟨ip, ⟨addr, haddr, hparse⟩, rfl⟩
  | some zone => exact absurd hparse (hzone addr haddr ip zone)

variable {userNodes : List PacketFilterNode} {sourcePrefixes : List String}

/-- The aggregated sources of a self grant are addresses of the user's nodes. -/
theorem hasAddress_of_nodesMatchingPrefixes (hzone : ∀ node ∈ userNodes, node.ZoneFree)
    (hdst : ∃ d ∈ (nodesMatchingPrefixes userNodes sourcePrefixes).flatMap ipsetStringToCidrs, PrefixMem d dst)
    :
    ∃ node ∈ userNodes, node.HasAddress dst := by
  obtain ⟨d, hd, hmem⟩ := hdst
  obtain ⟨value, hvalue, hd⟩ := mem_flatMap.mp hd
  simp only [nodesMatchingPrefixes] at hvalue
  split at hvalue
  · cases hvalue
  -- The printed set holds the address, so one of the host prefixes it was built from does.
  obtain ⟨s, hs, hip⟩ := hmem
  have hset := (mem_cidrSpans_strings _ dst).mp
    ⟨value, hvalue, s, mem_filterMap.mpr ⟨d, hd, hs⟩, hip⟩
  obtain ⟨host, hhost, t, ht, htip⟩ := (mem_fromStrings _ dst).mp hset
  obtain ⟨node, hnode, hhost⟩ := mem_flatMap.mp hhost
  have huser := (mem_filter.mp hnode).1
  obtain ⟨ip, hip, rfl⟩ := hasAddress_of_nodeAddrPrefixes (hzone node huser) hhost
  have hstar : (hostNet ip).toString ≠ "*" := by
    intro h
    have hslash : '/' ∈ (hostNet ip).toString.toList := by simp [IpNet.toString, IpNet.chars]
    rw [h] at hslash
    exact absurd hslash (by decide)
  rw [stringSpans, if_neg hstar, cidrSpans, ipsetStringToCidrs,
    parseIpNet_toString_net] at ht
  obtain rfl : t = ipnetInterval (hostNet ip) := by simpa using ht
  obtain rfl := (contains_hostNet ip dst).mp ((mem_ipnetInterval _ _).mp htip)
  exact ⟨node, huser, hip⟩

variable {src : IpAddr} {receiver : PacketFilterNode} {rule : FilterRule}

/-- Self rules lead to the nodes they are about only. -/
theorem hasAddress_of_selfRules {grant : FilterGrant} (hzone : ∀ node ∈ userNodes, node.ZoneFree)
    (hrule : rule ∈ selfRules grant sourcePrefixes userNodes) (hdst : rule.HasDestination dst) :
    ∃ node ∈ userNodes, node.HasAddress dst := by
  simp only [selfRules] at hrule
  split at hrule
  · cases hrule
  rcases mem_append.mp hrule with hrule | hrule
  · obtain ⟨group, -, rfl⟩ := mem_map.mp (mem_filter.mp hrule).1
    rcases hdst with ⟨d, hd, hmem⟩ | ⟨g, hg, -⟩
    · obtain ⟨node, hnode, hd⟩ := mem_flatMap.mp hd
      obtain ⟨range, -, hd⟩ := mem_flatMap.mp hd
      obtain ⟨ip, hip, rfl⟩ := mem_map.mp hd
      exact ⟨node, hnode, hasAddress_of_nodeIpStrings (hzone node hnode) hip hmem⟩
    · cases hg
  · split at hrule
    · cases hrule
    split at hrule
    · cases hrule
    rcases mem_cons.mp hrule with rfl | hrule
    · rcases hdst with ⟨d, hd, -⟩ | ⟨g, hg, d, hd, hmem⟩
      · cases hd
      · obtain ⟨node, hnode, rfl⟩ := mem_map.mp hg
        obtain ⟨ip, hip, rfl⟩ := hasAddress_of_nodeAddrPrefixes (hzone node hnode) hd
        obtain rfl := (contains_hostNet ip dst).mp ((prefixMem_toString _ _).mp hmem)
        exact ⟨node, hnode, hip⟩
    · obtain ⟨cap, -, rfl⟩ := mem_map.mp hrule
      rcases hdst with ⟨d, hd, -⟩ | ⟨g, hg, hmem⟩
      · cases hd
      · obtain rfl := mem_singleton.mp hg
        exact hasAddress_of_nodesMatchingPrefixes hzone hmem

/-- The self rules added at an exit node lead to nodes of other owners only. -/
theorem exitNodeSelfRules_destination {doc : PolicyDoc} {nodes : List PacketFilterNode}
    (hzone : ∀ node ∈ nodes, node.ZoneFree) {apps : List GrantAppShape}
    (hrule : rule ∈ exitNodeSelfRules doc nodes receiver apps) (hdst : rule.HasDestination dst) :
    ∃ node ∈ nodes, node ≠ receiver ∧ node.HasAddress dst := by
  unfold exitNodeSelfRules at hrule
  split at hrule
  · cases hrule
  obtain ⟨grant, -, hrule⟩ := mem_flatMap.mp hrule
  obtain ⟨owner, howner, hrule⟩ := mem_flatMap.mp hrule
  have hother := of_decide_eq_true (mem_filter.mp howner).2
  obtain ⟨node, hnode, haddr⟩ := hasAddress_of_selfRules
    (fun node hnode => hzone node (mem_filter.mp hnode).1) hrule hdst
  obtain ⟨hmem, howned⟩ := mem_filter.mp hnode
  obtain ⟨huntagged, hkey⟩ := of_decide_eq_true howned
  refine ⟨node, hmem, ?_, haddr⟩
  rintro rfl
  exact hother ⟨(of_decide_eq_true huntagged).1, hkey⟩

/-! ## The served filter -/

/-- A reduced filter leads nowhere the whole filter does not. -/
theorem links_of_reduce {dst : IpAddr} (h : Links (reduceFilterRulesForNode rules node) src dst) :
    Links rules src dst := by
  obtain ⟨reduced, hmem, hsrc, hdst⟩ := h
  obtain ⟨rule, hrule, hr⟩ := mem_reduceFilterRulesForNode.mp hmem
  by_cases hcap : rule.capGrant = []
  · obtain rfl := reduceRule_ports hcap hr
    refine ⟨rule, hrule, hsrc, hdst.imp ?_ id⟩
    rintro ⟨d, hd, hin⟩
    exact ⟨d, (mem_filter.mp hd).1, hin⟩
  · obtain rfl := reduceRule_caps hcap hr
    refine ⟨rule, hrule, hsrc, .inr ?_⟩
    rcases hdst with ⟨d, hd, -⟩ | ⟨narrowed, hnarrowed, hin⟩
    · cases hd
    · obtain ⟨grant, hgrant, hred⟩ := mem_filterMap.mp hnarrowed
      exact ⟨grant, hgrant, reduceCapGrant_destination hred hin⟩

/-- The filter lets the source send to the destination, or carries a capability grant between
them. -/
def Sends (rules : List FilterRule) (src dst : IpAddr) : Prop :=
  (∃ proto port, Accepts rules ⟨src, proto, dst, port⟩) ∨
    ∃ rule ∈ rules, rule.HasSource src ∧ ∃ grant ∈ rule.capGrant, ∃ d ∈ grant.dsts, PrefixMem d dst

lemma Sends.links {dst : IpAddr} (h : Sends rules src dst) :
    Links rules src dst := by
  rcases h with ⟨proto, port, rule, hrule, haccepts⟩ | ⟨rule, hrule, hsrc, hgrant⟩
  · exact ⟨rule, hrule, haccepts.1, haccepts.hasDestination⟩
  · exact ⟨rule, hrule, hsrc, .inr hgrant⟩

open CompiledRuntime

/-- What the served filter leads to at an address that no other node has is led to by the rules the
node is matched against. -/
theorem links_visibilityRules {rt : CompiledRuntime}
    (hzone : ∀ node ∈ rt.resolverNodes, node.ZoneFree) {dst : IpAddr}
    (hown : ∀ node ∈ rt.resolverNodes, node.HasAddress dst → node = receiver)
    (h : Links (rt.freshFilter receiver) src dst) :
    Links (rt.visibilityRules receiver) src dst := by
  unfold freshFilter at h
  unfold visibilityRules matcherRules
  split at h
  · rename_i hper
    rw [if_pos hper]
    split at h
    · obtain ⟨rule, hrule, hsrc, hdst⟩ := links_of_reduce h
      rcases mem_append.mp hrule with hrule | hrule
      · exact ⟨rule, hrule, hsrc, hdst⟩
      · obtain ⟨node, hnode, hne, haddr⟩ := exitNodeSelfRules_destination hzone hrule hdst
        exact absurd (hown node hnode haddr) hne
    · exact h
  · rename_i hper
    rw [if_neg hper]
    exact links_of_reduce h

/-- No two nodes share an address. -/
def DistinctAddresses (nodes : List PacketFilterNode) : Prop :=
  ∀ a ∈ nodes, ∀ b ∈ nodes, ∀ ip, a.HasAddress ip → b.HasAddress ip → a = b

section Compiled

variable {rt : CompiledRuntime} {opaqueDoc : OpaqueDocument} {inputs : RuntimeInputs}

/-- Whoever a freshly computed filter lets send to a node is its peer. -/
theorem mem_peers_of_sends (hrt : rt.CompiledFrom opaqueDoc inputs)
    (hids : (inputs.resolverNodes.map PacketFilterNode.id).Nodup)
    (haddrs : DistinctAddresses inputs.resolverNodes)
    (hzone : ∀ node ∈ inputs.resolverNodes, node.ZoneFree) {r s : PacketFilterNode}
    (hr : r ∈ inputs.resolverNodes) (hs : s ∈ inputs.resolverNodes) (hne : s ≠ r)
    {src dst : IpAddr} (hsrc : s.HasAddress src) (hdst : r.HasAddress dst)
    (h : Sends (rt.freshFilter r) src dst) : s.id ∈ rt.peers inputs.resolverNodes r.id := by
  have hown : ∀ node ∈ rt.resolverNodes, node.HasAddress dst → node = r := by
    rw [hrt.resolverNodes]
    exact fun node hnode haddr => haddrs node hnode r hr dst haddr hdst
  have hzone' : ∀ node ∈ rt.resolverNodes, node.ZoneFree := by rwa [hrt.resolverNodes]
  obtain ⟨rule, hrule, hsource, hdest⟩ := links_visibilityRules hzone' hown h.links
  have hvisible := visible_of_canAccess hrt.globalMatchers hids hr hs
    (canAccess_of_addresses hrule hsrc hdst hsource hdest)
  rw [mem_peers, mem_peerEdges]
  refine ⟨r, hr, s, hs, rfl, rfl, ?_, hvisible⟩
  intro hid
  exact hne (inj_on_of_nodup_map hids hs hr hid.symm)

/-! ## The order of the compiled nodes -/

variable {rt' : CompiledRuntime} {nodes : List PacketFilterNode}

/-- Without exit nodes the peer map does not depend on the order the runtime was compiled in. -/
theorem buildPeerMap_compiled_perm (hrt : rt.CompiledFrom opaqueDoc inputs)
    (hrt' : rt'.CompiledFrom opaqueDoc { inputs with resolverNodes := nodes })
    (hids : (inputs.resolverNodes.map PacketFilterNode.id).Nodup)
    (hexit : ∀ node ∈ inputs.resolverNodes, node.routes.any isExitRoute = false)
    (hperm : inputs.resolverNodes.Perm nodes) :
    rt'.buildPeerMap nodes = rt.buildPeerMap inputs.resolverNodes := by
  rw [buildPeerMap_perm _ hids hperm]
  have haccess : ∀ a, ∀ b ∈ inputs.resolverNodes, ∀ node,
      canAccess (fromRules (rt'.visibilityRules node)) a b =
        canAccess (fromRules (rt.visibilityRules node)) a b := by
    intro a b hb node
    have hrules := visibilityRules_same hrt (fun doc _ => .of_perm hperm) hrt'
      (fun doc _ => NodeEquiv.refl doc node)
    rw [Bool.eq_iff_iff, canAccess_iff_links (hexit b hb), canAccess_iff_links (hexit b hb)]
    simp only [hrules.links_iff]
  have hvisible : ∀ a ∈ inputs.resolverNodes, ∀ b ∈ inputs.resolverNodes,
      rt'.visible inputs.resolverNodes a b = rt.visible inputs.resolverNodes a b := by
    intro a ha b hb
    simp only [visible, hrt.perNode, hrt'.perNode, peerMatchers_eq hrt.globalMatchers hids ha,
      peerMatchers_eq hrt.globalMatchers hids hb,
      peerMatchers_eq hrt'.globalMatchers hids ha,
      peerMatchers_eq hrt'.globalMatchers hids hb,
      haccess _ _ ha, haccess _ _ hb]
  exact buildPeerMap_congr (fun _ => Iff.rfl) hvisible

end Compiled

/-! ## Peers and filters -/

/-- For a runtime freshly compiled from nodes with distinct ids and distinct addresses without zones,
in either filter mode, whoever the filter of a node lets send to it, or carries a capability grant
for, sees the node and is seen by it. Every peer map is symmetric and lists no node for itself. For
a given runtime it does not depend on the order of the listed nodes; where none of them is an exit
node it does not depend on the order the runtime was compiled in either. -/
theorem freshRuntime_peers_agree (opaqueDoc : OpaqueDocument) (inputs : RuntimeInputs) :
    ((inputs.resolverNodes.map PacketFilterNode.id).Nodup →
      DistinctAddresses inputs.resolverNodes →
      (∀ node ∈ inputs.resolverNodes, node.ZoneFree) →
      ∀ r ∈ inputs.resolverNodes, ∀ s ∈ inputs.resolverNodes, s ≠ r →
      ∀ src dst, s.HasAddress src → r.HasAddress dst →
      Sends ((freshRuntime opaqueDoc inputs).filterFor r).1 src dst →
        s.id ∈ (freshRuntime opaqueDoc inputs).peers inputs.resolverNodes r.id ∧
        r.id ∈ (freshRuntime opaqueDoc inputs).peers inputs.resolverNodes s.id) ∧
    (∀ (rt : CompiledRuntime) (listed : List PacketFilterNode) (i j : Nat),
      (j ∈ rt.peers listed i → i ∈ rt.peers listed j) ∧ i ∉ rt.peers listed i) ∧
    (∀ (rt : CompiledRuntime) (listed listed' : List PacketFilterNode),
      (listed.map PacketFilterNode.id).Nodup → listed.Perm listed' →
        rt.buildPeerMap listed' = rt.buildPeerMap listed) ∧
    ∀ nodes : List PacketFilterNode, (inputs.resolverNodes.map PacketFilterNode.id).Nodup →
      (∀ node ∈ inputs.resolverNodes, node.routes.any isExitRoute = false) →
      inputs.resolverNodes.Perm nodes →
        (freshRuntime opaqueDoc { inputs with resolverNodes := nodes }).buildPeerMap nodes =
          (freshRuntime opaqueDoc inputs).buildPeerMap inputs.resolverNodes := by
  have hrt := freshRuntime_compiledFrom opaqueDoc inputs
  refine ⟨?_, ?_, ?_, ?_⟩
  · intro hids haddrs hzone r hr s hs hne src dst hsrc hdst hsends
    have hserved : ((freshRuntime opaqueDoc inputs).filterFor r).1 =
        (freshRuntime opaqueDoc inputs).freshFilter r := by
      unfold filterFor
      rw [(freshRuntime_caches opaqueDoc inputs).1]
      rfl
    rw [hserved] at hsends
    have hpeer := mem_peers_of_sends hrt hids haddrs hzone hr hs hne hsrc hdst hsends
    exact ⟨hpeer, peers_symm hpeer⟩
  · exact fun rt listed i j =>
      ⟨peers_symm, not_mem_peers_self rt listed i⟩
  · exact fun rt listed listed' hids hperm => rt.buildPeerMap_perm hids hperm
  · exact fun nodes hids hexit hperm => buildPeerMap_compiled_perm hrt
      (freshRuntime_compiledFrom opaqueDoc _) hids hexit hperm

/-- A laptop and a server, with one rule from the first to the second. -/
def laptop : PacketFilterNode := { id := 1, userId := some 1, addrs := ["100.64.0.1"] }

def server : PacketFilterNode := { id := 2, userId := some 2, addrs := ["100.64.0.2"] }

def laptopToServer : RuntimeInputs :=
  { doc := some
      { users := some [], rules := [{ src := ["100.64.0.1"], dst := ["100.64.0.2"], ports := ["*/*"] }] },
    resolverNodes := [laptop, server] }

theorem laptopToServer_peers :
    Sends ((freshRuntime (fun doc _ => doc) laptopToServer).filterFor server).1
      (.v4 0x64400001) (.v4 0x64400002) ∧
    laptop.id ∈ (freshRuntime (fun doc _ => doc) laptopToServer).peers
      laptopToServer.resolverNodes server.id ∧
    server.id ∈ (freshRuntime (fun doc _ => doc) laptopToServer).peers
      laptopToServer.resolverNodes laptop.id := by
  have hsends : Sends ((freshRuntime (fun doc _ => doc) laptopToServer).filterFor server).1
      (.v4 0x64400001) (.v4 0x64400002) := .inl ⟨6, 22, by decide +kernel⟩
  have hlaptop : parseAddr "100.64.0.1" = .ok (.v4 0x64400001, none) := by decide +kernel
  have hserver : parseAddr "100.64.0.2" = .ok (.v4 0x64400002, none) := by decide +kernel
  have hmem : ∀ node ∈ laptopToServer.resolverNodes, node = laptop ∨ node = server := by
    simp [laptopToServer]
  have haddress : ∀ ip, (laptop.HasAddress ip ↔ .v4 0x64400001 = ip) ∧
      (server.HasAddress ip ↔ .v4 0x64400002 = ip) := by
    simp [PacketFilterNode.HasAddress, laptop, server, hlaptop, hserver]
  have haddrs : DistinctAddresses laptopToServer.resolverNodes := by
    intro a ha b hb ip hip hip'
    rcases hmem a ha with rfl | rfl <;> rcases hmem b hb with rfl | rfl
    · rfl
    · rw [(haddress ip).1] at hip
      rw [(haddress ip).2, ← hip] at hip'
      exact absurd hip' (by decide)
    · rw [(haddress ip).2] at hip
      rw [(haddress ip).1, ← hip] at hip'
      exact absurd hip' (by decide)
    · rfl
  have hzone : ∀ node ∈ laptopToServer.resolverNodes, node.ZoneFree := by
    intro node hnode
    rcases hmem node hnode with rfl | rfl
    · simp [PacketFilterNode.ZoneFree, laptop, hlaptop]
    · simp [PacketFilterNode.ZoneFree, server, hserver]
  exact ⟨hsends, (freshRuntime_peers_agree (fun doc _ => doc) laptopToServer).1 (by decide) haddrs
    hzone server (by simp [laptopToServer]) laptop (by simp [laptopToServer]) (by decide) _ _
    ((haddress _).1.mpr rfl) ((haddress _).2.mpr rfl) hsends⟩

/-! ## The order of the nodes and the internet -/

/-- Two routers and an exit node, the routers in either order. -/
def routersAndExit (swapped : Bool) : List PacketFilterNode :=
  let first : PacketFilterNode :=
    { id := 1, userId := some 1, addrs := ["fd7a:115c:a1e0::1"], routes := ["fd7b::/64"] }
  let second : PacketFilterNode :=
    { id := 2, userId := some 2, addrs := ["fd7a:115c:a1e0::2"], routes := ["fd7c::/64"] }
  let exit : PacketFilterNode :=
    { id := 3, userId := some 3, addrs := ["fd7a:115c:a1e0::3"], routes := ["0.0.0.0/0"] }
  if swapped then [second, first, exit] else [first, second, exit]

/-- Two rules whose destinations are the two halves of the internet. The first has the wildcard as
its source, which expands to the tailnet and the approved routes in node order; the second spells
the same set out, and its canonical text is the same only if the routes come in address order. -/
def halvesOfTheInternet : PolicyDoc :=
  { users := some [],
    rules := [
      { src := ["*"], dst := ["0.0.0.0/1"], ports := ["*/*"] },
      { src := ["100.64.0.0/11", "100.96.0.0/12", "100.112.0.0/15", "100.114.0.0/16",
          "100.115.0.0/18", "100.115.64.0/20", "100.115.80.0/21", "100.115.88.0/22",
          "100.115.94.0/23", "100.115.96.0/19", "100.115.128.0/17", "100.116.0.0/14",
          "100.120.0.0/13", "fd7a:115c:a1e0::/48", "fd7b::/64", "fd7c::/64"],
        dst := ["128.0.0.0/1"], ports := ["*/*"] }] }

/-- The rules are merged, and the merged rule covers the internet, for one order of the nodes
only. -/
theorem buildPeerMap_depends_on_order :
    (routersAndExit false).Perm (routersAndExit true) ∧
    ((routersAndExit false).map PacketFilterNode.id).Nodup ∧
    ((routersAndExit false).flatMap PacketFilterNode.addrs).Nodup ∧
    (freshRuntime (fun doc _ => doc)
        { doc := some halvesOfTheInternet, resolverNodes := routersAndExit false }).buildPeerMap
      (routersAndExit false) = [(1, [3]), (2, [3]), (3, [1, 2])] ∧
    (freshRuntime (fun doc _ => doc)
        { doc := some halvesOfTheInternet, resolverNodes := routersAndExit true }).buildPeerMap
      (routersAndExit true) = [] := by
  refine ⟨List.Perm.swap _ _ _, by decide, by decide, ?_, ?_⟩
  · decide +kernel
  · decide +kernel

end Headscale.Policy
