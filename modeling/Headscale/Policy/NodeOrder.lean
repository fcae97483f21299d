import Headscale.Policy.Offers

/-!
# Compilation does not depend on the order of nodes and routes

The compiler reads a list of nodes, each with a list of routes. What it compiles is the same, up to
the order of sources and entries, for every order of the two, and a login label is only read where
no account decides.
-/

namespace Headscale.Policy

open GoNetip Collection List IpSet SameOffers

/-! ## Nodes -/

/-- Nodes that the compiler cannot tell apart but for the order of their routes. -/
structure NodeEquiv (doc : PolicyDoc) (a b : PacketFilterNode) : Prop where
  id : a.id = b.id
  userId : a.userId = b.userId
  user : doc.users = none ∨ a.userId = none → a.user = b.user
  addrs : a.addrs = b.addrs
  tags : a.tags = b.tags
  routes : ∀ route, route ∈ a.routes ↔ route ∈ b.routes

abbrev SameNodes (doc : PolicyDoc) (xs ys : List PacketFilterNode) : Prop :=
  Alike (NodeEquiv doc) xs ys

namespace NodeEquiv

variable {doc : PolicyDoc} {a b : PacketFilterNode}

lemma refl (doc : PolicyDoc) (a : PacketFilterNode) : NodeEquiv doc a a :=
  ⟨rfl, rfl, fun _ => rfl, rfl, rfl, fun _ => Iff.rfl⟩

lemma trans {c : PacketFilterNode} (hab : NodeEquiv doc a b) (hbc : NodeEquiv doc b c) :
    NodeEquiv doc a c :=
  ⟨hab.id.trans hbc.id, hab.userId.trans hbc.userId,
    fun hu => (hab.user hu).trans (hbc.user (by rwa [← hab.userId])), hab.addrs.trans hbc.addrs,
    hab.tags.trans hbc.tags, fun route => (hab.routes route).trans (hbc.routes route)⟩

lemma any_routes (h : NodeEquiv doc a b) (p : String → Bool) : a.routes.any p = b.routes.any p := by
  rw [Bool.eq_iff_iff, any_eq_true, any_eq_true]
  simp only [h.routes]

lemma nodeOwnerKey_eq (h : NodeEquiv doc a b) : nodeOwnerKey a = nodeOwnerKey b := by
  unfold nodeOwnerKey
  rw [h.userId]
  cases hid : b.userId with
  | some id => rfl
  | none => simp only [h.user (.inr (h.userId.trans hid))]

end NodeEquiv

lemma SameNodes.of_perm {doc : PolicyDoc} {xs ys : List PacketFilterNode} (h : xs.Perm ys) :
    SameNodes doc xs ys :=
  ⟨fun x hx => ⟨x, h.mem_iff.mp hx, .refl doc x⟩, fun y hy => ⟨y, h.mem_iff.mpr hy, .refl doc y⟩⟩

/-- Reduction does not look at the order of routes. -/
theorem reduceFilterRulesForNode_eq {doc : PolicyDoc} {a b : PacketFilterNode}
    (h : NodeEquiv doc a b) (rules : List FilterRule) :
    reduceFilterRulesForNode rules a = reduceFilterRulesForNode rules b := by
  have hkeep : keepsDestination a = keepsDestination b := by
    unfold keepsDestination containsNode
    rw [h.addrs]
    simp only [h.any_routes]
  have hgrant : reduceCapGrant a = reduceCapGrant b := by
    have hown : ownDestinations a = ownDestinations b := by
      unfold ownDestinations
      rw [h.addrs]
    have hrouted : routedDestinations a = routedDestinations b := by
      unfold routedDestinations
      simp only [h.any_routes]
    have hdsts : reducedDestinations a = reducedDestinations b := by
      funext dsts
      rw [reducedDestinations, reducedDestinations, hown, hrouted]
    funext grant
    rw [reduceCapGrant, reduceCapGrant, hdsts]
  have hrule : reduceRule a = reduceRule b := by
    funext rule
    rw [reduceRule, reduceRule, reduceCapGrantRuleForNode, reduceCapGrantRuleForNode, hkeep, hgrant]
  rw [reduceFilterRulesForNode, reduceFilterRulesForNode, hrule]

/-! ## Aliases -/

/-- Results of the resolver that agree but for the order of prefixes and errors. -/
structure ResolvedAlias.Equiv (a b : ResolvedAlias) : Prop where
  isSome : a.ips.isSome = b.ips.isSome
  members : ∀ ip, ip ∈ a.partialIps ↔ ip ∈ b.partialIps
  errors : a.errors = [] ↔ b.errors = []

namespace ResolvedAlias.Equiv

lemma refl (a : ResolvedAlias) : Equiv a a := ⟨rfl, fun _ => Iff.rfl, Iff.rfl⟩

lemma append {a b c d : ResolvedAlias} (hab : Equiv a b) (hcd : Equiv c d) :
    Equiv (a.append c) (b.append d) := by
  refine ⟨rfl, ?_, ?_⟩
  · intro ip
    have hparts : ∀ x y : ResolvedAlias, ip ∈ (x.append y).partialIps ↔
        ip ∈ x.partialIps ∨ ip ∈ y.partialIps := fun x y => mem_append
    rw [hparts, hparts, hab.members, hcd.members]
  · simp only [ResolvedAlias.append, append_eq_nil_iff, hab.errors, hcd.errors]

lemma foldl_append {α : Type} (tokens : List α) {f g : α → ResolvedAlias}
    (h : ∀ token, Equiv (f token) (g token)) {a b : ResolvedAlias} (hab : Equiv a b) :
    Equiv (tokens.foldl (fun result token => result.append (f token)) a)
      (tokens.foldl (fun result token => result.append (g token)) b) := by
  induction tokens generalizing a b with
  | nil => exact hab
  | cons token tokens ih => exact ih (hab.append (h token))

end ResolvedAlias.Equiv

section Resolution

variable {doc : PolicyDoc} {xs ys : List PacketFilterNode} (h : SameNodes doc xs ys)

include h

lemma nodeAddresses_equiv : (nodeAddresses xs).Equiv (nodeAddresses ys) := by
  refine ⟨rfl, ?_, ?_⟩
  · exact h.mem_flatMap fun x y hR ip => by rw [hR.addrs]
  · exact eq_nil_congr (h.mem_flatMap fun x y hR error => by rw [hR.addrs])

variable (tokens : List String) (token : String)

lemma username_equiv :
    (username doc token xs).Equiv (username doc token ys) := by
  unfold username
  split
  · rename_i hnone
    exact nodeAddresses_equiv (h.filter fun x y hR => by
      simp only [hR.tags, hR.user (.inl hnone)])
  split
  · exact .refl _
  rename_i id error _
  have hnodes := nodeAddresses_equiv (h.filter
    (p := fun node => node.tags = [] ∧ node.userId = some id)
    (q := fun node => node.tags = [] ∧ node.userId = some id)
    fun x y hR => by simp only [hR.tags, hR.userId])
  exact ⟨hnodes.isSome, hnodes.members, by
    simp only [append_eq_nil_iff, hnodes.errors]⟩

lemma resolveNamed_equiv :
    (resolveNamed doc token xs).Equiv (resolveNamed doc token ys) := by
  unfold resolveNamed
  split
  · exact nodeAddresses_equiv (h.filter fun x y hR => by simp only [hR.tags])
  · exact .refl _

lemma resolveDirect_equiv :
    (resolveDirect doc token xs = none ∧ resolveDirect doc token ys = none) ∨
      ∃ a b, resolveDirect doc token xs = some a ∧ resolveDirect doc token ys = some b ∧
        a.Equiv b := by
  have htags : ∀ p : List String → Bool, (nodeAddresses (xs.filter fun node => p node.tags)).Equiv
      (nodeAddresses (ys.filter fun node => p node.tags)) :=
    fun p => nodeAddresses_equiv (h.filter fun x y hR => by rw [hR.tags])
  unfold resolveDirect
  split
  · exact .inr ⟨_, _, rfl, rfl, .refl _⟩
  by_cases huser : aliasKind token = some .username
  · simp only [huser]
    exact .inr ⟨_, _, rfl, rfl, username_equiv h token⟩
  simp only [huser, if_false]
  by_cases hmember : token = "autogroup:member"
  · subst hmember
    exact .inr ⟨_, _, rfl, rfl, htags fun tags => tags = []⟩
  by_cases htagged : token = "autogroup:tagged"
  · subst htagged
    exact .inr ⟨_, _, rfl, rfl, htags fun tags => tags ≠ []⟩
  -- The other aliases of this level do not look at the nodes.
  split
  · exact .inr ⟨_, _, rfl, rfl, .refl _⟩
  split
  · exact .inr ⟨_, _, rfl, rfl, .refl _⟩
  split
  · exact .inr ⟨_, _, rfl, rfl, .refl _⟩
  split
  · exact .inr ⟨_, _, rfl, rfl, .refl _⟩
  split
  · exact .inr ⟨_, _, rfl, rfl, .refl _⟩
  split
  · exact .inl ⟨rfl, rfl⟩
  · exact .inr ⟨_, _, rfl, rfl, resolveNamed_equiv h token⟩

lemma resolve_equiv (depth : Nat) (visiting : List String) (token : String) :
    (resolve doc xs depth visiting token).Equiv (resolve doc ys depth visiting token) := by
  induction depth generalizing visiting token with
  | zero =>
    rw [resolve, resolve]
    rcases resolveDirect_equiv h token with ⟨hx, hy⟩ | ⟨a, b, hx, hy, hab⟩
    · rw [hx, hy]
      exact .refl _
    · rw [hx, hy]
      exact hab
  | succ depth ih =>
    rw [resolve, resolve]
    rcases resolveDirect_equiv h token with ⟨hx, hy⟩ | ⟨a, b, hx, hy, hab⟩
    · rw [hx, hy]
      by_cases hvisiting : token ∈ visiting
      · simp only [hvisiting]
        exact .refl _
      simp only [hvisiting]
      refine ResolvedAlias.Equiv.foldl_append _ (fun member => ?_) (.refl _)
      split
      · exact username_equiv h member
      · exact ih (token :: visiting) member
    · rw [hx, hy]
      exact hab

lemma resolveAlias_equiv :
    (resolveAlias doc token xs).Equiv (resolveAlias doc token ys) := resolve_equiv h _ _ _

lemma aliases_equiv :
    (aliases doc tokens xs).Equiv (aliases doc tokens ys) :=
  ResolvedAlias.Equiv.foldl_append tokens (resolveAlias_equiv h) (.refl _)

lemma owners_equiv :
    (owners doc tokens xs).Equiv (owners doc tokens ys) := by
  refine ResolvedAlias.Equiv.foldl_append tokens (fun token => ?_) (.refl _)
  split
  · exact username_equiv h token
  · exact resolveAlias_equiv h token

end Resolution

/-! ## Sources and destinations -/

section Sources

variable {doc : PolicyDoc} {xs ys : List PacketFilterNode} (h : SameNodes doc xs ys)

include h

variable (token : String)

/-- The set an alias resolves to. -/
theorem aliasSet_eq :
    fromStrings (resolveAlias doc token xs).partialIps =
      fromStrings (resolveAlias doc token ys).partialIps :=
  fromStrings_congr (resolveAlias_equiv h token).members

lemma mem_approvedSubnetRoutes (route : String) :
    route ∈ approvedSubnetRoutes xs ↔ route ∈ approvedSubnetRoutes ys := by
  simp only [approvedSubnetRoutes, mem_foldl_pushUnique, mem_filter,
    h.mem_flatMap (fun x y hR => hR.routes) route]

variable (tokens : List String)

lemma mem_sourceStrings (preserveNonwildcard : Bool) (value : String) :
    value ∈ sourceStrings doc tokens xs preserveNonwildcard ↔
      value ∈ sourceStrings doc tokens ys preserveNonwildcard := by
  have hmerged : fromStrings
        (tokens.map fun token => (resolveAlias doc token xs).partialIps).flatten =
      fromStrings
        (tokens.map fun token => (resolveAlias doc token ys).partialIps).flatten := by
    refine fromStrings_congr fun ip => ?_
    simp only [← flatMap_def, mem_flatMap, (resolveAlias_equiv h _).members]
  have hothers : ∀ nodes, (((tokens.zip (tokens.map fun token =>
        (resolveAlias doc token nodes).partialIps)).filter fun entry => entry.1 ≠ "*").flatMap
          fun entry => (fromStrings entry.2).strings) =
      (tokens.filter fun token => token ≠ "*").flatMap fun token =>
        (fromStrings (resolveAlias doc token nodes).partialIps).strings := by
    intro nodes
    have hzip := zip_map' (f := id) (l := tokens)
      (g := fun token => (resolveAlias doc token nodes).partialIps)
    rw [map_id] at hzip
    rw [hzip, filter_map, flatMap_map]
    rfl
  unfold sourceStrings
  by_cases hself : "autogroup:self" ∈ tokens
  · simp [hself]
  simp only [hself, hmerged, hothers, aliasSet_eq h]
  by_cases hempty : (fromStrings
      (tokens.map fun token => (resolveAlias doc token ys).partialIps).flatten).strings = []
  · simp [hempty]
  simp only [hempty, if_false]
  split
  · rw [mem_foldl_pushUnique, mem_foldl_pushUnique]
    refine or_congr_left ?_
    split
    · rfl
    · split
      · simp only [mem_append, mem_approvedSubnetRoutes h value]
      · rfl
  · split
    · rfl
    · split
      · simp only [mem_append, mem_approvedSubnetRoutes h value]
      · rfl

lemma resolveCompanionSources_eq :
    resolveCompanionSources doc tokens xs = resolveCompanionSources doc tokens ys := by
  simp only [resolveCompanionSources, aliasSet_eq h]

lemma resolveDestinations_eq :
    resolveDestinations doc tokens xs = resolveDestinations doc tokens ys := by
  simp only [resolveDestinations, aliasSet_eq h]

lemma resolveCapGrantDst_eq :
    resolveCapGrantDst doc token xs = resolveCapGrantDst doc token ys := by
  have hequiv := resolveAlias_equiv h token
  have hips := aliasSet_eq h token
  have hsome := hequiv.isSome
  unfold resolveCapGrantDst
  simp only [hequiv.errors]
  split
  · cases hx : (resolveAlias doc token xs).ips with
    | none =>
      cases hy : (resolveAlias doc token ys).ips with
      | none => rfl
      | some b => simp [hx, hy] at hsome
    | some a =>
      cases hy : (resolveAlias doc token ys).ips with
      | none => simp [hx, hy] at hsome
      | some b =>
        simp only [ResolvedAlias.partialIps, hx, hy, Option.getD_some] at hips
        simp only [Option.map_some, hips]
  · rfl

lemma resolveViaDestinationsForNode_eq (dsts : List String) {a b : PacketFilterNode}
    (hab : NodeEquiv doc a b) :
    resolveViaDestinationsForNode doc dsts xs a = resolveViaDestinationsForNode doc dsts ys b := by
  have hroutes : ∀ p : String, ((a.routes.filter fun route => !isExitRoute route).any fun route =>
        prefixesOverlap p route) =
      (b.routes.filter fun route => !isExitRoute route).any fun route =>
        prefixesOverlap p route := by
    intro p
    rw [any_filter, any_filter, hab.any_routes]
  simp only [resolveViaDestinationsForNode, resolveCapGrantDst_eq h, hroutes, hab.any_routes]

lemma sourcesHaveResolvedAlias_eq :
    sourcesHaveResolvedAlias doc tokens xs = sourcesHaveResolvedAlias doc tokens ys := by
  simp only [sourcesHaveResolvedAlias, (resolveAlias_equiv h _).isSome]

lemma regularGrantIsAdmitted_eq (grant : FilterGrant) :
    regularGrantIsAdmitted doc grant xs = regularGrantIsAdmitted doc grant ys := by
  simp only [regularGrantIsAdmitted, sourcesHaveResolvedAlias_eq h]

lemma hasPerNodeFilters_eq (apps : List GrantAppShape) :
    hasPerNodeFilters doc xs apps = hasPerNodeFilters doc ys apps := by
  have hnil : ∀ tokens, sourceStrings doc tokens xs false = [] ↔
      sourceStrings doc tokens ys false = [] :=
    fun tokens => eq_nil_congr (mem_sourceStrings h tokens false)
  simp only [hasPerNodeFilters, regularGrantIsAdmitted_eq h, ne_eq, hnil]

/-! ## Nodes of one owner -/

variable (owner : NodeOwnerKey)

lemma ownerNodes_alike :
    SameNodes doc (ownerNodes xs owner) (ownerNodes ys owner) :=
  h.filter fun x y hR => by
    rw [decide_eq_decide, isUntaggedUserOwned, isUntaggedUserOwned, hR.tags, hR.nodeOwnerKey_eq]

lemma sameUserUntaggedNodes_alike {a b : PacketFilterNode} (hab : NodeEquiv doc a b) :
    SameNodes doc (sameUserUntaggedNodes xs a) (sameUserUntaggedNodes ys b) := by
  unfold sameUserUntaggedNodes
  rw [hab.nodeOwnerKey_eq]
  split
  · exact .refl (NodeEquiv.refl doc) []
  · exact ownerNodes_alike h _

lemma mem_ownerKeys : owner ∈ ownerKeys xs ↔ owner ∈ ownerKeys ys := by
  have hfilter : SameNodes doc (xs.filter fun node => node.tags = [])
      (ys.filter fun node => node.tags = []) := h.filter fun x y hR => by rw [hR.tags]
  simp only [ownerKeys, (perm_insertionSort _ _).mem_iff, mem_foldl_pushUnique,
    mem_filterMap, not_mem_nil, false_or]
  exact hfilter.exists_iff fun x y hR => by rw [hR.nodeOwnerKey_eq]

lemma nodesMatchingPrefixes_eq (prefixes : List String) :
    nodesMatchingPrefixes xs prefixes = nodesMatchingPrefixes ys prefixes := by
  have hmatched : SameNodes doc (xs.filter (anyIpMatches prefixes))
      (ys.filter (anyIpMatches prefixes)) :=
    h.filter fun x y hR => by simp only [anyIpMatches, hR.addrs]
  have hset : fromStrings ((xs.filter (anyIpMatches prefixes)).flatMap nodeAddrPrefixes) =
      fromStrings ((ys.filter (anyIpMatches prefixes)).flatMap nodeAddrPrefixes) :=
    fromStrings_congr (hmatched.mem_flatMap fun x y hR value => by
      simp only [nodeAddrPrefixes, hR.addrs])
  have hinvalid := hmatched.any_eq
    (p := fun node => node.addrs.any fun addr => !(parseAddr addr).isOk)
    (q := fun node => node.addrs.any fun addr => !(parseAddr addr).isOk)
    fun x y hR => by simp only [hR.addrs]
  simp only [nodesMatchingPrefixes, hinvalid, hset]

end Sources

/-! ## Rules -/

/-- Rules with the same entries, in any order. -/
abbrev SameRules (a b : List FilterRule) : Prop := Alike FilterRule.Equiv a b

lemma SameRules.refl (rules : List FilterRule) : SameRules rules rules :=
  Alike.refl FilterRule.Equiv.refl rules

lemma networkRules_alike {srcIps srcIps' : List String}
    (h : ∀ value, value ∈ srcIps ↔ value ∈ srcIps') (dstIps : List String) (groups : List PortGroup)
    (keepPrefixes : Bool) :
    SameRules (networkRules srcIps dstIps groups keepPrefixes)
      (networkRules srcIps' dstIps groups keepPrefixes) := by
  simp only [networkRules, eq_nil_congr h]
  split
  · exact SameRules.refl []
  · exact (Alike.eq_refl groups).map fun group _ heq => heq ▸
      ⟨h, fun _ => Iff.rfl, rfl, fun _ => Iff.rfl⟩

lemma companionCapGrantRules_alike {dstIpStrings dstIpStrings' : List String}
    (h : ∀ value, value ∈ dstIpStrings ↔ value ∈ dstIpStrings') (srcIps : List String)
    (app : CapabilityMap) :
    SameRules (companionCapGrantRules dstIpStrings srcIps app)
      (companionCapGrantRules dstIpStrings' srcIps app) :=
  (Alike.eq_refl (companionCaps app)).map fun _ _ heq => heq ▸
    ⟨h, fun _ => Iff.rfl, rfl, fun _ => Iff.rfl⟩

section Rules

variable {doc : PolicyDoc} {xs ys : List PacketFilterNode}

lemma capGrantRules_alike (h : SameNodes doc xs ys) {srcIps srcIps' : List String}
    (hsrc : ∀ value, value ∈ srcIps ↔ value ∈ srcIps') (companionSrc dsts : List String)
    (app : CapabilityMap) (shape : Option GrantAppShape) :
    SameRules (capGrantRules doc xs srcIps companionSrc dsts app shape)
      (capGrantRules doc ys srcIps' companionSrc dsts app shape) := by
  simp only [capGrantRules, resolveCapGrantDst_eq h]
  split
  · exact SameRules.refl []
  refine Alike.cons ?_ (companionCapGrantRules_alike ?_ _ _)
  · exact ⟨hsrc, fun _ => Iff.rfl, rfl, fun _ => Iff.rfl⟩
  · intro value
    simp only [mem_append]
    refine or_congr_right ?_
    split
    · exact mem_approvedSubnetRoutes h value
    · rfl

lemma selfPortRules_alike (h : SameNodes doc xs ys) (sources : List String)
    (groups : List PortGroup) :
    SameRules (selfPortRules sources groups xs) (selfPortRules sources groups ys) := by
  have hports : ∀ (group : PortGroup) (entry : NetPortRange),
      entry ∈ (xs.flatMap fun node => group.2.flatMap fun range =>
        (nodeIpStrings node).map fun ip => (⟨ip, range⟩ : NetPortRange)) ↔
      entry ∈ (ys.flatMap fun node => group.2.flatMap fun range =>
        (nodeIpStrings node).map fun ip => (⟨ip, range⟩ : NetPortRange)) :=
    fun group => h.mem_flatMap fun x y hR entry => by simp only [nodeIpStrings, hR.addrs]
  refine Alike.filter (R := FilterRule.Equiv) ?_ ?_
  · exact (Alike.eq_refl groups).map fun group _ heq => heq ▸
      ⟨fun _ => Iff.rfl, hports group, rfl, fun _ => Iff.rfl⟩
  · intro a b hab
    rw [decide_eq_decide, not_iff_not]
    exact eq_nil_congr hab.dstPorts

lemma selfRules_alike (h : SameNodes doc xs ys) (grant : FilterGrant)
    (sourcePrefixes : List String) :
    SameRules (selfRules grant sourcePrefixes xs) (selfRules grant sourcePrefixes ys) := by
  simp only [selfRules, nodesMatchingPrefixes_eq h]
  split
  · exact SameRules.refl []
  refine (selfPortRules_alike h _ _).append ?_
  split
  · exact SameRules.refl []
  rename_i app _
  simp only [h.eq_nil_iff]
  split
  · exact SameRules.refl []
  have hgrants : ∀ entry, entry ∈ (xs.map fun node =>
        ({ dsts := nodeAddrPrefixes node, capMap := wireCapMap app grant.appShape } :
          CapGrant)) ↔
      entry ∈ ys.map fun node =>
        ({ dsts := nodeAddrPrefixes node, capMap := wireCapMap app grant.appShape } :
          CapGrant) := by
    intro entry
    simp only [mem_map]
    exact h.exists_iff fun x y hR => by simp only [nodeAddrPrefixes, hR.addrs]
  refine Alike.cons ?_ (companionCapGrantRules_alike ?_ _ _)
  · exact ⟨fun _ => Iff.rfl, fun _ => Iff.rfl, rfl, hgrants⟩
  · exact h.mem_flatMap fun x y hR value => by simp only [nodeIpStrings, hR.addrs]

/-- Receivers that are alike, or none. -/
def SameReceiver (doc : PolicyDoc) : Option PacketFilterNode → Option PacketFilterNode → Prop
  | none, none => True
  | some a, some b => NodeEquiv doc a b
  | _, _ => False

variable (h : SameNodes doc xs ys)

include h

variable (grant : FilterGrant)

lemma otherGrantRules_alike :
    SameRules (otherGrantRules doc grant xs) (otherGrantRules doc grant ys) := by
  simp only [otherGrantRules, resolveDestinations_eq h, resolveCompanionSources_eq h]
  have hsources := mem_sourceStrings h grant.sources true
  split
  · exact SameRules.refl []
  refine (networkRules_alike hsources _ _ _).append ?_
  split
  · exact SameRules.refl []
  · exact capGrantRules_alike h hsources _ _ _ _

lemma viaGrantRules_alike {a b : PacketFilterNode} (hab : NodeEquiv doc a b) :
    SameRules (viaGrantRules doc grant xs a) (viaGrantRules doc grant ys b) := by
  simp only [viaGrantRules, hab.tags, resolveViaDestinationsForNode_eq h _ hab]
  split
  · exact SameRules.refl []
  · exact networkRules_alike (mem_sourceStrings h grant.sources false) _ _ _

lemma grantRules_alike {a b : Option PacketFilterNode} (hab : SameReceiver doc a b) :
    SameRules (grantRules doc grant xs a) (grantRules doc grant ys b) := by
  unfold grantRules
  rw [regularGrantIsAdmitted_eq h]
  cases a with
  | none =>
    cases b with
    | none =>
      split
      · exact SameRules.refl []
      · split
        · exact SameRules.refl []
        · exact (otherGrantRules_alike h grant).append (SameRules.refl [])
    | some b => exact hab.elim
  | some a =>
    cases b with
    | none => exact hab.elim
    | some b =>
      split
      · exact viaGrantRules_alike h grant hab
      split
      · exact SameRules.refl []
      refine (otherGrantRules_alike h grant).append ?_
      simp only [hab.tags, resolveCompanionSources_eq h]
      split
      · exact selfRules_alike (sameUserUntaggedNodes_alike h hab) _ _
      · exact SameRules.refl []

lemma exitNodeSelfRules_alike {a b : PacketFilterNode} (hab : NodeEquiv doc a b)
    (apps : List GrantAppShape) :
    SameRules (exitNodeSelfRules doc xs a apps) (exitNodeSelfRules doc ys b apps) := by
  simp only [exitNodeSelfRules, hab.any_routes, hab.tags, hab.nodeOwnerKey_eq,
    regularGrantIsAdmitted_eq h, resolveCompanionSources_eq h]
  split
  · exact SameRules.refl []
  refine (Alike.eq_refl _).flatMap fun grant _ heq => ?_
  subst heq
  have howners : Alike Eq (ownerKeys xs) (ownerKeys ys) :=
    .of_mem_iff (fun _ => rfl) (mem_ownerKeys h)
  refine (howners.filter fun x y heq => by rw [heq]).flatMap fun owner _ heq => ?_
  subst heq
  exact selfRules_alike (ownerNodes_alike h owner) _ _

/-! ## Filters -/

lemma unreducedFilterRulesForReceiver_same {a b : PacketFilterNode} (hab : NodeEquiv doc a b)
    (apps : List GrantAppShape) :
    SameOffers (unreducedFilterRulesForReceiver doc xs a apps)
      (unreducedFilterRulesForReceiver doc ys b apps) := by
  refine coalesce (of_alike ?_)
  exact (Alike.eq_refl _).flatMap fun grant _ heq =>
    heq ▸ grantRules_alike h grant hab

lemma aclToGlobalFilterRules_same (apps : List GrantAppShape) :
    SameOffers (aclToGlobalFilterRules doc xs apps) (aclToGlobalFilterRules doc ys apps) := by
  refine coalesce (of_alike ?_)
  exact (Alike.eq_refl _).flatMap fun grant _ heq =>
    heq ▸ grantRules_alike h grant (show SameReceiver doc none none from trivial)

/-- The filters served to equivalent receivers offer the same. -/
theorem aclToFilterRulesForReceiver_same {a b : PacketFilterNode} (hab : NodeEquiv doc a b)
    (apps : List GrantAppShape) :
    SameOffers (aclToFilterRulesForReceiver doc xs a apps)
      (aclToFilterRulesForReceiver doc ys b apps) := by
  have hwhole := (unreducedFilterRulesForReceiver_same h hab apps).append
    (of_alike (exitNodeSelfRules_alike h hab apps))
  unfold aclToFilterRulesForReceiver
  rw [reduceFilterRulesForNode_eq hab]
  exact hwhole.reduce
    ((unreducedFilterRulesForReceiver_emitted _ _ _ _).append (exitNodeSelfRules_emitted _ _ _ _))
    ((unreducedFilterRulesForReceiver_emitted _ _ _ _).append (exitNodeSelfRules_emitted _ _ _ _))
    b

end Rules

end Headscale.Policy
