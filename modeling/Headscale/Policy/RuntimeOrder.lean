import Headscale.Policy.NodeOrder
import Headscale.Policy.Runtime

/-!
# Runtimes compiled from equivalent nodes

Two runtimes compiled from the same inputs but for the order of nodes and routes answer alike: they
serve filters with the same offers, decide route accesses alike and give the same attributes, and
the attributes of both compile or those of neither.
-/

namespace Headscale.Policy

open GoNetip Collection List RuleMatcher

/-! ## Node attributes -/

/-- Attribute maps with the same values for every node. -/
def SameAttrs (a b : List (Nat × List String)) : Prop :=
  ∀ id value, value ∈ valuesAt a id ↔ value ∈ valuesAt b id

/-- Stamps a value list on the nodes with a property. -/
theorem foldl_entryExtend (nodes : List PacketFilterNode) (p : PacketFilterNode → Bool)
    (values : List String) {attrs : List (Nat × List String)} (h : KeysInOrder attrs) :
    KeysInOrder (nodes.foldl (fun attrs node =>
        if p node then entryExtend attrs node.id values else attrs) attrs) ∧
      ∀ id value, value ∈ valuesAt (nodes.foldl (fun attrs node =>
          if p node then entryExtend attrs node.id values else attrs) attrs) id ↔
        value ∈ valuesAt attrs id ∨
          (∃ node ∈ nodes, p node = true ∧ node.id = id) ∧ value ∈ values := by
  induction nodes generalizing attrs with
  | nil => exact ⟨h, by simp⟩
  | cons node nodes ih =>
    rw [foldl_cons]
    by_cases hp : p node = true
    · obtain ⟨hkeys, hvalues⟩ := ih (keysInOrder_entryExtend h node.id values)
      simp only [hp, if_true]
      refine ⟨hkeys, fun id value => ?_⟩
      rw [hvalues, valuesAt_entryExtend h]
      simp only [exists_mem_cons_iff, hp, true_and]
      by_cases hid : id = node.id
      · subst hid
        simp only [if_true, mem_append]
        tauto
      · rw [if_neg hid]
        have hid' : node.id ≠ id := fun heq => hid heq.symm
        simp only [hid', false_or]
    · simp only [hp, Bool.false_eq_true, exists_mem_cons_iff, false_and, false_or]
      exact ih h

/-- Results that both fail, or are both attribute maps with the same values. -/
inductive SameAttrsResult : Except AttrsError (List (Nat × List String)) →
    Except AttrsError (List (Nat × List String)) → Prop where
  | error (e e' : AttrsError) : SameAttrsResult (.error e) (.error e')
  | ok {a b : List (Nat × List String)} (h : SameAttrs a b) : SameAttrsResult (.ok a) (.ok b)

section Attrs

variable {doc : PolicyDoc} {xs ys : List PacketFilterNode}

lemma stampAttrs_same (h : SameNodes doc xs ys) (grant : NodeAttrGrant)
    {a b : List (Nat × List String)} (ha : KeysInOrder a) (hb : KeysInOrder b)
    (hab : SameAttrs a b) :
    (∃ e e', stampAttrs doc xs a grant = .error e ∧ stampAttrs doc ys b grant = .error e') ∨
      ∃ a' b', stampAttrs doc xs a grant = .ok a' ∧ stampAttrs doc ys b grant = .ok b' ∧
        KeysInOrder a' ∧ KeysInOrder b' ∧ SameAttrs a' b' := by
  have htargets := aliases_equiv h grant.target
  unfold stampAttrs
  split
  · exact .inr ⟨a, b, rfl, rfl, ha, hb, hab⟩
  simp only [ResolvedAlias.checked, htargets.errors]
  by_cases herr : (aliases doc grant.target ys).errors = []
  · simp only [herr]
    have hmatch : ∀ x y, NodeEquiv doc x y →
        (anyIpMatches (aliases doc grant.target xs).partialIps x =
          anyIpMatches (aliases doc grant.target ys).partialIps y) := by
      intro x y hxy
      have hany : ∀ addr, ((aliases doc grant.target xs).partialIps.any fun p =>
            ipsetStringContainsAddr p addr) =
          (aliases doc grant.target ys).partialIps.any fun p =>
            ipsetStringContainsAddr p addr := by
        intro addr
        rw [Bool.eq_iff_iff, any_eq_true, any_eq_true]
        simp only [htargets.members]
      simp only [anyIpMatches, hxy.addrs, hany]
    obtain ⟨hka, hva⟩ := foldl_entryExtend xs
      (anyIpMatches (aliases doc grant.target xs).partialIps) grant.attr ha
    obtain ⟨hkb, hvb⟩ := foldl_entryExtend ys
      (anyIpMatches (aliases doc grant.target ys).partialIps) grant.attr hb
    refine .inr ⟨_, _, rfl, rfl, hka, hkb, fun id value => ?_⟩
    rw [hva, hvb, hab id value]
    refine or_congr_right (and_congr_left fun _ => ?_)
    exact h.exists_iff fun x y hxy => by rw [hmatch x y hxy, hxy.id]
  · simp only [herr]
    exact .inl ⟨_, _, rfl, rfl⟩

lemma foldlM_stampAttrs_same (h : SameNodes doc xs ys) (grants : List NodeAttrGrant)
    {a b : List (Nat × List String)} (ha : KeysInOrder a) (hb : KeysInOrder b)
    (hab : SameAttrs a b) :
    SameAttrsResult (grants.foldlM (stampAttrs doc xs) a) (grants.foldlM (stampAttrs doc ys) b) := by
  induction grants generalizing a b with
  | nil => exact .ok hab
  | cons grant grants ih =>
    rw [foldlM_cons, foldlM_cons]
    rcases stampAttrs_same h grant ha hb hab with
      ⟨e, e', hx, hy⟩ | ⟨a', b', hx, hy, ha', hb', hab'⟩
    · rw [hx, hy]
      exact .error e e'
    · rw [hx, hy]
      exact ih ha' hb' hab'

lemma valuesAt_map_sortDedup (attrs : List (Nat × List String)) (id : Nat) :
    valuesAt (attrs.map fun entry => (entry.1, sortDedup entry.2)) id =
      sortDedup (valuesAt attrs id) := by
  induction attrs with
  | nil => rfl
  | cons entry attrs ih =>
    obtain ⟨key, values⟩ := entry
    by_cases hid : id = key
    · subst hid
      simp [valuesAt]
    · simp only [valuesAt, map_cons, lookup_cons_of_ne hid] at ih ⊢
      exact ih

/-- The attributes of both lists of nodes compile, to the same values, or those of neither. -/
theorem compileNodeAttrs_same (h : SameNodes doc xs ys) :
    (∃ e e', compileNodeAttrs doc xs = .error e ∧ compileNodeAttrs doc ys = .error e') ∨
      ∃ a b, compileNodeAttrs doc xs = .ok a ∧ compileNodeAttrs doc ys = .ok b ∧
        ∀ id, valuesAt a id = valuesAt b id := by
  have hnil : KeysInOrder ([] : List (Nat × List String)) := List.Pairwise.nil
  have hstart : ∀ nodes : List PacketFilterNode,
      (nodes.foldl (fun attrs node => entryExtend attrs node.id ["randomize-client-port"]) []) =
        nodes.foldl (fun attrs node =>
          if (fun _ => true) node then entryExtend attrs node.id ["randomize-client-port"]
          else attrs) [] := fun nodes => rfl
  obtain ⟨hkx, hvx⟩ := foldl_entryExtend xs (fun _ => true) ["randomize-client-port"] hnil
  obtain ⟨hky, hvy⟩ := foldl_entryExtend ys (fun _ => true) ["randomize-client-port"] hnil
  have hfold : SameAttrsResult
      (doc.nodeAttrs.foldlM (stampAttrs doc xs) (if doc.randomizeClientPort then
        xs.foldl (fun attrs node => entryExtend attrs node.id ["randomize-client-port"]) [] else []))
      (doc.nodeAttrs.foldlM (stampAttrs doc ys) (if doc.randomizeClientPort then
        ys.foldl (fun attrs node => entryExtend attrs node.id ["randomize-client-port"]) []
        else [])) := by
    split
    · refine foldlM_stampAttrs_same h _ (hstart xs ▸ hkx) (hstart ys ▸ hky) fun id value => ?_
      rw [hstart, hstart, hvx, hvy]
      refine or_congr_right (and_congr_left fun _ => ?_)
      exact h.exists_iff fun x y hxy => by rw [hxy.id]
    · exact foldlM_stampAttrs_same h _ hnil hnil fun _ _ => Iff.rfl
  simp only [compileNodeAttrs]
  generalize List.foldlM (stampAttrs doc xs) _ _ = rx at hfold ⊢
  generalize List.foldlM (stampAttrs doc ys) _ _ = ry at hfold ⊢
  cases hfold with
  | error e e' => exact .inl ⟨e, e', rfl, rfl⟩
  | ok hab =>
    refine .inr ⟨_, _, rfl, rfl, fun id => ?_⟩
    rw [valuesAt_map_sortDedup, valuesAt_map_sortDedup]
    exact sortDedup_congr (hab id)

/-- Attributes of nodes that compile alike compile or fail alike. -/
theorem attrsOf_same {policy : Option PolicyDoc}
    (hsame : ∀ doc, policy = some doc → SameNodes doc xs ys) :
    (∃ e e', attrsOf policy xs = .error e ∧ attrsOf policy ys = .error e') ∨
      ∃ a b, attrsOf policy xs = .ok a ∧ attrsOf policy ys = .ok b ∧
        ∀ id, valuesAt a id = valuesAt b id := by
  unfold attrsOf
  cases policy with
  | none => exact .inr ⟨[], [], rfl, rfl, fun _ => rfl⟩
  | some doc =>
    simp only
    split
    · exact compileNodeAttrs_same (hsame doc rfl)
    · exact .inr ⟨[], [], rfl, rfl, fun _ => rfl⟩

end Attrs

/-! ## Approvers and tag owners -/

section Owners

variable {doc : PolicyDoc} {xs ys : List PacketFilterNode}

lemma resolveOwnerIps_eq (h : SameNodes doc xs ys) (tokens : List String) :
    resolveOwnerIps doc tokens xs = resolveOwnerIps doc tokens ys :=
  IpSet.fromStrings_congr (owners_equiv h tokens).members

lemma routeApprovers_eq (h : SameNodes doc xs ys) :
    RouteApprovers.compile doc xs = RouteApprovers.compile doc ys := by
  simp only [RouteApprovers.compile, resolveOwnerIps_eq h]

lemma compileTagOwners_eq {policy : Option PolicyDoc}
    (hsame : ∀ doc, policy = some doc → SameNodes doc xs ys)
    (tagOwnerAliases : List (String × List String)) :
    compileTagOwners policy tagOwnerAliases xs = compileTagOwners policy tagOwnerAliases ys := by
  cases policy with
  | none => rfl
  | some doc => simp only [compileTagOwners, resolveOwnerIps_eq (hsame doc rfl)]

end Owners

/-! ## Filters and matchers -/

namespace CompiledRuntime

/-- The rules a node is matched against. -/
def visibilityRules (rt : CompiledRuntime) (node : PacketFilterNode) : List FilterRule :=
  if rt.perNode then rt.matcherRules node else rt.globalRules

end CompiledRuntime

section Filters

lemma globalFilter_same {policy : Option PolicyDoc} {xs ys : List PacketFilterNode}
    (hsame : ∀ doc, policy = some doc → SameNodes doc xs ys) (apps : List GrantAppShape)
    (defaultAllow : Bool) :
    SameOffers (globalFilter policy xs apps defaultAllow)
      (globalFilter policy ys apps defaultAllow) := by
  unfold globalFilter
  cases policy with
  | none => exact .refl _
  | some doc =>
    simp only
    split
    · exact .refl _
    · exact aclToGlobalFilterRules_same (hsame doc rfl) _

lemma globalFilter_emitted (doc : Option PolicyDoc) (nodes : List PacketFilterNode)
    (apps : List GrantAppShape) (defaultAllow : Bool) :
    AllEmitted (globalFilter doc nodes apps defaultAllow) := by
  have hall : AllEmitted allowAllFilterRules :=
    .cons (FilterRule.emitted_of_ports rfl) allEmitted_nil
  unfold globalFilter
  split
  · split
    · exact hall
    · exact aclToGlobalFilterRules_emitted _ _ _
  · exact hall

/-- Route accesses of equivalent nodes are decided alike. -/
theorem canAccessRoute_same {a b : List FilterRule} (h : SameOffers a b) {doc : PolicyDoc}
    {x y : PacketFilterNode} (hxy : NodeEquiv doc x y) (route : String) :
    canAccessRoute (fromRules a) x route =
      canAccessRoute (fromRules b) y route := by
  have hspeaks : ∀ ip, x.Speaks ip ↔ y.Speaks ip := by
    intro ip
    simp only [PacketFilterNode.Speaks, PacketFilterNode.HasAddress, hxy.addrs, hxy.routes]
  rw [Bool.eq_iff_iff, canAccessRoute_iff_links, canAccessRoute_iff_links]
  simp only [h.links_iff, hspeaks]

variable {rt rt' : CompiledRuntime} {opaqueDoc : OpaqueDocument} {inputs : RuntimeInputs}
  {nodes : List PacketFilterNode} (hrt : rt.CompiledFrom opaqueDoc inputs)
  (hsame : ∀ doc, inputs.doc = some doc → SameNodes doc inputs.resolverNodes nodes)
  (hrt' : rt'.CompiledFrom opaqueDoc { inputs with resolverNodes := nodes })

include hrt hsame hrt'

lemma globalRules_same : SameOffers rt.globalRules rt'.globalRules := by
  rw [hrt.globalRules, hrt'.globalRules]
  exact globalFilter_same hsame _ _

variable {a b : PacketFilterNode}

/-- The filters computed for equivalent receivers offer the same. -/
theorem freshFilter_same {known : PolicyDoc} (hknown : NodeEquiv known a b)
    (hab : ∀ doc, inputs.doc = some doc → NodeEquiv doc a b) :
    SameOffers (rt.freshFilter a) (rt'.freshFilter b) := by
  have hglobal := globalRules_same hrt hsame hrt'
  unfold CompiledRuntime.freshFilter
  rw [hrt.perNode, hrt'.perNode, hrt.doc, hrt'.doc, hrt.resolverNodes, hrt'.resolverNodes, hrt.apps,
    hrt'.apps]
  split
  · cases hdoc : inputs.doc with
    | none => exact hglobal
    | some doc => exact aclToFilterRulesForReceiver_same (hsame doc hdoc) (hab doc hdoc) _
  rw [reduceFilterRulesForNode_eq hknown]
  refine hglobal.reduce ?_ ?_ b
  · rw [hrt.globalRules]
    exact globalFilter_emitted _ _ _ _
  · rw [hrt'.globalRules]
    exact globalFilter_emitted _ _ _ _

variable (hab : ∀ doc, inputs.doc = some doc → NodeEquiv doc a b)

include hab

lemma matcherRules_same : SameOffers (rt.matcherRules a) (rt'.matcherRules b) := by
  have hglobal := globalRules_same hrt hsame hrt'
  unfold CompiledRuntime.matcherRules
  rw [hrt.doc, hrt'.doc, hrt.resolverNodes, hrt'.resolverNodes, hrt.apps, hrt'.apps]
  cases hdoc : inputs.doc with
  | none => exact hglobal
  | some doc => exact unreducedFilterRulesForReceiver_same (hsame doc hdoc) (hab doc hdoc) _

lemma visibilityRules_same : SameOffers (rt.visibilityRules a) (rt'.visibilityRules b) := by
  unfold CompiledRuntime.visibilityRules
  rw [hrt.perNode, hrt'.perNode]
  split
  · exact matcherRules_same hrt hsame hrt' hab
  · exact globalRules_same hrt hsame hrt'

end Filters

end Headscale.Policy
