import Headscale.Policy.Matcher

/-!
# What a filter offers

A filter is used entry by entry: a source is offered port entries, each with the protocols of its
rule, and capability grants. Merging rules changes the rules and keeps the offers, and everything
but the test for the whole internet can be read off the offers. Two filters with the same offers
accept the same packets, grant the same capabilities, and stay alike when they are reduced to a
node.
-/

namespace Headscale.Policy

open GoNetip Collection List RuleMatcher

/-! ## Offers -/

/-- One entry of a rule. -/
inductive Offer where
  | port (ipProto : List Int) (entry : NetPortRange)
  | cap (grant : CapGrant)

def FilterRule.Offers (rule : FilterRule) : Offer → Prop
  | .port ipProto entry => rule.ipProto = ipProto ∧ entry ∈ rule.dstPorts
  | .cap grant => grant ∈ rule.capGrant

/-- Some rule of the filter applies to the source and has the entry. -/
def Offers (rules : List FilterRule) (src : IpAddr) (offer : Offer) : Prop :=
  ∃ rule ∈ rules, rule.HasSource src ∧ rule.Offers offer

def SameOffers (a b : List FilterRule) : Prop := ∀ src offer, Offers a src offer ↔ Offers b src offer

/-- The entry has the address among its destinations. -/
def Offer.At (dst : IpAddr) : Offer → Prop
  | .port _ entry => FilterStringMem entry.ip dst
  | .cap grant => ∃ d ∈ grant.dsts, PrefixMem d dst

/-- The entry accepts the packet from the sources it is offered to. -/
def Offer.Accepts (packet : Packet) : Offer → Prop
  | .port ipProto entry =>
    (ipProto = [] ∨ packet.proto ∈ ipProto) ∧ FilterStringMem entry.ip packet.dst ∧
      entry.ports.Contains packet.port
  | .cap _ => False

variable {rules : List FilterRule}

lemma accepts_iff_offers {packet : Packet} :
    Accepts rules packet ↔ ∃ offer, Offers rules packet.src offer ∧ offer.Accepts packet := by
  constructor
  · rintro ⟨rule, hrule, hsrc, hproto, d, hd, hmatch⟩
    exact ⟨.port rule.ipProto d, ⟨rule, hrule, hsrc, rfl, hd⟩, hproto, hmatch⟩
  · rintro ⟨offer, ⟨rule, hrule, hsrc, hoffer⟩, haccepts⟩
    cases offer with
    | port ipProto d =>
      obtain ⟨rfl, hd⟩ := hoffer
      exact ⟨rule, hrule, hsrc, haccepts.1, d, hd, haccepts.2⟩
    | cap grant => exact haccepts.elim

variable (doc : PolicyDoc) {rule : FilterRule}

lemma FilterRule.hasDestination_iff_offers {dst : IpAddr} :
    rule.HasDestination dst ↔ ∃ offer, rule.Offers offer ∧ offer.At dst := by
  constructor
  · rintro (⟨d, hd, hdst⟩ | ⟨grant, hgrant, hdst⟩)
    · exact ⟨.port rule.ipProto d, ⟨rfl, hd⟩, hdst⟩
    · exact ⟨.cap grant, hgrant, hdst⟩
  · rintro ⟨offer, hoffer, hat⟩
    cases offer with
    | port ipProto d => exact .inl ⟨d, hoffer.2, hat⟩
    | cap grant => exact .inr ⟨grant, hoffer, hat⟩

/-- The filter leads from the source to the destination, on whatever port or by a grant. -/
def Links (rules : List FilterRule) (src dst : IpAddr) : Prop :=
  ∃ rule ∈ rules, rule.HasSource src ∧ rule.HasDestination dst

open FilterRule

lemma links_iff_offers {src dst : IpAddr} :
    Links rules src dst ↔ ∃ offer, Offers rules src offer ∧ offer.At dst := by
  simp only [Links, hasDestination_iff_offers]
  constructor
  · rintro ⟨rule, hrule, hsrc, offer, hoffer, hat⟩
    exact ⟨offer, ⟨rule, hrule, hsrc, hoffer⟩, hat⟩
  · rintro ⟨offer, ⟨rule, hrule, hsrc, hoffer⟩, hat⟩
    exact ⟨rule, hrule, hsrc, offer, hoffer, hat⟩

namespace SameOffers

variable {a b : List FilterRule}

lemma refl (rules : List FilterRule) : SameOffers rules rules := fun _ _ => Iff.rfl

lemma symm (h : SameOffers a b) : SameOffers b a := fun src offer => (h src offer).symm

lemma trans {c : List FilterRule} (hab : SameOffers a b) (hbc : SameOffers b c) :
    SameOffers a c := fun src offer => (hab src offer).trans (hbc src offer)

lemma accepts_iff (h : SameOffers a b) (packet : Packet) :
    Accepts a packet ↔ Accepts b packet := by
  simp only [accepts_iff_offers, h _ _]

lemma links_iff (h : SameOffers a b) (src dst : IpAddr) : Links a src dst ↔ Links b src dst := by
  simp only [links_iff_offers, h _ _]

end SameOffers

/-! ## Putting filters together -/

variable {node : PacketFilterNode} (nodes : List PacketFilterNode) {src : IpAddr} {offer : Offer}

lemma offers_append {a b : List FilterRule} :
    Offers (a ++ b) src offer ↔ Offers a src offer ∨ Offers b src offer := by
  simp only [Offers, mem_append, or_and_right, exists_or]

lemma SameOffers.append {a b c d : List FilterRule} (hab : SameOffers a b)
    (hcd : SameOffers c d) : SameOffers (a ++ c) (b ++ d) := by
  intro src offer
  rw [offers_append, offers_append, hab, hcd]

/-- Rules that differ in the order of their entries only. -/
structure FilterRule.Equiv (a b : FilterRule) : Prop where
  srcIps : ∀ value, value ∈ a.srcIps ↔ value ∈ b.srcIps
  dstPorts : ∀ entry, entry ∈ a.dstPorts ↔ entry ∈ b.dstPorts
  ipProto : a.ipProto = b.ipProto
  capGrant : ∀ grant, grant ∈ a.capGrant ↔ grant ∈ b.capGrant

lemma FilterRule.Equiv.refl (rule : FilterRule) : rule.Equiv rule :=
  ⟨fun _ => Iff.rfl, fun _ => Iff.rfl, rfl, fun _ => Iff.rfl⟩

lemma SameOffers.of_alike {a b : List FilterRule} (h : Alike FilterRule.Equiv a b) :
    SameOffers a b := by
  intro src offer
  refine h.exists_iff fun x y hxy => and_congr ?_ ?_
  · simp only [FilterRule.HasSource, hxy.srcIps]
  · cases offer with
    | port ipProto d => simp only [FilterRule.Offers, hxy.ipProto, hxy.dstPorts]
    | cap grant => exact hxy.capGrant grant

/-! ## Merging -/

lemma offers_mergeInto (hcap : rule.capGrant = []) (out : List FilterRule) :
    Offers (mergeInto rule out) src offer ↔
      Offers out src offer ∨ (rule.HasSource src ∧ rule.Offers offer) := by
  induction out with
  | nil => simp [mergeInto, Offers]
  | cons existing rest ih =>
    rw [mergeInto]
    split
    · rename_i hsame
      obtain ⟨hnone, hsrc, hproto⟩ := hsame
      -- The merged rule has the sources and protocols of both and the entries of either.
      have hsource : existing.HasSource src ↔ rule.HasSource src := by
        simp only [FilterRule.HasSource, hsrc]
      have hoffer : FilterRule.Offers
          { existing with dstPorts := existing.dstPorts ++ rule.dstPorts } offer ↔
          existing.Offers offer ∨ rule.Offers offer := by
        cases offer with
        | port ipProto d => simp [FilterRule.Offers, hproto, and_or_left]
        | cap grant => simp [FilterRule.Offers, hcap]
      simp only [Offers, exists_mem_cons_iff]
      rw [hoffer]
      change existing.HasSource src ∧ _ ∨ _ ↔ _
      rw [← hsource, and_or_left, or_right_comm]
    · simp only [Offers, exists_mem_cons_iff] at ih ⊢
      rw [ih, or_assoc]

lemma offers_appendCoalescedFilterRule (out : List FilterRule) (rule : FilterRule) :
    Offers (appendCoalescedFilterRule out rule) src offer ↔
      Offers out src offer ∨ (rule.HasSource src ∧ rule.Offers offer) := by
  unfold appendCoalescedFilterRule
  split
  · simp [Offers]
  · rename_i hcap
    exact offers_mergeInto (not_not.mp hcap) out

/-- Merging keeps the offers. -/
theorem offers_coalesceFilterRules (rules : List FilterRule) :
    Offers (coalesceFilterRules rules) src offer ↔ Offers rules src offer := by
  have hfold : ∀ out, Offers (rules.foldl appendCoalescedFilterRule out) src offer ↔
      Offers out src offer ∨ Offers rules src offer := by
    induction rules with
    | nil => simp [Offers]
    | cons rule rest ih =>
      intro out
      rw [foldl_cons, ih, offers_appendCoalescedFilterRule, or_assoc]
      simp [Offers]
  rw [coalesceFilterRules, hfold]
  simp [Offers]

lemma SameOffers.coalesce {a b : List FilterRule} (h : SameOffers a b) :
    SameOffers (coalesceFilterRules a) (coalesceFilterRules b) := by
  intro src offer
  rw [offers_coalesceFilterRules, offers_coalesceFilterRules, h]

/-! ## Compiled rules -/

/-- Every rule is of the form the compiler emits. -/
def AllEmitted (rules : List FilterRule) : Prop := ∀ rule ∈ rules, rule.Emitted

lemma FilterRule.emitted_of_ports (h : rule.capGrant = []) : rule.Emitted :=
  ⟨.inr h, by simp [h]⟩

lemma AllEmitted.append {a b : List FilterRule} (ha : AllEmitted a) (hb : AllEmitted b) :
    AllEmitted (a ++ b) := fun rule hrule => (mem_append.mp hrule).elim (ha rule) (hb rule)

lemma AllEmitted.cons {rule : FilterRule} {rules : List FilterRule} (h : rule.Emitted)
    (hrules : AllEmitted rules) : AllEmitted (rule :: rules) :=
  forall_mem_cons.mpr ⟨h, hrules⟩

lemma AllEmitted.flatMap {α : Type} {xs : List α} {f : α → List FilterRule}
    (h : ∀ x ∈ xs, AllEmitted (f x)) : AllEmitted (xs.flatMap f) := by
  intro rule hrule
  obtain ⟨x, hx, hrule⟩ := mem_flatMap.mp hrule
  exact h x hx rule hrule

lemma allEmitted_nil : AllEmitted [] := by simp [AllEmitted]

variable (grant : FilterGrant) (receiver : PacketFilterNode) {set : IpSet} (srcIps : List String)

lemma networkRules_emitted (dstIps : List String) (groups : List PortGroup)
    (keepPrefixes : Bool) : AllEmitted (networkRules srcIps dstIps groups keepPrefixes) := by
  unfold networkRules
  split
  · exact allEmitted_nil
  · intro rule hrule
    obtain ⟨group, -, rfl⟩ := mem_map.mp hrule
    exact emitted_of_ports rfl

lemma companionCapGrantRules_emitted (dstIpStrings srcIps : List String) (app : CapabilityMap) :
    AllEmitted (companionCapGrantRules dstIpStrings srcIps app) := by
  intro rule hrule
  obtain ⟨cap, -, rfl⟩ := mem_map.mp hrule
  exact ⟨.inl rfl, by simp⟩

lemma capGrantRules_emitted (companionSrc dsts : List String) (app : CapabilityMap)
    (shape : Option GrantAppShape) :
    AllEmitted (capGrantRules doc nodes srcIps companionSrc dsts app shape) := by
  simp only [capGrantRules]
  split
  · exact allEmitted_nil
  · refine .cons ⟨.inl rfl, fun grant hgrant => ?_⟩ (companionCapGrantRules_emitted _ _ _)
    obtain ⟨prefixes, -, rfl⟩ := mem_map.mp hgrant
    rfl

lemma selfRules_emitted (sourcePrefixes : List String) (userNodes : List PacketFilterNode) :
    AllEmitted (selfRules grant sourcePrefixes userNodes) := by
  simp only [selfRules]
  split
  · exact allEmitted_nil
  refine AllEmitted.append ?_ ?_
  · intro rule hrule
    obtain ⟨group, -, rfl⟩ := mem_map.mp (mem_filter.mp hrule).1
    exact emitted_of_ports rfl
  · split
    · exact allEmitted_nil
    · split
      · exact allEmitted_nil
      · exact .cons ⟨.inl rfl, by simp⟩ (companionCapGrantRules_emitted _ _ _)

lemma grantRules_emitted (nodes : List PacketFilterNode) (receiver : Option PacketFilterNode) :
    AllEmitted (grantRules doc grant nodes receiver) := by
  have hvia : ∀ node, AllEmitted (viaGrantRules doc grant nodes node) := by
    intro node
    unfold viaGrantRules
    split
    · exact allEmitted_nil
    · exact networkRules_emitted _ _ _ _
  have hother : AllEmitted (otherGrantRules doc grant nodes) := by
    simp only [otherGrantRules]
    split
    · exact allEmitted_nil
    refine (networkRules_emitted _ _ _ _).append ?_
    split
    · exact allEmitted_nil
    · exact capGrantRules_emitted _ _ _ _ _ _ _
  unfold grantRules
  split
  · split
    · exact allEmitted_nil
    · exact hvia _
  split
  · exact allEmitted_nil
  refine hother.append ?_
  split
  · exact allEmitted_nil
  · split
    · exact selfRules_emitted _ _ _
    · exact allEmitted_nil

lemma mergeInto_emitted (hcap : rule.capGrant = []) {out : List FilterRule}
    (hout : AllEmitted out) : AllEmitted (mergeInto rule out) := by
  induction out with
  | nil => exact .cons (emitted_of_ports hcap) allEmitted_nil
  | cons existing rest ih =>
    obtain ⟨hexisting, hrest⟩ := forall_mem_cons.mp hout
    rw [mergeInto]
    split
    · rename_i hsame
      exact .cons (emitted_of_ports hsame.1) hrest
    · exact .cons hexisting (ih hrest)

lemma coalesceFilterRules_emitted (h : AllEmitted rules) :
    AllEmitted (coalesceFilterRules rules) := by
  have hfold : ∀ out, AllEmitted out → AllEmitted (rules.foldl appendCoalescedFilterRule out) := by
    induction rules with
    | nil => exact fun out hout => hout
    | cons rule rest ih =>
      obtain ⟨hrule, hrest⟩ := forall_mem_cons.mp h
      intro out hout
      refine ih hrest _ ?_
      unfold appendCoalescedFilterRule
      split
      · exact hout.append (.cons hrule allEmitted_nil)
      · rename_i hcap
        exact mergeInto_emitted (not_not.mp hcap) hout
  exact hfold [] allEmitted_nil

variable (apps : List GrantAppShape)

lemma aclToGlobalFilterRules_emitted :
    AllEmitted (aclToGlobalFilterRules doc nodes apps) :=
  coalesceFilterRules_emitted (.flatMap fun grant _ => grantRules_emitted doc grant nodes none)

lemma unreducedFilterRulesForReceiver_emitted :
    AllEmitted (unreducedFilterRulesForReceiver doc nodes receiver apps) :=
  coalesceFilterRules_emitted (.flatMap fun grant _ => grantRules_emitted doc grant nodes _)

lemma exitNodeSelfRules_emitted :
    AllEmitted (exitNodeSelfRules doc nodes receiver apps) := by
  unfold exitNodeSelfRules
  split
  · exact allEmitted_nil
  · exact .flatMap fun grant _ => .flatMap fun owner _ => selfRules_emitted _ _ _

/-! ## Reduction -/

/-- What is left of an entry at a node. -/
def Offer.reduce (node : PacketFilterNode) : Offer → Option Offer
  | .port ipProto entry => if keepsDestination node entry then some (.port ipProto entry) else none
  | .cap grant => (reduceCapGrant node grant).map .cap

open Offer

/-- A reduced rule applies to the same sources and offers the reduced entries. -/
theorem reduceRule_offers {rule reduced : FilterRule} (hrule : rule.Emitted)
    (hr : reduceRule node rule = some reduced) (offer : Offer) :
    reduced.srcIps = rule.srcIps ∧
      (reduced.Offers offer ↔ ∃ whole, rule.Offers whole ∧ whole.reduce node = some offer) := by
  by_cases hcap : rule.capGrant = []
  · obtain rfl := reduceRule_ports hcap hr
    refine ⟨rfl, ?_⟩
    cases offer with
    | port ipProto d =>
      constructor
      · rintro ⟨hproto, hd⟩
        obtain ⟨hd, hkeep⟩ := mem_filter.mp hd
        exact ⟨.port ipProto d, ⟨hproto, hd⟩, by simp [reduce, hkeep]⟩
      · rintro ⟨whole, hwhole, hred⟩
        cases whole with
        | port wholeProto wholeEntry =>
          by_cases hkeep : keepsDestination node wholeEntry = true
          · simp only [reduce, hkeep] at hred
            obtain ⟨rfl, rfl⟩ := hred
            exact ⟨hwhole.1, mem_filter.mpr ⟨hwhole.2, hkeep⟩⟩
          · simp [reduce, hkeep] at hred
        | cap grant => simp [reduce] at hred
    | cap grant =>
      have hnone : ∀ whole, rule.Offers whole → whole.reduce node ≠ some (.cap grant) := by
        rintro (⟨_, d⟩ | g) hwhole
        · by_cases hkeep : keepsDestination node d = true <;> simp [reduce]
        · simp [FilterRule.Offers, hcap] at hwhole
      have hleft : ¬ grant ∈ rule.capGrant := by simp [hcap]
      exact iff_of_false hleft fun ⟨whole, hwhole, hred⟩ => hnone whole hwhole hred
  · have hports : rule.dstPorts = [] := hrule.exclusive.resolve_right hcap
    obtain rfl := reduceRule_caps hcap hr
    refine ⟨rfl, ?_⟩
    cases offer with
    | port ipProto d =>
      refine iff_of_false (by simp [FilterRule.Offers]) ?_
      rintro ⟨whole, hwhole, hred⟩
      cases whole with
      | port wholeProto wholeEntry => simp [FilterRule.Offers, hports] at hwhole
      | cap grant => simp [reduce] at hred
    | cap grant =>
      constructor
      · intro hmem
        obtain ⟨whole, hwhole, hred⟩ := mem_filterMap.mp hmem
        exact ⟨.cap whole, hwhole, by simp [reduce, hred]⟩
      · rintro ⟨whole, hwhole, hred⟩
        cases whole with
        | port wholeProto wholeEntry => simp [FilterRule.Offers, hports] at hwhole
        | cap wholeGrant =>
          refine mem_filterMap.mpr ⟨wholeGrant, hwhole, ?_⟩
          simpa [reduce] using hred

/-- A rule with an entry that is kept at the node is kept. -/
theorem reduceRule_isSome (hrule : rule.Emitted) {whole offer : Offer}
    (hwhole : rule.Offers whole) (hred : whole.reduce node = some offer) :
    ∃ reduced, reduceRule node rule = some reduced := by
  cases whole with
  | port ipProto d =>
    have hcap := hrule.exclusive.resolve_left (ne_nil_of_mem hwhole.2)
    have hkeep : keepsDestination node d = true := by
      by_contra hdrop
      simp [reduce, hdrop] at hred
    exact ⟨_, reduceRule_eq_some hcap hwhole.2 hkeep⟩
  | cap grant =>
    cases hgrant : reduceCapGrant node grant with
    | none => simp [reduce, hgrant] at hred
    | some narrowed =>
      have hmem : narrowed ∈ rule.capGrant.filterMap (reduceCapGrant node) :=
        mem_filterMap.mpr ⟨grant, hwhole, hgrant⟩
      rw [reduceRule, if_pos (ne_nil_of_mem hwhole)]
      exact ⟨_, if_neg (ne_nil_of_mem hmem)⟩

lemma offers_reduceFilterRulesForNode (node : PacketFilterNode) (hrules : AllEmitted rules) :
    Offers (reduceFilterRulesForNode rules node) src offer ↔
      ∃ whole, Offers rules src whole ∧ whole.reduce node = some offer := by
  constructor
  · rintro ⟨reduced, hmem, hsrc, hoffer⟩
    obtain ⟨rule, hrule, hr⟩ := mem_reduceFilterRulesForNode.mp hmem
    obtain ⟨hsame, hiff⟩ := reduceRule_offers (hrules rule hrule) hr offer
    obtain ⟨whole, hwhole, hred⟩ := hiff.mp hoffer
    refine ⟨whole, ⟨rule, hrule, ?_, hwhole⟩, hred⟩
    rwa [FilterRule.HasSource, ← hsame]
  · rintro ⟨whole, ⟨rule, hrule, hsrc, hwhole⟩, hred⟩
    obtain ⟨reduced, hr⟩ := reduceRule_isSome (hrules rule hrule) hwhole hred
    obtain ⟨hsame, hiff⟩ := reduceRule_offers (hrules rule hrule) hr offer
    refine ⟨reduced, mem_reduceFilterRulesForNode.mpr ⟨rule, hrule, hr⟩, ?_,
      hiff.mpr ⟨whole, hwhole, hred⟩⟩
    rwa [FilterRule.HasSource, hsame]

lemma SameOffers.reduce {a b : List FilterRule} (h : SameOffers a b)
    (ha : AllEmitted a) (hb : AllEmitted b) (node : PacketFilterNode) :
    SameOffers (reduceFilterRulesForNode a node) (reduceFilterRulesForNode b node) := by
  intro src offer
  simp only [offers_reduceFilterRulesForNode node ha, offers_reduceFilterRulesForNode node hb,
    h _ _]

/-! ## Matchers read the offers -/

/-- The address is one of the node's own or lies in one of its subnet routes. -/
def PacketFilterNode.Speaks (node : PacketFilterNode) (ip : IpAddr) : Prop :=
  node.HasAddress ip ∨ ∃ route ∈ node.routes, isExitRoute route = false ∧ PrefixMem route ip

lemma IpSet.overlapsSubnets_iff :
    set.overlapsSubnets node = true ↔
      ∃ ip, (∃ route ∈ node.routes, isExitRoute route = false ∧ PrefixMem route ip) ∧
        set.Mem ip := by
  simp only [overlapsSubnets, any_eq_true, mem_filter, overlapsPrefix_iff, Bool.not_eq_true']
  constructor
  · rintro ⟨route, ⟨hroute, hexit⟩, s, hs, ip, hip, hmem⟩
    exact ⟨ip, ⟨route, hroute, hexit, s, hs, hip⟩, hmem⟩
  · rintro ⟨ip, ⟨route, hroute, hexit, s, hs, hip⟩, hmem⟩
    exact ⟨route, ⟨hroute, hexit⟩, s, hs, ip, hip, hmem⟩

lemma IpSet.speaks_iff :
    (set.containsNode node || set.overlapsSubnets node) = true ↔
      ∃ ip, node.Speaks ip ∧ set.Mem ip := by
  rw [Bool.or_eq_true, containsNode_iff, overlapsSubnets_iff, ← exists_or]
  simp only [PacketFilterNode.Speaks, or_and_right]

/-- Between nodes that are no exits, access is a link between two addresses they speak for. -/
theorem canAccess_iff_links {source target : PacketFilterNode}
    (htarget : target.routes.any isExitRoute = false) :
    canAccess (fromRules rules) source target = true ↔
      ∃ src dst, source.Speaks src ∧ target.Speaks dst ∧ Links rules src dst := by
  simp only [canAccess, fromRules, any_map, any_eq_true,
    Function.comp_apply, htarget, Bool.and_false, Bool.or_false, Bool.and_eq_true,
    IpSet.speaks_iff, mem_sources, mem_destinations]
  constructor
  · rintro ⟨rule, hrule, ⟨src, hsrc, hsource⟩, dst, hdst, hdest⟩
    exact ⟨src, dst, hsrc, hdst, rule, hrule, hsource, hdest⟩
  · rintro ⟨src, dst, hsrc, hdst, rule, hrule, hsource, hdest⟩
    exact ⟨rule, hrule, ⟨src, hsrc, hsource⟩, dst, hdst, hdest⟩

/-- A node may use a route it is linked with, in either direction. -/
theorem canAccessRoute_iff_links {route : String} :
    canAccessRoute (fromRules rules) node route = true ↔
      ∃ src dst, Links rules src dst ∧
        ((node.Speaks src ∧ PrefixMem route dst) ∨ (PrefixMem route src ∧ node.Speaks dst)) := by
  have hroute : ∀ set : IpSet, set.overlapsPrefix route = true ↔
      ∃ ip, PrefixMem route ip ∧ set.Mem ip := by
    intro set
    rw [IpSet.overlapsPrefix_iff]
    constructor
    · rintro ⟨s, hs, ip, hip, hmem⟩
      exact ⟨ip, ⟨s, hs, hip⟩, hmem⟩
    · rintro ⟨ip, ⟨s, hs, hip⟩, hmem⟩
      exact ⟨s, hs, ip, hip, hmem⟩
  -- The four combinations of the source pair up by direction.
  have hpair : ∀ a b c d r s : Bool, (a && r || s && b || c && r || s && d) = true ↔
      ((a || c) = true ∧ r = true) ∨ (s = true ∧ (b || d) = true) := by decide
  simp only [canAccessRoute, fromRules, any_map, any_eq_true,
    Function.comp_apply, hpair, IpSet.speaks_iff, hroute, mem_sources, mem_destinations]
  constructor
  · rintro ⟨rule, hrule, ⟨⟨src, hown, hsrc⟩, dst, hin, hdst⟩ | ⟨⟨src, hin, hsrc⟩, dst, hown, hdst⟩⟩
    · exact ⟨src, dst, ⟨rule, hrule, hsrc, hdst⟩, .inl ⟨hown, hin⟩⟩
    · exact ⟨src, dst, ⟨rule, hrule, hsrc, hdst⟩, .inr ⟨hin, hown⟩⟩
  · rintro ⟨src, dst, ⟨rule, hrule, hsrc, hdst⟩, ⟨hown, hin⟩ | ⟨hin, hown⟩⟩
    · exact ⟨rule, hrule, .inl ⟨⟨src, hown, hsrc⟩, dst, hin, hdst⟩⟩
    · exact ⟨rule, hrule, .inr ⟨⟨src, hin, hsrc⟩, dst, hown, hdst⟩⟩

end Headscale.Policy
