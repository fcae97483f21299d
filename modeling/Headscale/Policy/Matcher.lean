import Headscale.Policy.Compile

/-!
# Matchers

Which nodes see each other, and which routes a node may use, is decided by matchers: each rule
reduced to a set of sources and a set of destinations, without ports and protocols.
-/

namespace Headscale.Policy

open GoNetip

/-- The set meets a route of the node other than an exit route. -/
def IpSet.overlapsSubnets (set : IpSet) (node : PacketFilterNode) : Bool :=
  (node.routes.filter fun route => !isExitRoute route).any set.overlapsPrefix

open IpSet

structure RuleMatcher where
  sources : IpSet
  destinations : IpSet
  internet : Bool
deriving DecidableEq

namespace RuleMatcher

def ruleDestinations (rule : FilterRule) : IpSet :=
  (fromFilterStrings (rule.dstPorts.map NetPortRange.ip)).union
    (fromPrefixStrings (rule.capGrant.flatMap CapGrant.dsts))

/-- The set holds one of the exit prefixes, or all of the public internet. -/
def coversInternet (set : IpSet) : Bool :=
  set.containsPrefix "0.0.0.0/0" || set.containsPrefix "::/0" ||
    internetFilterCidrs.all set.containsPrefix

def fromRule (rule : FilterRule) : RuleMatcher :=
  { sources := fromFilterStrings rule.srcIps
    destinations := ruleDestinations rule
    internet := coversInternet (ruleDestinations rule) }

def fromRules (rules : List FilterRule) : List RuleMatcher := rules.map fromRule

def canAccess (matchers : List RuleMatcher) (source target : PacketFilterNode) : Bool :=
  matchers.any fun matcher =>
    (matcher.sources.containsNode source || matcher.sources.overlapsSubnets source) &&
      (matcher.destinations.containsNode target || matcher.destinations.overlapsSubnets target ||
        (matcher.internet && target.routes.any isExitRoute))

def canAccessRoute (matchers : List RuleMatcher) (source : PacketFilterNode) (route : String) :
    Bool :=
  matchers.any fun matcher =>
    (matcher.sources.containsNode source && matcher.destinations.overlapsPrefix route) ||
      (matcher.sources.overlapsPrefix route && matcher.destinations.containsNode source) ||
      (matcher.sources.overlapsSubnets source && matcher.destinations.overlapsPrefix route) ||
      (matcher.sources.overlapsPrefix route && matcher.destinations.overlapsSubnets source)

end RuleMatcher

/-! ## Sources and destinations of a rule -/

namespace FilterRule

/-- The address is a destination of the rule, of a port entry or of a capability grant. -/
def HasDestination (rule : FilterRule) (dst : IpAddr) : Prop :=
  (∃ d ∈ rule.dstPorts, FilterStringMem d.ip dst) ∨
    ∃ grant ∈ rule.capGrant, ∃ d ∈ grant.dsts, PrefixMem d dst

lemma Accepts.hasDestination {rule : FilterRule} {packet : Packet} (h : rule.Accepts packet) :
    rule.HasDestination packet.dst := by
  obtain ⟨-, -, d, hd, hmem, -⟩ := h
  exact .inl ⟨d, hd, hmem⟩

end FilterRule

variable {rule : FilterRule}

open RuleMatcher

lemma mem_sources {ip : IpAddr} :
    (fromRule rule).sources.Mem ip ↔ rule.HasSource ip := by
  simp [fromRule, FilterRule.HasSource, FilterStringMem]

lemma mem_destinations {ip : IpAddr} :
    (fromRule rule).destinations.Mem ip ↔ rule.HasDestination ip := by
  simp only [fromRule, ruleDestinations, FilterRule.HasDestination, FilterStringMem, PrefixMem]
  aesop

/-- A rule from an address of one node to an address of another makes them see each other. -/
theorem canAccess_of_addresses {rules : List FilterRule} (hrule : rule ∈ rules)
    {source target : PacketFilterNode} {src dst : IpAddr} (hsrc : source.HasAddress src)
    (hdst : target.HasAddress dst) (hsource : rule.HasSource src)
    (hdest : rule.HasDestination dst) :
    canAccess (fromRules rules) source target = true := by
  refine List.any_eq_true.mpr ⟨fromRule rule, List.mem_map_of_mem hrule, ?_⟩
  have hs : (fromRule rule).sources.containsNode source = true :=
    containsNode_iff.mpr ⟨src, hsrc, mem_sources.mpr hsource⟩
  have hd : (fromRule rule).destinations.containsNode target = true :=
    containsNode_iff.mpr ⟨dst, hdst, mem_destinations.mpr hdest⟩
  simp [hs, hd]

end Headscale.Policy
