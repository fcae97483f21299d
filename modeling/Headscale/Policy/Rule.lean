import Headscale.Policy.IpSet

/-!
# Filter rules

The rules of a compiled packet filter, the nodes they are compiled for, and what a list of rules
means: which packets it accepts and which capabilities it grants. A filter denies by default, so a
packet is accepted when some rule accepts it.
-/

namespace Headscale.Policy

open GoNetip

/-! ## Data -/

/-- `tailcfg.PortRange`. -/
structure PortRange where
  first : Nat
  last : Nat
deriving DecidableEq, Repr

/-- `tailcfg.NetPortRange`. -/
structure NetPortRange where
  ip : String
  ports : PortRange
deriving DecidableEq, Repr

/-- A capability map in key order: each capability with its values, absent where the wire has
`null`. A value is kept as its JSON text. -/
abbrev CapMap := List (String × Option (List String))

/-- `tailcfg.CapGrant`. -/
structure CapGrant where
  dsts : List String := []
  caps : List String := []
  capMap : CapMap := []
deriving DecidableEq, Repr

/-- `tailcfg.FilterRule`. No protocols means any protocol. -/
structure FilterRule where
  srcIps : List String := []
  dstPorts : List NetPortRange := []
  ipProto : List Int := []
  capGrant : List CapGrant := []
deriving DecidableEq, Repr

/-- The node facts a packet filter is compiled and reduced with. -/
structure PacketFilterNode where
  id : Nat
  userId : Option Nat := none
  user : Option String := none
  addrs : List String := []
  tags : List String := []
  routes : List String := []
deriving DecidableEq, Repr

/-! ## Meaning -/

structure Packet where
  src : IpAddr
  proto : Int
  dst : IpAddr
  port : Nat
deriving DecidableEq, Repr

def PortRange.Contains (range : PortRange) (port : Nat) : Prop :=
  range.first ≤ port ∧ port ≤ range.last

instance (range : PortRange) (port : Nat) : Decidable (range.Contains port) :=
  inferInstanceAs (Decidable (_ ∧ _))

/-- The addresses a filter string stands for. -/
def FilterStringMem (value : String) (ip : IpAddr) : Prop :=
  ∃ set ∈ IpSet.fromFilterString value, set.Mem ip

instance (value : String) (ip : IpAddr) : Decidable (FilterStringMem value ip) :=
  inferInstanceAs (Decidable (∃ set ∈ IpSet.fromFilterString value, set.Mem ip))

/-- The addresses a prefix stands for. -/
def PrefixMem (value : String) (ip : IpAddr) : Prop := ∃ s ∈ prefixSpan value, s.Mem ip

instance (value : String) (ip : IpAddr) : Decidable (PrefixMem value ip) :=
  inferInstanceAs (Decidable (∃ s ∈ prefixSpan value, s.Mem ip))

namespace FilterRule

/-- The rule applies to packets from this source. -/
def HasSource (rule : FilterRule) (src : IpAddr) : Prop := ∃ s ∈ rule.srcIps, FilterStringMem s src

def HasProtocol (rule : FilterRule) (proto : Int) : Prop :=
  rule.ipProto = [] ∨ proto ∈ rule.ipProto

def Accepts (rule : FilterRule) (packet : Packet) : Prop :=
  rule.HasSource packet.src ∧ rule.HasProtocol packet.proto ∧
    ∃ d ∈ rule.dstPorts, FilterStringMem d.ip packet.dst ∧ d.ports.Contains packet.port

instance (rule : FilterRule) (packet : Packet) : Decidable (rule.Accepts packet) := by
  unfold Accepts HasSource HasProtocol
  infer_instance

end FilterRule

/-- The grant gives the capability, with these values, at the destination. -/
def CapGrant.Gives (grant : CapGrant) (dst : IpAddr) (cap : String)
    (values : Option (List String)) : Prop :=
  (∃ d ∈ grant.dsts, PrefixMem d dst) ∧
    ((cap, values) ∈ grant.capMap ∨ (cap ∈ grant.caps ∧ values = none))

/-- The rule grants the source a capability at the destination. -/
def FilterRule.Grants (rule : FilterRule) (src dst : IpAddr) (cap : String)
    (values : Option (List String)) : Prop :=
  rule.HasSource src ∧ ∃ grant ∈ rule.capGrant, grant.Gives dst cap values

/-- The filter accepts the packet. -/
def Accepts (rules : List FilterRule) (packet : Packet) : Prop :=
  ∃ rule ∈ rules, rule.Accepts packet

instance (rules : List FilterRule) (packet : Packet) : Decidable (Accepts rules packet) :=
  inferInstanceAs (Decidable (∃ rule ∈ rules, rule.Accepts packet))

/-- The filter grants the capability. -/
def Grants (rules : List FilterRule) (src dst : IpAddr) (cap : String)
    (values : Option (List String)) : Prop :=
  ∃ rule ∈ rules, rule.Grants src dst cap values

namespace PacketFilterNode

/-- The address is one of the node's own; a zoned address counts for no node. -/
def HasAddress (node : PacketFilterNode) (ip : IpAddr) : Prop :=
  ∃ addr ∈ node.addrs, parseAddr addr = .ok (ip, none)

/-- The address lies inside one of the node's routes. -/
def Routes (node : PacketFilterNode) (ip : IpAddr) : Prop := ∃ route ∈ node.routes, PrefixMem route ip

end PacketFilterNode

/-- `IpSet::contains_node`. -/
def IpSet.containsNode (set : IpSet) (node : PacketFilterNode) : Bool :=
  node.addrs.any set.containsIp

lemma IpSet.containsNode_iff {set : IpSet} {node : PacketFilterNode} :
    set.containsNode node = true ↔ ∃ ip, node.HasAddress ip ∧ set.Mem ip := by
  simp only [containsNode, List.any_eq_true, containsIp_iff, PacketFilterNode.HasAddress]
  tauto

/-- A destination is read as the text it was printed from. -/
@[simp] theorem prefixMem_toString (net : IpNet) (ip : IpAddr) :
    PrefixMem net.toString ip ↔ net.contains ip = true := by
  simp [PrefixMem, mem_ipnetInterval]

lemma prefixMem_iff {value : String} {ip : IpAddr} :
    PrefixMem value ip ↔ ∃ net ∈ parsePrefixNet value, net.contains ip = true := by
  simp [PrefixMem, prefixSpan, mem_ipnetInterval]

end Headscale.Policy
