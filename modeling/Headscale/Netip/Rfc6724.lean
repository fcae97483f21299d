import Headscale.Netip.Texts

/-!
# The order of destination addresses

The client sorts the addresses of a host by the rules of RFC 6724, each with the source address that
the system would use for it. The last rule looks at two IPv6 destinations only. It keeps the order
transitive since the precedence, which is compared before, separates the families.
-/

namespace Headscale.Rfc6724

open GoNetip (toIpv4Mapped)

/-! ## Attributes -/

/-- `Ipv4Addr::to_ipv6_mapped`. -/
def toIpv6Mapped (ip : Fin (2 ^ 32)) : Fin (2 ^ 128) :=
  ⟨0xffff * 2 ^ 32 + ip.val, by omega⟩

def canonical : IpAddr → IpAddr
  | .v6 ip => (toIpv4Mapped ip).getD (.v6 ip)
  | .v4 ip => .v4 ip

def octet (ip : Fin (2 ^ 128)) (i : Nat) : Nat := ip.val / 2 ^ (8 * (15 - i)) % 256

/-- The first octets, `bytes[..n]`. -/
def octets (ip : Fin (2 ^ 128)) (n : Nat) : List Nat := (List.range n).map (octet ip)

def scope (address : IpAddr) : Nat :=
  match canonical address with
  -- loopback and link local addresses
  | .v4 ip => if ip.val / 2 ^ 24 = 127 ∨ ip.val / 2 ^ 16 = 0xa9fe then 2 else 14
  | .v6 ip =>
    if ip.val = 1 ∨ octet ip 0 = 0xfe ∧ octet ip 1 &&& 0xc0 = 0x80 then 2
    else if octet ip 0 = 0xff then octet ip 1 &&& 15
    else if octet ip 0 = 0xfe ∧ octet ip 1 &&& 0xc0 = 0xc0 then 5
    else 14

structure Attributes where
  scope : Nat := 0
  precedence : Nat := 0
  label : Nat := 0

/-- The precedence and the label of the policy table. -/
def policy (ip : Fin (2 ^ 128)) : Nat × Nat :=
  if ip.val = 1 then (50, 0)
  else if (toIpv4Mapped ip).isSome then (35, 4)
  else if (octets ip 12).all (· = 0) then (1, 3)
  else if octets ip 4 = [0x20, 0x01, 0, 0] then (5, 5)
  else if octets ip 2 = [0x20, 0x02] then (30, 2)
  else if octets ip 2 = [0x3f, 0xfe] then (1, 12)
  else if octet ip 0 = 0xfe ∧ octet ip 1 &&& 0xc0 = 0xc0 then (1, 11)
  else if octet ip 0 &&& 0xfe = 0xfc then (3, 13)
  else (40, 1)

def attributes (address : IpAddr) : Attributes :=
  let (precedence, label) := policy (match address with
    | .v4 ip => toIpv6Mapped ip
    | .v6 ip => ip)
  { scope := scope address, precedence, label }

/-! ## Comparison -/

structure Candidate where
  destination : IpAddr
  destinationAttr : Attributes := attributes destination
  source : Option IpAddr
  sourceAttr : Attributes := (source.map attributes).getD {}
  destinationAttr_eq : destinationAttr = attributes destination := by rfl

/-- The bits that the upper halves of both addresses have in common, if the source is an IPv6
address. -/
def prefixLength (source : Option IpAddr) (destination : Fin (2 ^ 128)) : Nat :=
  match source with
  | some (.v6 source) =>
    (BitVec.ofNat 64 (source.val / 2 ^ 64) ^^^ BitVec.ofNat 64 (destination.val / 2 ^ 64)).clz.toNat
  | _ => 0

namespace Candidate

variable (a b : Candidate)

/-- Rules 2, 5, 6 and 8. -/
def compareAttributes : Ordering :=
  (compare (b.destinationAttr.scope == b.sourceAttr.scope)
      (a.destinationAttr.scope == a.sourceAttr.scope)).then <|
    (compare (b.destinationAttr.label == b.sourceAttr.label)
      (a.destinationAttr.label == a.sourceAttr.label)).then <|
    (compare b.destinationAttr.precedence a.destinationAttr.precedence).then
      (compare a.destinationAttr.scope b.destinationAttr.scope)

def compare : Ordering :=
  match a.source, b.source with
  | none, none => .eq
  | some _, none => .lt
  | none, some _ => .gt
  | some _, some _ =>
    if a.compareAttributes b ≠ .eq then a.compareAttributes b
    else
      match canonical a.destination, canonical b.destination with
      | .v6 aDestination, .v6 bDestination =>
        Ord.compare (prefixLength b.source bDestination) (prefixLength a.source aDestination)
      | _, _ => .eq

end Candidate

/-- The candidates, where `probe` gives the answer of `source_address` for each address and its
position. -/
def candidates (probe : Nat → IpAddr → Option IpAddr) (addresses : List IpAddr) : List Candidate :=
  addresses.zipIdx.map fun entry => { destination := entry.1, source := probe entry.2 entry.1 }

def sortAddresses (probe : Nat → IpAddr → Option IpAddr) (addresses : List IpAddr) : List IpAddr :=
  if addresses.length < 2 then addresses
  else ((candidates probe addresses).mergeSort fun a b => (a.compare b).isLE).map (·.destination)

/-! ## The order -/

lemma policy_eq_35_iff (ip : Fin (2 ^ 128)) : (policy ip).1 = 35 ↔ ip.val / 2 ^ 32 = 0xffff := by
  unfold policy toIpv4Mapped
  split
  · rename_i hone
    rw [hone]
    decide
  · split_ifs <;> simp_all

/-- The precedence of an address tells its family. -/
theorem precedence_eq_35_iff (address : IpAddr) :
    (attributes address).precedence = 35 ↔ (canonical address).family = .v4 := by
  cases address with
  | v4 ip =>
    refine iff_of_true ((policy_eq_35_iff _).mpr ?_) rfl
    dsimp only [toIpv6Mapped]
    omega
  | v6 ip =>
    refine (policy_eq_35_iff _).trans ?_
    simp only [canonical, toIpv4Mapped]
    split <;> simp_all [IpAddr.family, IpAddr.ofNat]

namespace Candidate

/-- What rule 9 compares, also for an IPv4 destination. -/
def commonBits (c : Candidate) : Nat :=
  match canonical c.destination with
  | .v6 destination => prefixLength c.source destination
  | .v4 _ => 0

instance : Std.TransCmp compareAttributes :=
  inferInstanceAs <| Std.TransCmp <|
    compareLex (fun a b : Candidate =>
      compareOn (fun c => c.destinationAttr.scope == c.sourceAttr.scope) b a) <|
    compareLex (fun a b => compareOn (fun c => c.destinationAttr.label == c.sourceAttr.label) b a) <|
    compareLex (fun a b => compareOn (·.destinationAttr.precedence) b a) <|
    compareOn (·.destinationAttr.scope)

/-- The rules for two candidates that have a source. -/
def compareReachable : Candidate → Candidate → Ordering :=
  compareLex compareAttributes fun a b => compareOn commonBits b a

instance : Std.TransCmp compareReachable :=
  inferInstanceAs <| Std.TransCmp <| compareLex _ _

lemma family_eq {a b : Candidate} (h : a.compareAttributes b = .eq) :
    (canonical a.destination).family = .v4 ↔ (canonical b.destination).family = .v4 := by
  simp only [compareAttributes, Ordering.then_eq_eq, Nat.compare_eq_eq, destinationAttr_eq] at h
  rw [← precedence_eq_35_iff, ← h.2.2.1, precedence_eq_35_iff]

lemma compare_of_some {a b : Candidate} {source source' : IpAddr} (ha : a.source = some source)
    (hb : b.source = some source') : a.compare b = compareReachable a b := by
  rw [compareReachable, compareLex, compareOn, compare, ha, hb]
  cases horder : a.compareAttributes b with
  | eq =>
    have hfamily := family_eq horder
    cases hca : canonical a.destination <;> cases hcb : canonical b.destination <;>
      simp_all [IpAddr.family, commonBits]
  | _ => rfl

instance : Std.TransCmp compare where
  eq_swap {a b} := by
    cases ha : a.source <;> cases hb : b.source
    case some.some =>
      rw [compare_of_some ha hb, compare_of_some hb ha]
      exact Std.OrientedCmp.eq_swap
    all_goals simp [compare, ha, hb]
  isLE_trans {a b c} hab hbc := by
    cases ha : a.source <;> cases hb : b.source <;> cases hc : c.source
    case some.some.some =>
      rw [compare_of_some ha hb] at hab
      rw [compare_of_some hb hc] at hbc
      rw [compare_of_some ha hc]
      exact Std.TransCmp.isLE_trans hab hbc
    all_goals simp_all [compare]

end Candidate

/-- An unreachable candidate never precedes a reachable one. -/
theorem reachable_of_isLE {a b : Candidate} (h : (a.compare b).isLE) :
    a.source.isSome ∨ b.source.isNone := by
  cases ha : a.source <;> cases hb : b.source <;> simp_all [Candidate.compare]

lemma sortAddresses_eq (probe : Nat → IpAddr → Option IpAddr) (addresses : List IpAddr) :
    sortAddresses probe addresses =
      ((candidates probe addresses).mergeSort fun a b => (a.compare b).isLE).map (·.destination) := by
  unfold sortAddresses
  split
  · match addresses with
    | [] => simp [candidates]
    | [address] => simp [candidates]
  · rfl

/-- The comparison is a total preorder. So the addresses are sorted, those that compare as equal are
left in their order, and the reachable ones come first. -/
theorem addresses_sorted :
    (∀ a : Candidate, a.compare a = .eq) ∧
    (∀ a b : Candidate, b.compare a = (a.compare b).swap) ∧
    (∀ a b c : Candidate, (a.compare b).isLE → (b.compare c).isLE → (a.compare c).isLE) ∧
    ∀ probe addresses, (sortAddresses probe addresses).Perm addresses ∧
      ∃ sorted : List (Candidate × Nat),
        sorted.Perm (candidates probe addresses).zipIdx ∧
        sortAddresses probe addresses = sorted.map (·.1.destination) ∧
        sorted.Pairwise fun a b => (a.1.source.isSome ∨ b.1.source.isNone) ∧
          (a.1.compare b.1 = .lt ∨ a.1.compare b.1 = .eq ∧ a.2 ≤ b.2) := by
  have htrans (a b c : Candidate) :
      (a.compare b).isLE → (b.compare c).isLE → (a.compare c).isLE := Std.TransCmp.isLE_trans
  have hswap (a b : Candidate) : b.compare a = (a.compare b).swap := Std.OrientedCmp.eq_swap
  refine ⟨fun a => Std.ReflCmp.compare_self, hswap, htrans,
    fun probe addresses => ⟨?_, _, List.mergeSort_perm _ (List.zipIdxLE fun a b => (a.compare b).isLE),
      ?_, ?_⟩⟩
  · rw [sortAddresses_eq]
    refine ((List.mergeSort_perm _ _).map _).trans (.of_eq ?_)
    simp [candidates, Function.comp_def]
  · rw [sortAddresses_eq, ← List.mergeSort_zipIdx, List.map_map]
    rfl
  · have htotal (a b : Candidate) : (a.compare b).isLE || (b.compare a).isLE := by
      rw [hswap a b]
      cases a.compare b <;> rfl
    refine (List.pairwise_mergeSort (List.zipIdxLE_trans htrans) (List.zipIdxLE_total htotal) _).imp
      fun {a b} hle => ?_
    rw [List.zipIdxLE, hswap a.1 b.1] at hle
    split at hle
    · rename_i hfirst
      refine ⟨reachable_of_isLE hfirst, ?_⟩
      cases hcompare : a.1.compare b.1 with
      | lt => exact .inl rfl
      | eq => exact .inr ⟨rfl, by simpa [hcompare] using hle⟩
      | gt => simp [hcompare] at hfirst
    · cases hle

end Headscale.Rfc6724
