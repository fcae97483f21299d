import Headscale.Lib.Search
import Headscale.Netip.Parse

/-!
# Address allocation

The allocator hands out addresses of up to two configured prefixes. Each family keeps a set of used
addresses, which has the two ends of the prefix and the addresses found in the database from the
start, and a cursor at the address handed out last. The sequential strategy searches upward from the
cursor, the random one all around the prefix from a random address.

The calls hold one lock, so that each is a single step. What the operating system's random source
gives is an input: each draw fails or is a number, and a call whose draws run out has not returned.
-/

namespace Headscale.Ipam

open GoNetip Search

/-! ## One family -/

inductive IpAllocationStrategy where
  | sequential
  | random
deriving DecidableEq, Repr

inductive AllocError where
  | exhausted
  | internal (message : String)
deriving DecidableEq, Repr

def AllocError.text : AllocError → String
  | .exhausted => "failed to allocate IP"
  | .internal message => message

/-- The addresses of a prefix. -/
structure AddrRange (f : Family) where
  network : Nat
  last : Nat
  network_le : network ≤ last
  last_lt : last < 2 ^ f.bits

instance {f : Family} : DecidableEq (AddrRange f)
  | ⟨network, last, _, _⟩, ⟨network', last', _, _⟩ =>
    decidable_of_iff (network = network' ∧ last = last') (by rw [AddrRange.mk.injEq])

structure IpFamilyAllocator (f : Family) where
  range : AddrRange f
  prev : Nat
  used : Finset Nat
deriving DecidableEq

abbrev Draws := List (Except String Nat)

/-- `u128::checked_add` of one. -/
def checkedSucc (value : Nat) : Option Nat := if value + 1 < 2 ^ 128 then some (value + 1) else none

/-- The loop of the sequential search; `n` bounds the candidates that are left. -/
def scanUp (free : Nat → Bool) (last : Nat) : Nat → Nat → Option Nat
  | 0, _ => none
  | n + 1, candidate =>
    if candidate ≤ last then
      if free candidate then some candidate
      else
        match checkedSucc candidate with
        | some next => scanUp free last n next
        | none => none
    else none

/-- Rejection sampling below the bound, of as many bits as the bound needs. -/
def sampleBelow (bound : Nat) : Draws → Option (Except AllocError Nat)
  | [] => none
  | .error error :: _ =>
    some (.error (.internal ("getting random IP: generating random IP: " ++ error)))
  | .ok raw :: draws =>
    let sample := raw % 2 ^ (Nat.log2 (bound - 1) + 1)
    if sample < bound then some (.ok sample) else sampleBelow bound draws

/-- The upper end is not drawn. -/
def randomBetween (start last : Nat) (draws : Draws) : Option (Except AllocError Nat) :=
  if last - start ≤ 1 then some (.ok start)
  else (sampleBelow (last - start) draws).map fun sample => sample.map (start + ·)

/-- The candidate after the given one, inside the prefix. -/
def nextInRange {f : Family} (range : AddrRange f) (candidate : Nat) : Nat :=
  ((checkedSucc candidate).filter (· ≤ range.last)).getD range.network

namespace IpFamilyAllocator

variable {f : Family}

def new (range : AddrRange f) : IpFamilyAllocator f :=
  { range := range, prev := range.network, used := {range.network, range.last} }

variable (family : IpFamilyAllocator f)

def take (candidate : Nat) : IpFamilyAllocator f :=
  { family with used := insert candidate family.used, prev := candidate }

def free (reserved : Nat → Bool) (candidate : Nat) : Bool :=
  candidate ∉ family.used && !reserved candidate

def allocateSequential (reserved : Nat → Bool) :
    Except AllocError (Nat × IpFamilyAllocator f) :=
  match checkedSucc family.prev with
  | none => .error .exhausted
  | some start =>
    match scanUp (family.free reserved) family.range.last (family.range.last + 1 - start) start with
    | some candidate => .ok (candidate, family.take candidate)
    | none => .error .exhausted

def allocateRandom (reserved : Nat → Bool) (draws : Draws) :
    Option (Except AllocError (Nat × IpFamilyAllocator f)) :=
  (randomBetween family.range.network family.range.last draws).map fun
    | .error error => .error error
    | .ok start =>
      match scanOrbit (family.free reserved) (nextInRange family.range) start
          (family.range.last - family.range.network + 1) start with
      | some candidate => .ok (candidate, family.take candidate)
      | none => .error .exhausted

def allocate (strategy : IpAllocationStrategy) (reserved : Nat → Bool) (draws : Draws) :
    Option (Except AllocError (Nat × IpFamilyAllocator f)) :=
  match strategy with
  | .sequential => some (family.allocateSequential reserved)
  | .random => family.allocateRandom reserved draws

end IpFamilyAllocator

/-! ## Both families -/

/-- Addresses that Tailscale keeps for itself: its resolver, and for IPv4 those of ChromeOS. -/
def tailscaleReserved : Family → Nat → Bool
  | .v4, value =>
    value = IpAddr.packNat 256 [100, 100, 100, 100] ||
      (IpAddr.packNat 256 [100, 115, 92, 0] ≤ value &&
        value ≤ IpAddr.packNat 256 [100, 115, 93, 255])
  | .v6, value => value = IpAddr.packNat 65536 [0xfd7a, 0x115c, 0xa1e0, 0, 0, 0, 0, 0x53]

structure CidrIpAllocator where
  ipv4 : Option (IpFamilyAllocator .v4)
  ipv6 : Option (IpFamilyAllocator .v6)
  strategy : IpAllocationStrategy
deriving DecidableEq

structure ExistingNodeIpAddresses where
  ipv4 : Option String := none
  ipv6 : Option String := none
deriving DecidableEq, Repr

inductive CidrError where
  | invalid (f : Family) (error : PrefixError)
  | otherFamily (f : Family) (cidr : String)
  | noPrefixes
  | storedAddress (error : AddrError)
deriving DecidableEq

/-- The message, with Go's quoting and Rust's debug text of a string. -/
def CidrError.text (quote debug : String → String) : CidrError → String
  | .invalid .v4 error => "invalid server.mesh_cidr: " ++ error.text quote
  | .invalid .v6 error => "invalid server.mesh_cidr_v6: " ++ error.text quote
  | .otherFamily .v4 cidr => "invalid server.mesh_cidr " ++ debug cidr ++ ": expected IPv4 prefix"
  | .otherFamily .v6 cidr => "invalid server.mesh_cidr_v6 " ++ debug cidr ++ ": expected IPv6 prefix"
  | .noPrefixes => "config error, at least one of prefixes.v4 or prefixes.v6 must be set"
  | .storedAddress error => "parsing IP address from database: " ++ error.text quote

/-- The error of a pair of addresses names the family that failed. -/
structure PairError where
  family : Family
  error : AllocError
deriving DecidableEq, Repr

def PairError.text : PairError → String
  | ⟨.v4, error⟩ => "allocating IPv4 address: " ++ error.text
  | ⟨.v6, error⟩ => "allocating IPv6 address: " ++ error.text

lemma network_add_lt {value width hostBits : Nat} (hvalue : value < 2 ^ width)
    (hbits : hostBits ≤ width) :
    value / 2 ^ hostBits * 2 ^ hostBits + (2 ^ hostBits - 1) < 2 ^ width := by
  obtain ⟨rest, rfl⟩ := Nat.exists_eq_add_of_le hbits
  have hpos : 0 < 2 ^ hostBits := Nat.two_pow_pos hostBits
  have hlt : value / 2 ^ hostBits < 2 ^ rest := by
    rw [Nat.div_lt_iff_lt_mul hpos, ← pow_add, Nat.add_comm]
    exact hvalue
  have hmul := Nat.mul_le_mul_right (2 ^ hostBits) (Nat.succ_le_of_lt hlt)
  rw [← pow_add, Nat.succ_mul, Nat.add_comm rest hostBits] at hmul
  omega

/-- The network of an address and all the addresses that differ from it in the host bits only. -/
def AddrRange.ofPrefix (ip : IpAddr) (bits : Nat) : AddrRange ip.family :=
  { network := ip.value / 2 ^ (ip.family.bits - bits) * 2 ^ (ip.family.bits - bits)
    last := ip.value / 2 ^ (ip.family.bits - bits) * 2 ^ (ip.family.bits - bits) +
      (2 ^ (ip.family.bits - bits) - 1)
    network_le := Nat.le_add_right _ _
    last_lt := network_add_lt ip.value_lt (Nat.sub_le _ _) }

/-- `parse_ipv4_cidr` and `parse_ipv6_cidr`. -/
def parseCidr (f : Family) (cidr : String) : Except CidrError (IpFamilyAllocator f) :=
  match parsePrefix cidr with
  | .error error => .error (.invalid f error)
  | .ok (ip, bits) =>
    if h : ip.family = f then .ok (.new (h ▸ AddrRange.ofPrefix ip bits))
    else .error (.otherFamily f cidr)

/-- The empty text disables the family. -/
def parseEnabledCidr (f : Family) (cidr : String) :
    Except CidrError (Option (IpFamilyAllocator f)) :=
  if cidr = "" then .ok none else (parseCidr f cidr).map some

namespace CidrIpAllocator

variable (allocator : CidrIpAllocator)

def get : (f : Family) → Option (IpFamilyAllocator f)
  | .v4 => allocator.ipv4
  | .v6 => allocator.ipv6

def set : (f : Family) → IpFamilyAllocator f → CidrIpAllocator
  | .v4, family => { allocator with ipv4 := some family }
  | .v6, family => { allocator with ipv6 := some family }

/-! ### Construction -/

def fromCidrsWithStrategy (cidr : String) (cidrV6 : Option String)
    (strategy : IpAllocationStrategy) : Except CidrError CidrIpAllocator := do
  let ipv4 ← parseEnabledCidr .v4 cidr
  let ipv6 ← parseEnabledCidr .v6 (cidrV6.getD "")
  if ipv4.isNone && ipv6.isNone then .error .noPrefixes
  else .ok { ipv4 := ipv4, ipv6 := ipv6, strategy := strategy }

/-- A change of the used set of a family that is enabled. -/
def modifyUsed (f : Family) (change : Finset Nat → Finset Nat) :
    CidrIpAllocator :=
  match allocator.get f with
  | some family => allocator.set f { family with used := change family.used }
  | none => allocator

/-- The column does not decide the family of an address, and its zone is dropped. -/
def seedText (text : String) : Except CidrError CidrIpAllocator :=
  match parseAddr text with
  | .error error => .error (.storedAddress error)
  | .ok (ip, _) => .ok (allocator.modifyUsed ip.family (insert ip.value))

/-- All addresses of the first column before those of the second. -/
def fromExistingNodeIps (cidr : String) (cidrV6 : Option String) (strategy : IpAllocationStrategy)
    (rows : List ExistingNodeIpAddresses) : Except CidrError CidrIpAllocator := do
  let allocator ← fromCidrsWithStrategy cidr cidrV6 strategy
  let allocator ← (rows.filterMap (·.ipv4)).foldlM seedText allocator
  (rows.filterMap (·.ipv6)).foldlM seedText allocator

/-! ### Calls -/

/-- Allocates in one family; without a result where the draws have run out. -/
def allocateIn {f : Family} (family : IpFamilyAllocator f) (draws : Draws) :
    Option (Except AllocError IpAddr × CidrIpAllocator) :=
  (family.allocate allocator.strategy (tailscaleReserved f) draws).map fun
    | .ok (value, family) => (.ok (.ofNat f value), allocator.set f family)
    | .error error => (.error error, allocator)

def allocateIpv4Inner (draws : Draws) :
    Option (Except AllocError IpAddr × CidrIpAllocator) :=
  match allocator.ipv4 with
  | none => some (.error (.internal "IPv4 allocation requested while IPv4 is disabled"), allocator)
  | some family => allocator.allocateIn family draws

def allocateIpv6Inner (draws : Draws) :
    Option (Except AllocError (Option IpAddr) × CidrIpAllocator) :=
  match allocator.ipv6 with
  | none => some (.ok none, allocator)
  | some family =>
    (allocator.allocateIn family draws).map fun (ip, allocator) => (ip.map some, allocator)

/-- The IPv4 part of a pair. -/
def allocateEnabledIpv4 (draws : Draws) :
    Option (Except AllocError (Option IpAddr) × CidrIpAllocator) :=
  if allocator.ipv4.isSome then
    (allocator.allocateIpv4Inner draws).map fun (ip, allocator) => (ip.map some, allocator)
  else some (.ok none, allocator)

def allocateAddresses (draws4 draws6 : Draws) :
    Option (Except PairError (Option IpAddr × Option IpAddr) × CidrIpAllocator) := do
  let (ipv4, allocator) ← allocator.allocateEnabledIpv4 draws4
  match ipv4 with
  | .error error => return (.error ⟨.v4, error⟩, allocator)
  | .ok ipv4 =>
    let (ipv6, allocator) ← allocator.allocateIpv6Inner draws6
    match ipv6 with
    | .error error => return (.error ⟨.v6, error⟩, allocator)
    | .ok ipv6 => return (.ok (ipv4, ipv6), allocator)

/-- Gives back the addresses of a node. The cursors stay where they are. -/
def releaseAddresses (ipv4 : Option (Fin (2 ^ 32))) (ipv6 : Option (Fin (2 ^ 128))) :
    CidrIpAllocator :=
  let allocator :=
    match ipv4 with
    | some ip => allocator.modifyUsed .v4 (·.erase ip)
    | none => allocator
  match ipv6 with
  | some ip => allocator.modifyUsed .v6 (·.erase ip)
  | none => allocator

end CidrIpAllocator

end Headscale.Ipam
