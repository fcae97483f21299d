import Headscale.Lib.Text

/-!
# Addresses and prefixes

IP addresses of the two families, the prefixes of the `ipnet` crate (an address with its host bits
kept, and a length), and the text that `Display` gives for both.
-/

namespace Headscale

/-! ## Addresses -/

inductive Family where
  | v4
  | v6
deriving DecidableEq, Repr

/-- `BitLen` of an address of the family. -/
def Family.bits : Family → Nat
  | .v4 => 32
  | .v6 => 128

/-- The largest address of the family, `u32::MAX` or `u128::MAX`. -/
def Family.max (family : Family) : Nat := 2 ^ family.bits - 1

inductive IpAddr where
  | v4 (value : Fin (2 ^ 32))
  | v6 (value : Fin (2 ^ 128))
deriving DecidableEq, Repr

namespace IpAddr

def family : IpAddr → Family
  | .v4 _ => .v4
  | .v6 _ => .v6

/-- The address as a number, `u32::from` and `u128::from`. -/
def value : IpAddr → Nat
  | .v4 a => a
  | .v6 a => a

/-- The address of a number, reduced to the width of the family. -/
def ofNat : Family → Nat → IpAddr
  | .v4, n => .v4 (Fin.ofNat _ n)
  | .v6, n => .v6 (Fin.ofNat _ n)

variable (ip : IpAddr)

lemma value_lt : ip.value < 2 ^ ip.family.bits := by
  cases ip with
  | v4 a | v6 a => exact a.isLt

lemma ext_value {a b : IpAddr} (hf : a.family = b.family) (hv : a.value = b.value) : a = b := by
  cases a <;> cases b <;> simp_all [family, value, Fin.ext_iff]

@[simp] lemma family_ofNat (f : Family) (n : Nat) : (ofNat f n).family = f := by
  cases f <;> rfl

lemma value_ofNat {f : Family} {n : Nat} (h : n < 2 ^ f.bits) : (ofNat f n).value = n := by
  cases f with
  | v4 | v6 => exact Nat.mod_eq_of_lt h

lemma ofNat_family_value : ofNat ip.family ip.value = ip :=
  ext_value (family_ofNat _ _) (value_ofNat ip.value_lt)

/-! ## Octets and segments -/

/-- Numbers below `base` written as one number, the first the most significant. -/
def packNat (base : Nat) (parts : List Nat) : Nat :=
  parts.foldl (fun acc part => acc * base + part) 0

/-- `Ipv4Addr::from([u8; 4])`. -/
def ofV4Octets (octets : List Nat) : IpAddr := ofNat .v4 (packNat 256 octets)

/-- `Ipv6Addr::from([u8; 16])`. -/
def ofV6Octets (octets : List Nat) : IpAddr := ofNat .v6 (packNat 256 octets)

def v4Octets (value : Nat) : List Nat :=
  [value / 2 ^ 24 % 256, value / 2 ^ 16 % 256, value / 2 ^ 8 % 256, value % 256]

/-- `Ipv6Addr::segments`. -/
def v6Segments (value : Nat) : List Nat :=
  [value / 2 ^ 112 % 65536, value / 2 ^ 96 % 65536, value / 2 ^ 80 % 65536,
    value / 2 ^ 64 % 65536, value / 2 ^ 48 % 65536, value / 2 ^ 32 % 65536,
    value / 2 ^ 16 % 65536, value % 65536]

/-! ## Display -/

/-- `Display` of an `Ipv4Addr`. -/
def v4Chars (value : Nat) : List Char :=
  Text.decimal (value / 2 ^ 24 % 256) ++ '.' :: Text.decimal (value / 2 ^ 16 % 256) ++
    '.' :: Text.decimal (value / 2 ^ 8 % 256) ++ '.' :: Text.decimal (value % 256)

/-- A run of zero segments: where it starts and how long it is. -/
structure ZeroRun where
  start : Nat
  len : Nat
deriving DecidableEq, Repr

/-- One segment of the scan for the longest run: the longest so far and the current one. -/
def zeroRunStep (acc : ZeroRun × ZeroRun) (entry : Nat × Nat) : ZeroRun × ZeroRun :=
  let (longest, current) := acc
  let (segment, index) := entry
  if segment = 0 then
    let started := if current.len = 0 then { current with start := index } else current
    let grown := { started with len := started.len + 1 }
    (if grown.len > longest.len then grown else longest, grown)
  else (longest, ⟨0, 0⟩)

/-- The first of the longest runs of zero segments. -/
def longestZeroRun (segments : List Nat) : ZeroRun :=
  (segments.zipIdx.foldl zeroRunStep (⟨0, 0⟩, ⟨0, 0⟩)).1

/-- Segments in hexadecimal, separated by colons. -/
def segmentChars : List Nat → List Char
  | [] => []
  | [segment] => Text.hex segment
  | segment :: rest => Text.hex segment ++ ':' :: segmentChars rest

/-- `Display` of an `Ipv6Addr`: an IPv4-mapped address ends in dotted decimal, and otherwise the
first longest run of at least two zero segments is written `::`. -/
def v6Chars (value : Nat) : List Char :=
  if value / 2 ^ 32 = 0xffff then "::ffff:".toList ++ v4Chars (value % 2 ^ 32)
  else
    let segments := v6Segments value
    let zeroes := longestZeroRun segments
    if zeroes.len > 1 then
      segmentChars (segments.take zeroes.start) ++ "::".toList ++
        segmentChars (segments.drop (zeroes.start + zeroes.len))
    else segmentChars segments

def chars : IpAddr → List Char
  | .v4 a => v4Chars a
  | .v6 a => v6Chars a

/-- `ip.to_string()`. -/
def toString (ip : IpAddr) : String := String.ofList ip.chars

end IpAddr

/-! ## Prefixes -/

/-- A prefix of the `ipnet` crate: an address, host bits included, and a length that fits it. -/
structure IpNet where
  addr : IpAddr
  prefixLen : Nat
  prefixLen_le : prefixLen ≤ addr.family.bits
deriving DecidableEq, Repr

namespace IpNet

/-- `IpNet::new`. -/
def new (addr : IpAddr) (prefixLen : Nat) : Option IpNet :=
  if h : prefixLen ≤ addr.family.bits then some ⟨addr, prefixLen, h⟩ else none

variable (net : IpNet)

/-- How many addresses the prefix holds. -/
def size : Nat := 2 ^ (net.addr.family.bits - net.prefixLen)

/-- The first address, host bits cleared, as a number. -/
def networkValue : Nat := net.addr.value / net.size * net.size

def network : IpAddr := .ofNat net.addr.family net.networkValue

/-- `IpNet::contains` of an address. -/
def contains (ip : IpAddr) : Bool :=
  net.addr.family = ip.family ∧ net.networkValue ≤ ip.value ∧
    ip.value ≤ net.networkValue + net.size - 1

/-- `net.to_string()`: the address as it was given, a slash and the length. -/
def chars (net : IpNet) : List Char := net.addr.chars ++ '/' :: Text.decimal net.prefixLen

def toString : String := String.ofList net.chars

lemma size_pos : 0 < net.size := Nat.two_pow_pos _

/-- The block of a prefix ends inside its family's address space. -/
theorem networkValue_add_size_le :
    net.networkValue + net.size ≤ 2 ^ net.addr.family.bits := by
  have hsplit : net.size * 2 ^ net.prefixLen = 2 ^ net.addr.family.bits := by
    rw [size, ← Nat.pow_add]
    congr 1
    have := net.prefixLen_le
    omega
  have hlt : net.addr.value / net.size < 2 ^ net.prefixLen := by
    apply Nat.div_lt_of_lt_mul
    rw [hsplit]
    exact net.addr.value_lt
  calc net.networkValue + net.size = (net.addr.value / net.size + 1) * net.size := by
        rw [networkValue, Nat.add_mul, Nat.one_mul]
    _ ≤ 2 ^ net.prefixLen * net.size := Nat.mul_le_mul_right _ hlt
    _ = 2 ^ net.addr.family.bits := by rw [Nat.mul_comm, hsplit]

end IpNet

end Headscale
