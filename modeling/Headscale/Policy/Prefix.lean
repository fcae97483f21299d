import Headscale.Lib.Interval
import Headscale.Netip.RoundTrip

/-!
# Spans of addresses and their prefixes

A span is a run of addresses of one family: a prefix, a range or a single address. The policy
compiler reads spans from text and prints them as prefixes or ranges. The prefixes
`cidrs_for_interval` prints for a span cover it exactly, and what is printed is read back as the
same span.
-/

namespace Headscale.Policy

open GoNetip List

/-! ## Spans of addresses -/

instance : LinearOrder Family := LinearOrder.lift' Family.bits (by
  intro a b h
  cases a <;> cases b <;> first | rfl | exact absurd h (by decide))

variable (f : Family)

lemma Family.max_eq : f.max + 1 = 2 ^ f.bits :=
  Nat.sub_add_cancel Nat.one_le_two_pow

variable {c : Char} (a ip : IpAddr)

lemma value_le_max : ip.value ≤ ip.family.max := by
  have h := ip.value_lt
  rw [← Family.max_eq] at h
  omega

/-- A run of addresses of one family. -/
structure IpSpan extends Interval.Span Family where
  inRange : hi ≤ key.max
deriving DecidableEq

def IpSpan.Mem (s : IpSpan) (ip : IpAddr) : Prop := s.toSpan.Mem ip.family ip.value

instance (s : IpSpan) (ip : IpAddr) : Decidable (s.Mem ip) :=
  inferInstanceAs (Decidable (s.toSpan.Mem _ _))

/-- All addresses of the family. -/
def IpSpan.full (f : Family) : IpSpan := ⟨⟨f, 0, f.max, Nat.zero_le _⟩, le_refl _⟩

/-- The addresses of a prefix. The source treats `::/0` apart, where its 128-bit size overflows. -/
def ipnetInterval (net : IpNet) : IpSpan :=
  ⟨⟨net.addr.family, net.networkValue, net.networkValue + net.size - 1, by
      have := net.size_pos
      omega⟩, by
    have h := net.networkValue_add_size_le
    rw [← Family.max_eq] at h
    simp only
    omega⟩

def addressSpan (ip : IpAddr) : IpSpan := ⟨⟨ip.family, ip.value, ip.value, le_refl _⟩, value_le_max ip⟩

@[simp] lemma mem_full : (IpSpan.full f).Mem ip ↔ ip.family = f := by
  constructor
  · rintro ⟨hf, -⟩
    exact hf.symm
  · rintro rfl
    exact ⟨rfl, Nat.zero_le _, value_le_max ip⟩

variable {family : Family} (net : IpNet)

lemma mem_ipnetInterval : (ipnetInterval net).Mem ip ↔ net.contains ip = true := by
  simp [IpSpan.Mem, ipnetInterval, Interval.Span.Mem, IpNet.contains]

@[simp] lemma mem_addressSpan : (addressSpan a).Mem ip ↔ ip = a := by
  constructor
  · rintro ⟨hf, hlo, hhi⟩
    simp only [addressSpan] at hf hlo hhi
    exact IpAddr.ext_value hf.symm (by omega)
  · rintro rfl
    exact ⟨rfl, le_refl _, le_refl _⟩

/-! ## Prefixes and ranges as text -/

def parsePrefixNet (value : String) : Option IpNet :=
  match parsePrefix value with
  | .ok (ip, bits) => IpNet.new ip bits
  | .error _ => none

def parseIpNet (value : String) : Option IpNet :=
  if '/' ∈ value.toList then parsePrefixNet value
  else
    match parseAddr value with
    | .ok (ip, _) => IpNet.new ip ip.family.bits
    | .error _ => none

def prefixSpan (value : String) : Option IpSpan := (parsePrefixNet value).map ipnetInterval

@[simp] lemma parsePrefixNet_toString : parsePrefixNet net.toString = some net := by
  simp [parsePrefixNet, IpNet.new, net.prefixLen_le]

@[simp] lemma prefixSpan_toString :
    prefixSpan net.toString = some (ipnetInterval net) := by simp [prefixSpan]

/-- `IpNet::new` of an address and the full length of its family. -/
def hostNet (ip : IpAddr) : IpNet := ⟨ip, ip.family.bits, le_refl _⟩

@[simp] lemma contains_hostNet : (hostNet a).contains ip = true ↔ ip = a := by
  have hsize : (hostNet a).size = 1 := by simp [hostNet, IpNet.size]
  rw [← mem_ipnetInterval, ← mem_addressSpan]
  simp [ipnetInterval, addressSpan, IpNet.networkValue, hsize]
  simp [hostNet]

/-- The number of addresses in a block, absent where the source's 128-bit shift overflows. -/
def blockSize (family : Family) (prefixLen : Nat) : Option Nat :=
  if family.bits - prefixLen = 128 then none else some (2 ^ (family.bits - prefixLen))

/-- The shortest prefix whose block starts at `start` and ends at `stop` or before. -/
def chosenPrefix (family : Family) (start stop : Nat) : Nat :=
  ((List.range (family.bits + 1)).find? fun prefixLen =>
    (blockSize family prefixLen).any fun size =>
      start % size = 0 ∧ min (start + (size - 1)) Family.v6.max ≤ stop).getD family.bits

lemma chosenPrefix_le (family : Family) (start stop : Nat) :
    chosenPrefix family start stop ≤ family.bits := by
  unfold chosenPrefix
  cases h : (List.range (family.bits + 1)).find? _ with
  | none => simp
  | some prefixLen =>
    have := mem_range.mp (mem_of_find?_eq_some h)
    simp only [Option.getD_some]
    omega

/-- The block that `cidrs_for_interval` takes next. -/
def nextBlock (family : Family) (start stop : Nat) : IpNet :=
  ⟨.ofNat family start, chosenPrefix family start stop, by
    rw [IpAddr.family_ofNat]
    exact chosenPrefix_le family start stop⟩

/-- The loop of `cidrs_for_interval`; every block holds an address, so the length of the interval
bounds its turns. -/
def cidrsLoop (family : Family) (stop : Nat) : Nat → Nat → List IpNet
  | 0, _ => []
  | turns + 1, start =>
    if start ≤ stop then
      let size := (blockSize family (chosenPrefix family start stop)).getD 1
      nextBlock family start stop ::
        if stop - start < size then [] else cidrsLoop family stop turns (start + size)
    else []

/-- The prefixes that cover an interval. -/
def cidrNets (start stop : Nat) (family : Family) : List IpNet :=
  if family = .v6 ∧ start = 0 ∧ stop = family.max then [⟨.ofNat .v6 0, 0, Nat.zero_le _⟩]
  else cidrsLoop family stop (stop - start + 1) start

def cidrsForInterval (start stop : Nat) (family : Family) : List String :=
  (cidrNets start stop family).map IpNet.toString

def intervalAddrString (value : Nat) (family : Family) : String :=
  (IpAddr.ofNat family value).toString

/-- The text of an interval: an address, a prefix where one covers it, or a range. -/
def intervalIpsetString (start stop : Nat) (family : Family) : String :=
  if start = stop then intervalAddrString start family
  else
    match cidrsForInterval start stop family with
    | [cidr] => cidr
    | _ =>
      intervalAddrString start family ++ "-" ++ intervalAddrString stop family

/-- The ends of a range `start-end`, zones dropped, when both are addresses of one family. -/
def parseRange (text : List Char) : Option (IpAddr × IpAddr) :=
  match Text.splitOnce '-' text with
  | none => none
  | some (start, stop) =>
    match parseAddress start, parseAddress stop with
    | .ok (a, _), .ok (b, _) => if a.family = b.family then some (a, b) else none
    | _, _ => none

/-- The prefixes of an address, a prefix or a range; nothing for other text. -/
def ipsetStringToCidrs (ipset : String) : List String :=
  match parseIpNet ipset with
  | some net => [net.toString]
  | none =>
    match parseRange ipset.toList with
    | some (a, b) => cidrsForInterval a.value b.value a.family
    | none => []

/-! ## The prefixes of an interval cover it exactly -/

variable {start stop : Nat}

/-- The next block starts at `start` and stays inside the interval. -/
theorem chosenPrefix_spec (hle : start ≤ stop) (hmax : stop ≤ family.max) :
    ∃ size, blockSize family (chosenPrefix family start stop) = some size ∧
      size = 2 ^ (family.bits - chosenPrefix family start stop) ∧ start % size = 0 ∧
      start + size ≤ stop + 1 := by
  -- A single address always qualifies, so the search finds a prefix.
  obtain ⟨p, hp⟩ : ∃ p, (List.range (family.bits + 1)).find? (fun prefixLen =>
      (blockSize family prefixLen).any fun size =>
        start % size = 0 ∧ min (start + (size - 1)) Family.v6.max ≤ stop) = some p := by
    rw [← Option.isSome_iff_exists, find?_isSome]
    refine ⟨family.bits, by simp, ?_⟩
    have hone : blockSize family family.bits = some 1 := by simp [blockSize]
    simp [hone]
    omega
  have hchosen : chosenPrefix family start stop = p := by
    unfold chosenPrefix
    rw [hp]
    rfl
  have hfound := find?_some hp
  have hple : p ≤ family.bits := by
    have := mem_range.mp (mem_of_find?_eq_some hp)
    omega
  obtain ⟨size, hsize, hfits⟩ := (Option.any_eq_true _ _).mp hfound
  obtain ⟨haligned, hend⟩ := of_decide_eq_true hfits
  have hpow : size = 2 ^ (family.bits - p) := by
    unfold blockSize at hsize
    split at hsize
    · cases hsize
    · exact (Option.some.inj hsize).symm
  rw [hchosen]
  refine ⟨size, hsize, hpow, haligned, ?_⟩
  -- Saturation changes nothing: an aligned block never ends past its family's last address.
  have hblock : start + size ≤ family.max + 1 := by
    have hsplit : size * 2 ^ p = family.max + 1 := by
      rw [Family.max_eq, hpow, ← Nat.pow_add]
      congr 1
      omega
    obtain ⟨q, rfl⟩ := Nat.dvd_of_mod_eq_zero haligned
    have hq : q < 2 ^ p := by
      by_contra hge
      have := Nat.mul_le_mul_left size (Nat.le_of_not_lt hge)
      omega
    calc size * q + size = size * (q + 1) := by rw [Nat.mul_succ]
      _ ≤ size * 2 ^ p := Nat.mul_le_mul_left size hq
      _ = family.max + 1 := hsplit
  have hv6 : family.max ≤ Family.v6.max := by cases family <;> decide
  omega

/-- A block starts at an address of its own. -/
theorem networkValue_nextBlock (hle : start ≤ stop) (hmax : stop ≤ family.max) :
    (nextBlock family start stop).networkValue = start := by
  obtain ⟨size, -, hpow, haligned, -⟩ := chosenPrefix_spec hle hmax
  have hlt : start < 2 ^ family.bits := by
    rw [← Family.max_eq]
    omega
  have hnet : (nextBlock family start stop).size = size := by
    rw [hpow]
    simp [nextBlock, IpNet.size]
  rw [IpNet.networkValue, hnet]
  simp only [nextBlock, IpAddr.value_ofNat hlt]
  exact Nat.div_mul_cancel (Nat.dvd_of_mod_eq_zero haligned)

lemma contains_nextBlock {start stop size : Nat} (hle : start ≤ stop) (hmax : stop ≤ family.max)
    (hsize : blockSize family (chosenPrefix family start stop) = some size) (ip : IpAddr) :
    (nextBlock family start stop).contains ip = true ↔
      ip.family = family ∧ start ≤ ip.value ∧ ip.value < start + size := by
  obtain ⟨size', hsize', hpow, -, -⟩ := chosenPrefix_spec hle hmax
  obtain rfl : size = size' := Option.some.inj (hsize.symm.trans hsize')
  have hnet : (nextBlock family start stop).size = size := by
    rw [hpow]
    simp [nextBlock, IpNet.size]
  have hpos : 0 < size := hpow ▸ Nat.two_pow_pos _
  simp only [IpNet.contains, networkValue_nextBlock hle hmax, hnet, decide_eq_true_eq]
  simp only [nextBlock, IpAddr.family_ofNat, eq_comm (a := family)]
  refine and_congr_right fun _ => and_congr_right fun _ => ?_
  omega

lemma contains_cidrsLoop {stop : Nat} (hmax : stop ≤ family.max) (turns : Nat) {start : Nat}
    (hturns : stop - start < turns) (ip : IpAddr) :
    (∃ net ∈ cidrsLoop family stop turns start, net.contains ip = true) ↔
      ip.family = family ∧ start ≤ ip.value ∧ ip.value ≤ stop := by
  induction turns generalizing start with
  | zero => omega
  | succ turns ih =>
    by_cases hle : start ≤ stop
    · obtain ⟨size, hsize, hpow, -, hfits⟩ := chosenPrefix_spec hle hmax
      have hpos : 0 < size := hpow ▸ Nat.two_pow_pos _
      rw [cidrsLoop, if_pos hle]
      simp only [hsize, Option.getD_some, exists_mem_cons_iff, contains_nextBlock hle hmax hsize]
      by_cases hlast : stop - start < size
      · rw [if_pos hlast]
        simp only [not_mem_nil, false_and, exists_false, or_false]
        refine and_congr_right fun _ => ?_
        omega
      · rw [if_neg hlast, ih (by omega)]
        constructor
        · rintro (⟨hf, hlo, hhi⟩ | ⟨hf, hlo, hhi⟩)
          · exact ⟨hf, hlo, by omega⟩
          · exact ⟨hf, by omega, hhi⟩
        · rintro ⟨hf, hlo, hhi⟩
          by_cases hin : ip.value < start + size
          · exact .inl ⟨hf, hlo, hin⟩
          · exact .inr ⟨hf, by omega, hhi⟩
    · rw [cidrsLoop, if_neg hle]
      simp only [not_mem_nil, false_and, exists_false, false_iff]
      omega

/-- `cidrs_for_interval` covers its interval and nothing else. -/
theorem contains_cidrNets {family : Family} {start stop : Nat} (hmax : stop ≤ family.max)
    (ip : IpAddr) :
    (∃ net ∈ cidrNets start stop family, net.contains ip = true) ↔
      ip.family = family ∧ start ≤ ip.value ∧ ip.value ≤ stop := by
  unfold cidrNets
  split
  · rename_i hfull
    obtain ⟨rfl, rfl, rfl⟩ := hfull
    have hall := mem_full .v6 ip
    have hnet : ipnetInterval ⟨.ofNat .v6 0, 0, Nat.zero_le _⟩ = IpSpan.full .v6 := rfl
    rw [← hnet, mem_ipnetInterval] at hall
    simp only [mem_singleton, exists_eq_left, hall]
    constructor
    · intro hf
      exact ⟨hf, Nat.zero_le _, hf ▸ value_le_max ip⟩
    · exact fun h => h.1
  · exact contains_cidrsLoop hmax _ (by omega) ip

/-! ## The addresses a text stands for -/

/-- The spans of the prefixes that a text expands to. -/
def cidrSpans (ipset : String) : List IpSpan := (ipsetStringToCidrs ipset).filterMap prefixSpan

@[simp] lemma filterMap_prefixSpan_toString (nets : List IpNet) :
    (nets.map IpNet.toString).filterMap prefixSpan = nets.map ipnetInterval := by
  induction nets with
  | nil => rfl
  | cons net rest ih => simp

lemma mem_cidrsForInterval (hmax : stop ≤ family.max) (ip : IpAddr) :
    (∃ s ∈ (cidrsForInterval start stop family).filterMap prefixSpan, s.Mem ip) ↔
      ip.family = family ∧ start ≤ ip.value ∧ ip.value ≤ stop := by
  rw [cidrsForInterval, filterMap_prefixSpan_toString, ← contains_cidrNets hmax]
  simp [mem_ipnetInterval]

lemma parseIpNet_toString_net : parseIpNet net.toString = some net := by
  have hslash : '/' ∈ net.toString.toList := by simp [IpNet.toString, IpNet.chars]
  simp [parseIpNet, hslash]

lemma mem_chars_ne (hc : c ≠ '.' ∧ c ≠ ':') (hhex : Text.hexDigit c = none)
    (hdec : Text.decDigit c = none) (ip : IpAddr) : c ∉ ip.chars := by
  have hdotted := not_mem_v4Chars hc.1 hdec
  have hsegments := not_mem_segmentChars hc.2 hhex
  cases ip with
  | v4 a => exact hdotted _
  | v6 a =>
    change c ∉ IpAddr.v6Chars a
    unfold IpAddr.v6Chars
    split
    · have hf : c ≠ 'f' := by
        rintro rfl
        exact absurd hhex (by decide)
      simp [hdotted, hc.2, hf]
    · simp only
      split
      · simp [hsegments, hc.2]
      · exact hsegments _

lemma parseIpNet_toString_addr : parseIpNet ip.toString = some (hostNet ip) := by
  have hslash : '/' ∉ ip.toString.toList := by
    rw [IpAddr.toString, String.toList_ofList]
    exact mem_chars_ne (by decide) (by decide) (by decide) ip
  simp [parseIpNet, hslash, IpNet.new, hostNet]

/-! ## Ranges are read back -/

lemma not_mem_addr_toString (hc : c ≠ '.' ∧ c ≠ ':') (hhex : Text.hexDigit c = none)
    (hdec : Text.decDigit c = none) (ip : IpAddr) : c ∉ ip.toString.toList := by
  rw [IpAddr.toString, String.toList_ofList]
  exact mem_chars_ne hc hhex hdec ip

/-- The text of a range. -/
def rangeText (a b : IpAddr) : String := a.toString ++ "-" ++ b.toString

variable (b : IpAddr)

lemma rangeText_toList :
    (rangeText a b).toList = a.toString.toList ++ '-' :: b.toString.toList := by
  simp [rangeText]

lemma not_mem_rangeText (hc : c ≠ '.' ∧ c ≠ ':' ∧ c ≠ '-') (hhex : Text.hexDigit c = none)
    (hdec : Text.decDigit c = none) (a b : IpAddr) :
    c ∉ (rangeText a b).toList := by
  have hnot := not_mem_addr_toString ⟨hc.1, hc.2.1⟩ hhex hdec
  simp [rangeText_toList, hnot, hc.2.2]

/-- A range is never taken for an address. -/
theorem parseIpNet_rangeText : parseIpNet (rangeText a b) = none := by
  have hslash : '/' ∉ (rangeText a b).toList :=
    not_mem_rangeText (by decide) (by decide) (by decide) a b
  have hzone : '%' ∉ (rangeText a b).toList :=
    not_mem_rangeText (by decide) (by decide) (by decide) a b
  rw [parseIpNet, if_neg hslash]
  cases h : parseAddr (rangeText a b) with
  | error e => rfl
  | ok found =>
    have hdash := parseAddress_addressChar h hzone '-' (by simp [rangeText_toList])
    exact absurd hdash (by unfold AddressChar; decide)

lemma parseRange_rangeText {a b : IpAddr} (h : a.family = b.family) :
    parseRange (rangeText a b).toList = some (a, b) := by
  have hdash : '-' ∉ a.toString.toList :=
    not_mem_addr_toString (by decide) (by decide) (by decide) a
  have hread : ∀ ip : IpAddr, parseAddress ip.toString.toList = .ok (ip, none) :=
    parseAddr_toString
  rw [parseRange, rangeText_toList, Text.splitOnce_append hdash]
  simp [hread, h]

/-- What is printed for a span is an address, a prefix that covers it, or its range. -/
theorem intervalIpsetString_cases (start stop : Nat) (family : Family) :
    (start = stop ∧ intervalIpsetString start stop family = (IpAddr.ofNat family start).toString) ∨
      (∃ net, cidrNets start stop family = [net] ∧
        intervalIpsetString start stop family = net.toString) ∨
      intervalIpsetString start stop family =
        rangeText (.ofNat family start) (.ofNat family stop) := by
  unfold intervalIpsetString
  split
  · rename_i heq
    exact .inl ⟨heq, rfl⟩
  refine .inr ?_
  split
  · rename_i cidr hcidr
    obtain ⟨net, hnet, rfl⟩ := map_eq_singleton_iff.mp hcidr
    exact .inl ⟨net, hnet, rfl⟩
  · exact .inr rfl

/-- The prefixes of a printed span hold the addresses of the span. -/
theorem mem_cidrSpans_intervalIpsetString (hle : start ≤ stop) (hmax : stop ≤ family.max)
    (ip : IpAddr) :
    (∃ s ∈ cidrSpans (intervalIpsetString start stop family), s.Mem ip) ↔
      ip.family = family ∧ start ≤ ip.value ∧ ip.value ≤ stop := by
  have hbound : ∀ n ≤ stop, (IpAddr.ofNat family n).value = n := by
    intro n hn
    refine IpAddr.value_ofNat ?_
    rw [← Family.max_eq]
    omega
  rcases intervalIpsetString_cases start stop family with ⟨rfl, htext⟩ | ⟨net, hnet, htext⟩ | htext
  · have hspan : cidrSpans (IpAddr.ofNat family start).toString =
        [ipnetInterval (hostNet (.ofNat family start))] := by
      simp [cidrSpans, ipsetStringToCidrs, parseIpNet_toString_addr]
    rw [htext, hspan]
    simp only [mem_singleton, exists_eq_left, mem_ipnetInterval, contains_hostNet]
    constructor
    · rintro rfl
      simp [hbound]
    · rintro ⟨hf, hlo, hhi⟩
      refine IpAddr.ext_value (by simpa using hf) ?_
      rw [hbound _ le_rfl]
      omega
  · have hspan : cidrSpans net.toString = [ipnetInterval net] := by
      simp [cidrSpans, ipsetStringToCidrs, parseIpNet_toString_net]
    rw [htext, hspan, ← contains_cidrNets hmax, hnet]
    simp [mem_ipnetInterval]
  · rw [htext, cidrSpans, ipsetStringToCidrs, parseIpNet_rangeText,
      parseRange_rangeText (by simp)]
    simp only [hbound _ hle, hbound _ le_rfl, IpAddr.family_ofNat]
    exact mem_cidrsForInterval hmax ip

end Headscale.Policy
