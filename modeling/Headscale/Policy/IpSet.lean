import Headscale.Policy.Prefix

/-!
# Sets of addresses

The interval sets of the policy matcher. A set holds its spans in normal form, so two sets with the
same addresses are equal.
-/

namespace Headscale.Policy

open GoNetip List IpAddr

/-! ## Sets -/

/-- A set of addresses: its spans sorted, with a gap between any two. -/
structure IpSet where
  spans : List (Interval.Span Family)
  apart : spans.Pairwise Interval.Span.Apart
  inRange : ∀ s ∈ spans, s.hi ≤ s.key.max
deriving DecidableEq

namespace IpSet

def Mem (set : IpSet) (ip : IpAddr) : Prop := Interval.Covers set.spans ip.family ip.value

instance (set : IpSet) (ip : IpAddr) : Decidable (set.Mem ip) :=
  inferInstanceAs (Decidable (∃ s ∈ set.spans, _))

def empty : IpSet := ⟨[], List.Pairwise.nil, by simp⟩

def fromSpans (spans : List IpSpan) : IpSet :=
  ⟨Interval.normalize (spans.map IpSpan.toSpan), Interval.apart_normalize _, by
    intro s hs
    -- The upper end of a joined span is the upper end of one of the given ones or inside it.
    have hcover := (Interval.covers_normalize (spans.map IpSpan.toSpan) s.key s.hi).mp
      ⟨s, hs, rfl, s.le, le_refl _⟩
    obtain ⟨t, ht, hkey, -, hhi⟩ := hcover
    obtain ⟨u, -, rfl⟩ := mem_map.mp ht
    rw [← hkey]
    exact hhi.trans u.inRange⟩

variable (values : List String) (set : IpSet) (ip : IpAddr)

@[simp] lemma mem_fromSpans (spans : List IpSpan) (ip : IpAddr) :
    (fromSpans spans).Mem ip ↔ ∃ s ∈ spans, s.Mem ip := by
  rw [Mem, fromSpans, Interval.covers_normalize]
  simp only [Interval.Covers, mem_map, exists_exists_and_eq_and, IpSpan.Mem]

/-- A set is determined by its addresses. -/
theorem ext_mem {a b : IpSet} (h : ∀ ip, a.Mem ip ↔ b.Mem ip) : a = b := by
  have hspans : a.spans = b.spans := by
    refine Interval.eq_of_apart a.apart b.apart fun k n => ?_
    by_cases hn : n ≤ k.max
    · have hlt : n < 2 ^ k.bits := by
        rw [← Family.max_eq]
        omega
      have hk := h (ofNat k n)
      simpa [Mem, value_ofNat hlt] using hk
    · have hout : ∀ set : IpSet, ¬ Interval.Covers set.spans k n := by
        rintro set ⟨s, hs, rfl, -, hhi⟩
        have := set.inRange s hs
        omega
      simp [hout]
  cases a
  cases b
  simp_all

/-- A set of one span. -/
def single (s : IpSpan) : IpSet := ⟨[s.toSpan], by simp, by simpa using s.inRange⟩

/-- Every address of both families. -/
def all : IpSet :=
  ⟨[(IpSpan.full .v4).toSpan, (IpSpan.full .v6).toSpan],
    pairwise_pair.mpr (.inl (show Family.v4 < Family.v6 by decide)), by
      simp [IpSpan.full]⟩

@[simp] lemma mem_single (s : IpSpan) (ip : IpAddr) : (single s).Mem ip ↔ s.Mem ip := by
  simp [Mem, single, IpSpan.Mem]

/-! ## Reading sets -/

/-- The spans of one entry of `from_strings`: `*`, an address, a prefix or a range. -/
def stringSpans (value : String) : List IpSpan :=
  if value = "*" then [.full .v4, .full .v6] else cidrSpans value

def fromStrings (values : List String) : IpSet := fromSpans (values.flatMap stringSpans)

/-- `util.ParseIPSet(value, nil)`: unlike a typed prefix, a filter prefix with host bits is
rejected, and so is a range whose ends are out of order. -/
def fromFilterString (value : String) : Option IpSet :=
  if value = "*" then some all
  else if '/' ∈ value.toList then
    match parsePrefixNet value with
    | none => none
    | some net => if net.addr ≠ net.network then none else some (single (ipnetInterval net))
  else if value.toList.count '-' = 1 then
    match parseRange value.toList with
    | none => none
    | some (a, b) =>
      if h : a.family = b.family ∧ a.value ≤ b.value then
        some (single ⟨⟨a.family, a.value, b.value, h.2⟩, by
          simpa [h.1] using value_le_max b⟩)
      else none
  else
    match parseAddr value with
    | .ok (ip, _) => some (single (addressSpan ip))
    | .error _ => none

/-- The spans of a set, each with its bound. -/
def spanList (set : IpSet) : List IpSpan :=
  set.spans.attach.map fun s => ⟨s.1, set.inRange s.1 s.2⟩

/-- The union of the sets that filter strings stand for; text that is not a set adds nothing. -/
def fromFilterStrings (values : List String) : IpSet :=
  fromSpans ((values.filterMap fromFilterString).flatMap spanList)

def fromPrefixStrings (values : List String) : IpSet := fromSpans (values.filterMap prefixSpan)

def union (a b : IpSet) : IpSet :=
  fromSpans (a.spanList ++ b.spanList)

lemma mem_spanList : (∃ s ∈ set.spanList, s.Mem ip) ↔ set.Mem ip := by
  simp [spanList, Mem, Interval.Covers, IpSpan.Mem]

@[simp] lemma mem_fromStrings :
    (fromStrings values).Mem ip ↔ ∃ value ∈ values, ∃ s ∈ stringSpans value, s.Mem ip := by
  simp only [fromStrings, mem_fromSpans, mem_flatMap]
  tauto

/-- The set of some texts depends on its members only. -/
theorem fromStrings_congr {a b : List String} (h : ∀ value, value ∈ a ↔ value ∈ b) :
    fromStrings a = fromStrings b := ext_mem fun ip => by simp only [mem_fromStrings, h]

@[simp] lemma mem_fromFilterStrings :
    (fromFilterStrings values).Mem ip ↔
      ∃ value ∈ values, ∃ set, fromFilterString value = some set ∧ set.Mem ip := by
  rw [fromFilterStrings, mem_fromSpans]
  simp only [mem_flatMap, mem_filterMap, ← mem_spanList]
  tauto

@[simp] lemma mem_fromPrefixStrings :
    (fromPrefixStrings values).Mem ip ↔
      ∃ value ∈ values, ∃ s, prefixSpan value = some s ∧ s.Mem ip := by
  simp only [fromPrefixStrings, mem_fromSpans, mem_filterMap]
  tauto

@[simp] lemma mem_union (a b : IpSet) (ip : IpAddr) :
    (union a b).Mem ip ↔ a.Mem ip ∨ b.Mem ip := by
  simp [union, or_and_right, exists_or, mem_spanList]

/-! ## Printing sets -/

def prefixes (set : IpSet) : List String :=
  set.spans.flatMap fun s => cidrsForInterval s.lo s.hi s.key

def strings (set : IpSet) : List String :=
  set.spans.map fun s => intervalIpsetString s.lo s.hi s.key

/-- A printed span is not the wildcard: the wildcard expands to no prefix. -/
theorem intervalIpsetString_ne_star {family : Family} {start stop : Nat} (hle : start ≤ stop)
    (hmax : stop ≤ family.max) : intervalIpsetString start stop family ≠ "*" := by
  intro hstar
  have hlt : start < 2 ^ family.bits := by
    rw [← Family.max_eq]
    omega
  obtain ⟨s, hs, -⟩ := (mem_cidrSpans_intervalIpsetString hle hmax (.ofNat family start)).mpr
    ⟨by simp, by rw [value_ofNat hlt], by rwa [value_ofNat hlt]⟩
  have hnone : cidrSpans "*" = [] := by decide +kernel
  rw [hstar, hnone] at hs
  cases hs

/-- Reading the printed spans of a set gives the set back. -/
theorem mem_cidrSpans_strings :
    (∃ value ∈ set.strings, ∃ s ∈ cidrSpans value, s.Mem ip) ↔ set.Mem ip := by
  simp only [strings, mem_map, exists_exists_and_eq_and]
  constructor
  · rintro ⟨t, ht, hs⟩
    obtain ⟨hf, hlo, hhi⟩ :=
      (mem_cidrSpans_intervalIpsetString t.le (set.inRange t ht) ip).mp hs
    exact ⟨t, ht, hf.symm, hlo, hhi⟩
  · rintro ⟨t, ht, hf, hlo, hhi⟩
    exact ⟨t, ht, (mem_cidrSpans_intervalIpsetString t.le (set.inRange t ht) ip).mpr
      ⟨hf.symm, hlo, hhi⟩⟩

lemma ne_star_of_mem_strings {set : IpSet} {value : String} (h : value ∈ set.strings) :
    value ≠ "*" := by
  obtain ⟨t, ht, rfl⟩ := mem_map.mp h
  exact intervalIpsetString_ne_star t.le (set.inRange t ht)

@[simp] lemma fromStrings_strings : fromStrings set.strings = set := by
  refine ext_mem fun ip => ?_
  rw [mem_fromStrings, ← mem_cidrSpans_strings]
  refine exists_congr fun value => and_congr_right fun hvalue => ?_
  rw [stringSpans, if_neg (ne_star_of_mem_strings hvalue)]

@[simp] lemma fromPrefixStrings_prefixes : fromPrefixStrings set.prefixes = set := by
  refine ext_mem fun ip => ?_
  simp only [mem_fromPrefixStrings, prefixes, mem_flatMap]
  constructor
  · rintro ⟨value, ⟨t, ht, hvalue⟩, s, hs, hip⟩
    obtain ⟨hf, hlo, hhi⟩ := (mem_cidrsForInterval (set.inRange t ht) ip).mp
      ⟨s, mem_filterMap.mpr ⟨value, hvalue, hs⟩, hip⟩
    exact ⟨t, ht, hf.symm, hlo, hhi⟩
  · rintro ⟨t, ht, hf, hlo, hhi⟩
    obtain ⟨s, hs, hip⟩ := (mem_cidrsForInterval (set.inRange t ht) ip).mpr ⟨hf.symm, hlo, hhi⟩
    obtain ⟨value, hvalue, hspan⟩ := mem_filterMap.mp hs
    exact ⟨value, ⟨t, ht, hvalue⟩, s, hspan, hip⟩

/-! ## Queries -/

/-- Contains an address given as text; a zoned address is in no set. -/
def containsIp (set : IpSet) (address : String) : Bool :=
  match parseAddr address with
  | .ok (ip, none) => set.Mem ip
  | _ => false

def overlapsPrefix (set : IpSet) (value : String) : Bool :=
  match prefixSpan value with
  | none => false
  | some s => set.spans.any fun t => s.toSpan.Overlaps t

def containsPrefix (set : IpSet) (value : String) : Bool :=
  match prefixSpan value with
  | none => false
  | some s => set.spans.any fun t => s.toSpan.Within t

lemma containsIp_iff {set : IpSet} {address : String} :
    set.containsIp address = true ↔ ∃ ip, parseAddr address = .ok (ip, none) ∧ set.Mem ip := by
  unfold containsIp
  split
  · rename_i ip hip
    simp [hip]
  · rename_i hno
    simp only [Bool.false_eq_true, false_iff, not_exists, not_and]
    intro ip hip
    exact absurd hip (hno ip)

lemma exists_mem_of_overlaps {s t : IpSpan} (h : s.toSpan.Overlaps t.toSpan) :
    ∃ ip, s.Mem ip ∧ t.Mem ip := by
  obtain ⟨k, n, hs, ht⟩ := Interval.Span.overlaps_iff.mp h
  have hlt : n < 2 ^ k.bits := by
    have h1 := s.inRange
    have h2 := hs.2.2
    rw [← Family.max_eq, ← hs.1]
    omega
  refine ⟨ofNat k n, ?_, ?_⟩
  · simpa [IpSpan.Mem, value_ofNat hlt] using hs
  · simpa [IpSpan.Mem, value_ofNat hlt] using ht

/-- A set overlaps a prefix exactly when the two share an address. -/
theorem overlapsPrefix_iff {set : IpSet} {value : String} :
    set.overlapsPrefix value = true ↔
      ∃ s, prefixSpan value = some s ∧ ∃ ip, s.Mem ip ∧ set.Mem ip := by
  unfold overlapsPrefix
  cases hs : prefixSpan value with
  | none => simp
  | some s =>
    simp only [any_eq_true, decide_eq_true_eq, Option.some.injEq, exists_eq_left']
    constructor
    · rintro ⟨t, ht, hov⟩
      obtain ⟨ip, hsip, htip⟩ :=
        exists_mem_of_overlaps (s := s) (t := ⟨t, set.inRange t ht⟩) hov
      exact ⟨ip, hsip, t, ht, htip⟩
    · rintro ⟨ip, hsip, t, ht, htip⟩
      exact ⟨t, ht, Interval.Span.overlaps_iff.mpr ⟨_, _, hsip, htip⟩⟩

end IpSet

end Headscale.Policy
