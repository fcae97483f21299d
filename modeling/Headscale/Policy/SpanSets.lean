import Headscale.Policy.IpSet

/-!
# The loop that joins spans

`IpSet::from_spans` sorts its spans and joins each one with the last span of the result where the two
overlap or touch, with an addition that saturates at the highest IPv6 address. On spans of 128-bit
numbers this is the normal form of the interval library, whatever stands for the family, so that equal
sets of addresses are equal as values. Sets are printed and read again by the next stage; whichever
way they go, they come back as they were.
-/

namespace Headscale.Policy

open GoNetip Interval List

/-! ## The loop -/

/-- The tuple of the source: the family as a number, the first and the last address. -/
structure RawSpan where
  family : Nat
  start : Nat
  stop : Nat
deriving DecidableEq, Repr

namespace RawSpan

/-- The order of tuples. -/
def Before (s t : RawSpan) : Prop :=
  s.family < t.family ∨
    (s.family = t.family ∧ (s.start < t.start ∨ (s.start = t.start ∧ s.stop ≤ t.stop)))

instance : DecidableRel Before := fun _ _ => inferInstanceAs (Decidable (_ ∨ _))

/-- `u128::saturating_add` of one. -/
def saturatingSucc (n : Nat) : Nat := min (n + 1) Family.v6.max

/-- One turn of the loop, which looks at the last span of the result. -/
def pushSpan (merged : List RawSpan) (span : RawSpan) : List RawSpan :=
  match merged.getLast? with
  | some last =>
    if last.family = span.family ∧ span.start ≤ saturatingSucc last.stop then
      merged.dropLast ++ [{ last with stop := max last.stop span.stop }]
    else merged ++ [span]
  | none => merged ++ [span]

/-- `IpSet::from_spans`. -/
def fromSpans (spans : List RawSpan) : List RawSpan :=
  (spans.insertionSort Before).foldl pushSpan []

def Mem (s : RawSpan) (family n : Nat) : Prop := s.family = family ∧ s.start ≤ n ∧ n ≤ s.stop

/-- Sorted by family and start, with a gap between any two spans of one family. -/
def Canonical (spans : List RawSpan) : Prop :=
  (∀ s ∈ spans, s.start ≤ s.stop) ∧
    spans.Pairwise fun s t => s.family < t.family ∨ (s.family = t.family ∧ s.stop + 1 < t.start)

end RawSpan

/-! ## The loop is the normal form -/

section Raw

variable {κ : Type} [LinearOrder κ] {number : κ → Nat} (hnumber : StrictMono number)

/-- A span whose key is written as a number. -/
def rawSpan (number : κ → Nat) (s : Span κ) : RawSpan := ⟨number s.key, s.lo, s.hi⟩

include hnumber

lemma before_rawSpan (s t : Span κ) :
    s.Before t ↔ (rawSpan number s).Before (rawSpan number t) := by
  simp only [Span.Before, RawSpan.Before, rawSpan, hnumber.lt_iff_lt, hnumber.injective.eq_iff]

/-- The span under way is the last one of the result. -/
theorem foldl_pushSpan (merged : List RawSpan) (current : Span κ) (rest : List (Span κ))
    (hbound : ∀ s ∈ current :: rest, s.hi ≤ Family.v6.max) :
    (rest.map (rawSpan number)).foldl RawSpan.pushSpan (merged ++ [rawSpan number current]) =
      merged ++ (mergeFrom current rest).map (rawSpan number) := by
  induction rest generalizing merged current with
  | nil => rfl
  | cons s rest ih =>
    obtain ⟨hcurrent, hs, hrest⟩ := by simpa using hbound
    have hle := s.le
    -- where the addition saturates, every start is low enough
    have htouch : s.lo ≤ RawSpan.saturatingSucc current.hi ↔ s.lo ≤ current.hi + 1 := by
      unfold RawSpan.saturatingSucc
      omega
    rw [map_cons, foldl_cons, mergeFrom]
    simp only [RawSpan.pushSpan, getLast?_concat, dropLast_concat]
    by_cases hjoin : current.key = s.key ∧ s.lo ≤ current.hi + 1
    · rw [if_pos ⟨congrArg number hjoin.1, htouch.mpr hjoin.2⟩, if_pos hjoin]
      exact ih merged (current.join s) (forall_mem_cons.mpr ⟨max_le hcurrent hs, hrest⟩)
    have hapart : ¬ ((rawSpan number current).family = (rawSpan number s).family ∧
        (rawSpan number s).start ≤ RawSpan.saturatingSucc (rawSpan number current).stop) :=
      fun h => hjoin ⟨hnumber.injective h.1, htouch.mp h.2⟩
    rw [if_neg hapart, if_neg hjoin, ih _ s (forall_mem_cons.mpr ⟨hs, hrest⟩)]
    simp

lemma fromSpans_rawSpan (spans : List (Span κ)) (hbound : ∀ s ∈ spans, s.hi ≤ Family.v6.max) :
    RawSpan.fromSpans (spans.map (rawSpan number)) = (normalize spans).map (rawSpan number) := by
  have hsort : (spans.map (rawSpan number)).insertionSort RawSpan.Before =
      (spans.insertionSort Span.Before).map (rawSpan number) :=
    (map_insertionSort _ _ _ spans fun s _ t _ => before_rawSpan hnumber s t).symm
  have hsorted : ∀ s ∈ spans.insertionSort Span.Before, s.hi ≤ Family.v6.max :=
    fun s hs => hbound s ((perm_insertionSort _ spans).mem_iff.mp hs)
  rw [RawSpan.fromSpans, hsort, Interval.normalize]
  cases hspans : spans.insertionSort Span.Before with
  | nil => rfl
  | cons s rest =>
    rw [hspans] at hsorted
    exact foldl_pushSpan hnumber [] s rest hsorted

end Raw

namespace RawSpan

/-- Spans of ordered bounds are spans of the interval library. -/
def toSpan (s : RawSpan) (h : s.start ≤ s.stop ∧ s.stop ≤ Family.v6.max) : Span Nat :=
  ⟨s.family, s.start, s.stop, h.1⟩

lemma map_rawSpan_toSpan {spans : List RawSpan}
    (h : ∀ s ∈ spans, s.start ≤ s.stop ∧ s.stop ≤ Family.v6.max) :
    (spans.pmap toSpan h).map (rawSpan id) = spans := by
  rw [map_pmap]
  change spans.pmap (fun s _ => id s) h = spans
  rw [pmap_eq_map, map_id]

lemma fromSpans_toSpan {spans : List RawSpan}
    (h : ∀ s ∈ spans, s.start ≤ s.stop ∧ s.stop ≤ Family.v6.max) :
    fromSpans spans = (normalize (spans.pmap toSpan h)).map (rawSpan id) := by
  have hbound : ∀ s ∈ spans.pmap toSpan h, s.hi ≤ Family.v6.max := by
    intro s hs
    obtain ⟨t, ht, rfl⟩ := mem_pmap.mp hs
    exact (h t ht).2
  rw [← fromSpans_rawSpan strictMono_id _ hbound, map_rawSpan_toSpan h]

lemma covers_iff_mem_rawSpan (spans : List (Span Nat)) (family n : Nat) :
    (∃ s ∈ spans.map (rawSpan id), s.Mem family n) ↔ Covers spans family n := by
  simp [Covers, Mem, Span.Mem, rawSpan]

lemma canonical_rawSpan {κ : Type} [LinearOrder κ] {number : κ → Nat}
    (hnumber : StrictMono number) {spans : List (Span κ)} (h : spans.Pairwise Span.Apart) :
    Canonical (spans.map (rawSpan number)) := by
  refine ⟨?_, pairwise_map.mpr (h.imp fun hst => ?_)⟩
  · intro s hs
    obtain ⟨t, -, rfl⟩ := mem_map.mp hs
    exact t.le
  · exact hst.imp (fun hlt => hnumber hlt) fun ⟨hkey, hgap⟩ => ⟨congrArg number hkey, hgap⟩

end RawSpan

namespace IpSet

/-- The vector of spans that a set holds in the source. -/
def rawSpans (set : IpSet) : List RawSpan := set.spans.map (rawSpan Family.bits)

lemma strictMono_bits : StrictMono Family.bits := fun _ _ h => h

lemma rawSpans_fromSpans (spans : List IpSpan) :
    (fromSpans spans).rawSpans =
      RawSpan.fromSpans (spans.map fun s => rawSpan Family.bits s.toSpan) := by
  have hv6 : ∀ family : Family, family.max ≤ Family.v6.max := by
    intro family
    cases family <;> decide
  have hbound : ∀ s ∈ spans.map IpSpan.toSpan, s.hi ≤ Family.v6.max := by
    intro s hs
    obtain ⟨t, -, rfl⟩ := mem_map.mp hs
    exact t.inRange.trans (hv6 _)
  rw [rawSpans, fromSpans, ← fromSpans_rawSpan strictMono_bits _ hbound, List.map_map]
  rfl

lemma rawSpans_injective : Function.Injective rawSpans := by
  intro a b h
  have hspan : Function.Injective (rawSpan Family.bits) := by
    intro s t hst
    obtain ⟨hkey, hlo, hhi⟩ := RawSpan.mk.inj hst
    cases s
    cases t
    simp_all [strictMono_bits.injective.eq_iff]
  refine ext_mem fun ip => ?_
  rw [Mem, map_injective_iff.mpr hspan h, Mem]

end IpSet

open RawSpan

open IpSet

/-- Joining spans of ordered bounds leaves sorted spans with gaps that hold the same numbers, and
this is how sets are built: sets are equal as values when they hold the same addresses. -/
theorem fromSpans_is_canonical :
    (∀ spans : List RawSpan, (∀ s ∈ spans, s.start ≤ s.stop ∧ s.stop ≤ Family.v6.max) →
      RawSpan.Canonical (fromSpans spans) ∧
        ∀ family n, (∃ s ∈ fromSpans spans, s.Mem family n) ↔ ∃ s ∈ spans, s.Mem family n) ∧
    (∀ spans : List IpSpan, (fromSpans spans).rawSpans =
      fromSpans (spans.map fun s => rawSpan Family.bits s.toSpan)) ∧
    ∀ a b : IpSet, RawSpan.Canonical a.rawSpans ∧
      (a.rawSpans = b.rawSpans ↔ ∀ ip, a.Mem ip ↔ b.Mem ip) := by
  refine ⟨fun spans h => ⟨?_, fun family n => ?_⟩, rawSpans_fromSpans, fun a b => ⟨?_, ?_, ?_⟩⟩
  · rw [fromSpans_toSpan h]
    exact canonical_rawSpan strictMono_id (apart_normalize _)
  · rw [fromSpans_toSpan h, covers_iff_mem_rawSpan, covers_normalize,
      ← covers_iff_mem_rawSpan, map_rawSpan_toSpan h]
  · exact canonical_rawSpan strictMono_bits a.apart
  · intro hraw ip
    rw [rawSpans_injective hraw]
  · intro hmem
    rw [ext_mem hmem]

/-- Spans that meet at the top of the address space become one. -/
theorem top_spans_are_joined :
    RawSpan.Canonical (fromSpans
      [⟨128, Family.v6.max, Family.v6.max⟩, ⟨128, 5, Family.v6.max⟩, ⟨32, 0, 3⟩]) ∧
    ∀ family n, (∃ s ∈ fromSpans
        [⟨128, Family.v6.max, Family.v6.max⟩, ⟨128, 5, Family.v6.max⟩, ⟨32, 0, 3⟩],
          s.Mem family n) ↔
      ∃ s ∈ [(⟨128, Family.v6.max, Family.v6.max⟩ : RawSpan), ⟨128, 5, Family.v6.max⟩, ⟨32, 0, 3⟩],
        s.Mem family n :=
  fromSpans_is_canonical.1 _ (by decide)

/-! ## Sets come back from their texts -/

/-- The prefixes of an interval have no host bits. -/
theorem network_of_mem_cidrsLoop {family : Family} {stop : Nat} (hmax : stop ≤ family.max)
    (turns start : Nat) :
    ∀ net ∈ cidrsLoop family stop turns start, net.network = net.addr := by
  induction turns generalizing start with
  | zero =>
    intro net hnet
    cases hnet
  | succ turns ih =>
    intro net hnet
    rw [cidrsLoop] at hnet
    split at hnet
    · rename_i hle
      rcases mem_cons.mp hnet with rfl | hnet
      · rw [IpNet.network, networkValue_nextBlock hle hmax]
        simp [nextBlock]
      · split at hnet
        · cases hnet
        · exact ih _ net hnet
    · cases hnet

lemma network_of_mem_cidrNets {family : Family} {start stop : Nat} (hmax : stop ≤ family.max) :
    ∀ net ∈ cidrNets start stop family, net.network = net.addr := by
  unfold cidrNets
  split
  · intro net hnet
    obtain rfl := mem_singleton.mp hnet
    rfl
  · exact network_of_mem_cidrsLoop hmax _ start

lemma toString_net_ne_star (net : IpNet) : net.toString ≠ "*" := by
  intro hstar
  have hslash : '/' ∈ net.toString.toList := by simp [IpNet.toString, IpNet.chars]
  rw [hstar] at hslash
  exact absurd hslash (by decide)

namespace IpSet

@[simp] lemma stringSpans_toString_net (net : IpNet) :
    stringSpans net.toString = [ipnetInterval net] := by
  simp [stringSpans, toString_net_ne_star, cidrSpans, ipsetStringToCidrs, parseIpNet_toString_net]

@[simp] lemma fromStrings_prefixes (set : IpSet) : fromStrings set.prefixes = set := by
  have hnets : fromStrings set.prefixes = fromPrefixStrings set.prefixes := by
    refine ext_mem fun ip => ?_
    rw [mem_fromStrings, mem_fromPrefixStrings]
    refine exists_congr fun value => and_congr_right fun hvalue => ?_
    obtain ⟨t, -, hvalue⟩ := mem_flatMap.mp hvalue
    obtain ⟨net, -, rfl⟩ := mem_map.mp hvalue
    simp
  rw [hnets, fromPrefixStrings_prefixes]

/-! ### Filter strings -/

lemma fromFilterString_addr (ip : IpAddr) :
    fromFilterString ip.toString = some (single (addressSpan ip)) := by
  have hnot : ∀ c ∈ ['*', '/', '-'], c ∉ ip.toString.toList := by
    intro c hc
    simp only [mem_cons, not_mem_nil, or_false] at hc
    rcases hc with rfl | rfl | rfl <;>
    exact not_mem_addr_toString (by decide) (by decide) (by decide) ip
  have hstar : ip.toString ≠ "*" := fun h => hnot '*' (by simp) (by simp [h])
  have hcount : ip.toString.toList.count '-' = 0 :=
    count_eq_zero.mpr (hnot '-' (by simp))
  rw [fromFilterString, if_neg hstar, if_neg (hnot '/' (by simp)), if_neg (by omega),
    parseAddr_toString]

lemma fromFilterString_net {net : IpNet} (h : net.network = net.addr) :
    fromFilterString net.toString = some (single (ipnetInterval net)) := by
  have hslash : '/' ∈ net.toString.toList := by simp [IpNet.toString, IpNet.chars]
  rw [fromFilterString, if_neg (toString_net_ne_star net), if_pos hslash, parsePrefixNet_toString]
  simp [h]

lemma fromFilterString_range {a b : IpAddr} (hf : a.family = b.family) (hle : a.value ≤ b.value) :
    ∃ s : IpSpan, s.toSpan = ⟨a.family, a.value, b.value, hle⟩ ∧
      fromFilterString (rangeText a b) = some (single s) := by
  have hdash : ∀ ip : IpAddr, ip.toString.toList.count '-' = 0 := fun ip =>
    count_eq_zero.mpr (not_mem_addr_toString (by decide) (by decide) (by decide) ip)
  have hnot : ∀ c ∈ ['*', '/'], c ∉ (rangeText a b).toList := by
    intro c hc
    simp only [mem_cons, not_mem_nil, or_false] at hc
    rcases hc with rfl | rfl <;>
    exact not_mem_rangeText (by decide) (by decide) (by decide) a b
  have hstar : rangeText a b ≠ "*" := fun h => hnot '*' (by simp) (by simp [h])
  have hcount : (rangeText a b).toList.count '-' = 1 := by
    simp [rangeText_toList, hdash]
  rw [fromFilterString, if_neg hstar, if_neg (hnot '/' (by simp)), if_pos hcount,
    parseRange_rangeText hf]
  exact ⟨_, rfl, dif_pos ⟨hf, hle⟩⟩

/-- A printed span is a filter string for the addresses of the span. -/
theorem fromFilterString_intervalIpsetString (s : IpSpan) :
    fromFilterString (intervalIpsetString s.lo s.hi s.key) = some (single s) := by
  have hvalue : ∀ n ≤ s.hi, (IpAddr.ofNat s.key n).value = n := by
    intro n hn
    refine IpAddr.value_ofNat ?_
    have := s.inRange
    rw [← Family.max_eq]
    omega
  rcases intervalIpsetString_cases s.lo s.hi s.key with ⟨heq, htext⟩ | ⟨net, hnet, htext⟩ | htext
  · have hspan : addressSpan (.ofNat s.key s.lo) = s := by
      obtain ⟨⟨key, lo, hi, hle⟩, hmax⟩ := s
      obtain rfl : lo = hi := heq
      simp [addressSpan, hvalue]
    rw [htext, fromFilterString_addr, hspan]
  · -- the one prefix of the span holds its addresses
    have hsame : single (ipnetInterval net) = single s := by
      refine ext_mem fun ip => ?_
      have hcover := @contains_cidrNets s.key s.lo s.hi s.inRange ip
      rw [mem_single, mem_single, mem_ipnetInterval]
      simp only [hnet, mem_singleton, exists_eq_left] at hcover
      rw [hcover]
      exact and_congr_left' eq_comm
    have hnetwork : net.network = net.addr :=
      @network_of_mem_cidrNets s.key s.lo s.hi s.inRange net (hnet ▸ mem_singleton_self net)
    rw [htext, fromFilterString_net hnetwork, hsame]
  · obtain ⟨t, ht, hread⟩ := fromFilterString_range (a := .ofNat s.key s.lo) (b := .ofNat s.key s.hi)
      (by simp) (by rw [hvalue _ s.le, hvalue _ le_rfl]; exact s.le)
    have hspan : t = s := by
      obtain ⟨t, htmax⟩ := t
      obtain ⟨⟨key, lo, hi, hle⟩, hmax⟩ := s
      simp only at ht hvalue
      simp [ht, hvalue, hle]
    rw [htext, hread, hspan]

@[simp] lemma fromFilterStrings_strings (set : IpSet) : fromFilterStrings set.strings = set := by
  refine ext_mem fun ip => ?_
  have hread : ∀ t (ht : t ∈ set.spans), fromFilterString (intervalIpsetString t.lo t.hi t.key) =
      some (single ⟨t, set.inRange t ht⟩) := fun t ht =>
    fromFilterString_intervalIpsetString ⟨t, set.inRange t ht⟩
  rw [mem_fromFilterStrings]
  simp only [strings, mem_map, exists_exists_and_eq_and]
  constructor
  · rintro ⟨t, ht, found, hfound, hmem⟩
    cases (hread t ht).symm.trans hfound
    exact ⟨t, ht, (mem_single _ ip).mp hmem⟩
  · rintro ⟨t, ht, hmem⟩
    exact ⟨t, ht, _, hread t ht, (mem_single _ ip).mpr hmem⟩

end IpSet

/-- Every set comes back from its printed spans and from its prefixes, whichever way these are
read. -/
theorem sets_survive_printing (set : IpSet) :
    fromFilterStrings set.strings = set ∧ fromStrings set.strings = set ∧
      fromStrings set.prefixes = set ∧ fromPrefixStrings set.prefixes = set :=
  ⟨set.fromFilterStrings_strings, set.fromStrings_strings, set.fromStrings_prefixes,
    set.fromPrefixStrings_prefixes⟩

end Headscale.Policy
