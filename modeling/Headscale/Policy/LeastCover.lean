import Headscale.Policy.Prefix

/-!
# No shorter list of prefixes covers an interval

`cidrs_for_interval` takes the largest block that starts where the last one ended. Two blocks are nested
or disjoint, so whatever else covers the interval has no block that reaches over the end of the first
one, and what it has behind that end covers the rest of the interval.
-/

namespace Headscale.Policy

open GoNetip List Option IpNet IpAddr

/-! ## The source's own arithmetic -/

/-- The loop of `cidrs_for_interval` with what can fail in it: absent where `start += size` leaves 128
bits, where `IpNet::new` refuses the length, or where the turns do not suffice. -/
def checkedCidrsLoop (family : Family) (stop : Nat) : Nat → Nat → Option (List IpNet)
  | 0, _ => none
  | turns + 1, start =>
    if start ≤ stop then do
      let chosen := chosenPrefix family start stop
      let size := (blockSize family chosen).getD 1
      let net ← new (.ofNat family start) chosen
      if stop - start < size then some [net]
      else if start + size < 2 ^ 128 then
        (checkedCidrsLoop family stop turns (start + size)).map (net :: ·)
      else none
    else some []

def checkedCidrsForInterval (turns start stop : Nat) (family : Family) : Option (List String) :=
  if family = .v6 ∧ start = 0 ∧ stop = family.max then some ["::/0"]
  else (checkedCidrsLoop family stop turns start).map (List.map IpNet.toString)

/-! ## What the result should be -/

/-- The prefixes hold the addresses of the interval and no others. -/
def CoversExactly (family : Family) (start stop : Nat) (nets : List IpNet) : Prop :=
  ∀ ip, (∃ net ∈ nets, net.contains ip = true) ↔
    ip.family = family ∧ start ≤ ip.value ∧ ip.value ≤ stop

/-- Blocks that start at their own addresses, one behind the other, and as few as can be. -/
structure LeastCover (family : Family) (start stop : Nat) (nets : List IpNet) : Prop where
  aligned : ∀ net ∈ nets, net.addr.family = family ∧ net.addr.value % net.size = 0
  increasing : nets.Pairwise fun a b => a.addr.value + a.size ≤ b.addr.value
  exact : CoversExactly family start stop nets
  least : ∀ others, CoversExactly family start stop others → nets.length ≤ others.length

/-! ## Blocks -/

section Blocks

variable {a b i j : Nat}

/-- Of two aligned blocks that overlap the smaller lies in the larger. -/
theorem nested_of_overlap (ha : a % 2 ^ i = 0) (hb : b % 2 ^ j = 0) (hij : i ≤ j) (hab : a < b + 2 ^ j)
    (hba : b < a + 2 ^ i) : b ≤ a ∧ a + 2 ^ i ≤ b + 2 ^ j := by
  have hdvd : 2 ^ i ∣ 2 ^ j := Nat.pow_dvd_pow 2 hij
  obtain ⟨p, rfl⟩ := Nat.dvd_of_mod_eq_zero ha
  obtain ⟨q, rfl⟩ := hdvd.trans (Nat.dvd_of_mod_eq_zero hb)
  obtain ⟨r, hr⟩ := hdvd
  rw [hr, ← Nat.mul_add] at hab ⊢
  exact ⟨Nat.mul_le_mul_left _ (Nat.lt_succ_iff.mp (Nat.lt_of_mul_lt_mul_left hba)),
    Nat.mul_le_mul_left _ (Nat.lt_of_mul_lt_mul_left hab)⟩

end Blocks

section Cover

variable {family : Family} {start stop : Nat}

lemma contains_iff (net : IpNet) (ip : IpAddr) : net.contains ip = true ↔
    net.addr.family = ip.family ∧ net.networkValue ≤ ip.value ∧
      ip.value < net.networkValue + net.size := by
  have := net.size_pos
  simp only [IpNet.contains, decide_eq_true_eq]
  refine and_congr_right fun _ => and_congr_right fun _ => ?_
  omega

/-- A prefix of an exact cover lies in the interval. -/
theorem CoversExactly.bounds {nets : List IpNet} (h : CoversExactly family start stop nets)
    {net : IpNet} (hnet : net ∈ nets) : net.addr.family = family ∧ start ≤ net.networkValue ∧
      net.networkValue + net.size ≤ stop + 1 := by
  have hpos := net.size_pos
  have hend := net.networkValue_add_size_le
  -- its first and its last address
  have hfirst := (h (.ofNat net.addr.family net.networkValue)).mp ⟨net, hnet, by
    rw [contains_iff, family_ofNat, value_ofNat (by omega)]
    exact ⟨rfl, le_refl _, by omega⟩⟩
  have hlast := (h (.ofNat net.addr.family (net.networkValue + net.size - 1))).mp ⟨net, hnet, by
    rw [contains_iff, family_ofNat, value_ofNat (by omega)]
    exact ⟨rfl, by omega, by omega⟩⟩
  rw [family_ofNat, value_ofNat (by omega)] at hfirst hlast
  exact ⟨hfirst.1, hfirst.2.1, by omega⟩

/-- No shorter prefix fits, `::/0` apart. -/
theorem chosenPrefix_least {p : Nat} (hpart : stop + 1 < start + 2 ^ 128) (hp : p ≤ family.bits)
    (haligned : start % 2 ^ (family.bits - p) = 0) (hfits : start + 2 ^ (family.bits - p) ≤ stop + 1) :
    chosenPrefix family start stop ≤ p := by
  have hsize : blockSize family p = some (2 ^ (family.bits - p)) := by
    rw [blockSize, if_neg]
    intro h
    rw [h] at hfits
    omega
  unfold chosenPrefix
  cases hfound : (List.range (family.bits + 1)).find? _ with
  | none =>
    have := find?_eq_none.mp hfound p (mem_range.mpr (by omega))
    simp only [hsize, any_some, decide_eq_true_eq, not_and] at this
    exact absurd (this haligned) (by omega)
  | some q =>
    by_contra hlt
    have := (find?_range_eq_some.mp hfound).2.2 p (by simpa using hlt)
    simp only [hsize, any_some, Bool.not_eq_true', decide_eq_false_iff_not, not_and] at this
    exact absurd (this haligned) (by omega)

section Next

variable (hle : start ≤ stop) (hmax : stop ≤ family.max)
include hle hmax

lemma value_nextBlock : (nextBlock family start stop).addr.value = start := by
  refine value_ofNat ?_
  rw [← Family.max_eq]
  omega

/-- The next block starts at `start`, is aligned and ends in the interval. -/
theorem nextBlock_fits : (nextBlock family start stop).networkValue = start ∧
    start % (nextBlock family start stop).size = 0 ∧
      start + (nextBlock family start stop).size ≤ stop + 1 := by
  obtain ⟨size, -, hpow, haligned, hfits⟩ := chosenPrefix_spec hle hmax
  have hsize : (nextBlock family start stop).size = size := by
    rw [hpow]
    simp [nextBlock, IpNet.size]
  rw [hsize]
  exact ⟨networkValue_nextBlock hle hmax, haligned, hfits⟩

lemma blockSize_chosenPrefix : blockSize family (chosenPrefix family start stop) =
    some (nextBlock family start stop).size := by
  obtain ⟨size, hsize, hpow, -⟩ := chosenPrefix_spec hle hmax
  rw [hsize, hpow]
  simp [nextBlock, IpNet.size]

lemma cidrsLoop_of_le (turns : Nat) : cidrsLoop family stop (turns + 1) start =
    nextBlock family start stop ::
      cidrsLoop family stop turns (start + (nextBlock family start stop).size) := by
  rw [cidrsLoop, if_pos hle, blockSize_chosenPrefix hle hmax]
  simp only [getD_some]
  split
  · -- the interval ends with this block
    cases turns with
    | zero => rfl
    | succ turns => rw [cidrsLoop, if_neg (by omega)]
  · rfl

/-- A prefix of an exact cover does not reach over the end of the next block. -/
theorem CoversExactly.within_nextBlock {nets : List IpNet} (h : CoversExactly family start stop nets)
    (hpart : stop + 1 < start + 2 ^ 128) {net : IpNet} (hnet : net ∈ nets)
    (hbegins : net.networkValue < start + (nextBlock family start stop).size) :
    net.networkValue + net.size ≤ start + (nextBlock family start stop).size := by
  obtain ⟨hfamily, hlo, hhi⟩ := h.bounds hnet
  obtain ⟨-, haligned, -⟩ := nextBlock_fits hle hmax
  have hpos := net.size_pos
  have hlen := net.prefixLen_le
  have hnext : (nextBlock family start stop).size =
      2 ^ (family.bits - chosenPrefix family start stop) := by simp [nextBlock, size]
  have hsize : net.size = 2 ^ (family.bits - net.prefixLen) := by rw [size, hfamily]
  have hself : net.networkValue % net.size = 0 := Nat.mul_mod_left _ _
  rw [hnext] at hbegins haligned ⊢
  rw [hsize] at hself hhi hpos ⊢
  rcases Nat.le_total (family.bits - net.prefixLen)
    (family.bits - chosenPrefix family start stop) with hsmall | hlarge
  · exact (nested_of_overlap hself haligned hsmall hbegins (by omega)).2
  · -- a larger block would start at `start` as well, and the search would have found it
    have hin := nested_of_overlap haligned hself hlarge (by omega) (by omega)
    have hstart : net.networkValue = start := by omega
    rw [hstart] at hself hhi
    have hle := chosenPrefix_least hpart (hfamily ▸ hlen) hself hhi
    have hsame : family.bits - net.prefixLen = family.bits - chosenPrefix family start stop := by omega
    rw [hsame, hstart]

end Next

lemma cidrsLoop_of_lt (h : stop < start) (turns : Nat) : cidrsLoop family stop turns start = [] := by
  cases turns with
  | zero => rfl
  | succ turns => rw [cidrsLoop, if_neg (by omega)]

/-- Without the prefixes that begin in the next block, an exact cover covers what is left. -/
theorem CoversExactly.rest {nets : List IpNet} {next : Nat} (h : CoversExactly family start stop nets)
    (hnext : start ≤ next)
    (hwithin : ∀ net ∈ nets, net.networkValue < next → net.networkValue + net.size ≤ next) :
    CoversExactly family next stop (nets.filter fun net => next ≤ net.networkValue) := by
  intro ip
  simp only [mem_filter, decide_eq_true_eq, contains_iff]
  constructor
  · rintro ⟨net, ⟨hnet, hlo⟩, hin⟩
    have := (h ip).mp ⟨net, hnet, (contains_iff net ip).mpr hin⟩
    exact ⟨this.1, by omega, this.2.2⟩
  · rintro ⟨hfamily, hlo, hhi⟩
    obtain ⟨net, hnet, hin⟩ := (h ip).mpr ⟨hfamily, by omega, hhi⟩
    rw [contains_iff] at hin
    refine ⟨net, ⟨hnet, ?_⟩, hin⟩
    by_contra hbegins
    have := hwithin net hnet (by omega)
    omega

lemma networkValue_of_aligned {net : IpNet} (h : net.addr.value % net.size = 0) :
    net.networkValue = net.addr.value := Nat.div_mul_cancel (Nat.dvd_of_mod_eq_zero h)

lemma cidrsLoop_least (hmax : stop ≤ family.max) (turns : Nat)
    (hpart : stop + 1 < start + 2 ^ 128) (hturns : stop + 1 ≤ start + turns) :
    LeastCover family start stop (cidrsLoop family stop turns start) := by
  induction turns generalizing start with
  | zero =>
    have hempty : CoversExactly family start stop [] := by
      intro ip
      simp only [not_mem_nil, false_and, exists_false, false_iff]
      omega
    exact ⟨by simp [cidrsLoop], .nil, hempty, by simp [cidrsLoop]⟩
  | succ turns ih =>
    have hexact : CoversExactly family start stop (cidrsLoop family stop (turns + 1) start) :=
      contains_cidrsLoop hmax _ (by omega)
    by_cases hle : start ≤ stop
    · obtain ⟨hbegin, haligned, hfits⟩ := nextBlock_fits hle hmax
      have hvalue := value_nextBlock hle hmax
      have hpos := (nextBlock family start stop).size_pos
      rw [cidrsLoop_of_le hle hmax] at hexact ⊢
      have hrest := @ih (start + (nextBlock family start stop).size) (by omega) (by omega)
      refine ⟨?_, ?_, hexact, ?_⟩
      · refine forall_mem_cons.mpr ⟨⟨family_ofNat _ _, ?_⟩, hrest.aligned⟩
        rw [hvalue, haligned]
      · refine pairwise_cons.mpr ⟨fun net hnet => ?_, hrest.increasing⟩
        have hbehind := (hrest.exact.bounds hnet).2.1
        rwa [hvalue, ← networkValue_of_aligned (hrest.aligned net hnet).2]
      · intro others hothers
        have hsmaller := hrest.least _ (hothers.rest (Nat.le_add_right _ _) fun net hnet =>
          hothers.within_nextBlock hle hmax hpart hnet)
        -- the prefix that holds the first address is not among those that are left
        obtain ⟨net, hnet, hin⟩ := (hothers (nextBlock family start stop).addr).mpr
          ⟨family_ofNat _ _, by omega, by omega⟩
        have hdrop : (others.filter fun net =>
            start + (nextBlock family start stop).size ≤ net.networkValue).length < others.length := by
          refine length_filter_lt_length_iff_exists.mpr ⟨net, hnet, ?_⟩
          have := (contains_iff _ _).mp hin
          simp only [decide_eq_true_eq]
          omega
        rw [length_cons]
        omega
    · rw [cidrsLoop_of_lt (by omega)] at hexact ⊢
      exact ⟨by simp, .nil, hexact, by simp⟩

/-- Nothing fails, and turns beyond the need change nothing. -/
theorem checkedCidrsLoop_eq (hmax : stop ≤ family.max) {turns bound : Nat} (hstart : start ≤ stop + 1)
    (hturns : stop + 1 < start + turns) (hbound : stop + 1 ≤ start + bound) :
    checkedCidrsLoop family stop turns start = some (cidrsLoop family stop bound start) := by
  have hv6 : family.max < 2 ^ 128 := by cases family <;> decide
  induction turns generalizing start bound with
  | zero => omega
  | succ turns ih =>
    rw [checkedCidrsLoop]
    by_cases hle : start ≤ stop
    · obtain ⟨bound, rfl⟩ : ∃ b, bound = b + 1 := ⟨bound - 1, by omega⟩
      have hnew : new (.ofNat family start) (chosenPrefix family start stop) =
          some (nextBlock family start stop) := by
        rw [new, dif_pos (by simpa using chosenPrefix_le family start stop)]
        rfl
      have hpos := (nextBlock family start stop).size_pos
      have hfits := (nextBlock_fits hle hmax).2.2
      rw [if_pos hle, cidrsLoop_of_le hle hmax]
      simp only [blockSize_chosenPrefix hle hmax, getD_some, hnew, bind_eq_bind, bind_some]
      split
      · rw [cidrsLoop_of_lt (by omega)]
      · have hrest := @ih _ bound hfits (by omega) (by omega)
        rw [if_pos (by omega), hrest, map_some]
    · rw [if_neg hle, cidrsLoop_of_lt (by omega)]

/-- The whole space is one prefix, and no list of prefixes is shorter. -/
theorem wholeSpace_least : LeastCover .v6 0 Family.v6.max [⟨.ofNat .v6 0, 0, Nat.zero_le _⟩] := by
  have hexact : CoversExactly .v6 0 Family.v6.max [⟨.ofNat .v6 0, 0, Nat.zero_le _⟩] := by
    have hcover := @contains_cidrNets .v6 0 _ (le_refl _)
    rwa [cidrNets, if_pos ⟨rfl, rfl, rfl⟩] at hcover
  refine ⟨?_, by simp, hexact, fun others hothers => ?_⟩
  · simp only [mem_singleton, forall_eq]
    exact ⟨rfl, Nat.zero_mod _⟩
  · obtain ⟨net, hnet, -⟩ := (hothers (.ofNat .v6 0)).mpr ⟨rfl, Nat.zero_le _, Nat.zero_le _⟩
    exact length_pos_of_mem hnet

end Cover

/-- Within enough turns, and without an overflow on the way, `cidrs_for_interval` returns the least list
of prefixes that covers its interval. -/
theorem interval_prefixes_are_the_least_cover (family : Family) (start stop : Nat)
    (hle : start ≤ stop) (hmax : stop ≤ family.max) :
    ∃ nets, LeastCover family start stop nets ∧
      cidrsForInterval start stop family = nets.map IpNet.toString ∧
      ∃ enough, ∀ turns, enough ≤ turns →
        checkedCidrsForInterval turns start stop family = some (nets.map IpNet.toString) := by
  refine ⟨cidrNets start stop family, ?_, rfl, stop + 2 - start, fun turns hturns => ?_⟩
  · rw [cidrNets]
    split
    · next hwhole =>
      rcases hwhole with ⟨rfl, rfl, rfl⟩
      exact wholeSpace_least
    next hwhole =>
    refine cidrsLoop_least hmax _ ?_ (by omega)
    -- an interval of `2 ^ 128` addresses is the whole space
    have hv4 : Family.v4.max < 2 ^ 128 - 1 := by decide
    have hv6 : Family.v6.max = 2 ^ 128 - 1 := rfl
    cases family with
    | v4 => omega
    | v6 =>
      have hpart : ¬ (start = 0 ∧ stop = Family.v6.max) := fun h => hwhole ⟨rfl, h⟩
      omega
  · rw [checkedCidrsForInterval, cidrNets]
    split
    · exact congrArg (fun text => some [text]) (by decide)
    · rw [checkedCidrsLoop_eq hmax (by omega) (by omega) (Nat.le_of_eq _), map_some]
      omega

theorem unalignedPair_least : 1 ≤ 2 ∧ 2 ≤ Family.v4.max ∧
    ∃ nets, LeastCover .v4 1 2 nets ∧ cidrsForInterval 1 2 .v4 = nets.map IpNet.toString ∧
      ∃ enough, ∀ turns, enough ≤ turns →
        checkedCidrsForInterval turns 1 2 .v4 = some (nets.map IpNet.toString) :=
  ⟨by decide, by decide, interval_prefixes_are_the_least_cover .v4 1 2 (by decide) (by decide)⟩

end Headscale.Policy
