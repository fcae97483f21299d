import Headscale.Ipam.Allocator
import Headscale.Lib.Result

/-!
# What the calls do

A search finds an address that the family offers, and the random one gives up only when nothing is
left. Each call takes the addresses that it hands out; only a pair that gets an IPv4 address and no
IPv6 address takes the IPv4 address and hands out nothing.
-/

namespace Headscale.Ipam

open GoNetip Search Option

/-! ## Allocation in one family -/

variable {start : Nat} {ips : List IpAddr} {last : Nat}

lemma scanUp_eq_firstFrom {free : Nat → Bool} (hlast : last < 2 ^ 128) (n start : Nat)
    (hn : n = last + 1 - start) : scanUp free last n start = firstFrom free n start := by
  induction n generalizing start with
  | zero => rfl
  | succ n ih =>
    rw [scanUp, firstFrom, if_pos (by omega)]
    by_cases hfree : free start = true
    · rw [if_pos hfree, if_pos hfree]
    rw [if_neg hfree, if_neg hfree]
    by_cases hnext : start + 1 < 2 ^ 128
    · simp only [checkedSucc, if_pos hnext]
      exact ih (start + 1) (by omega)
    · -- the search is at the top of the address space, and so at its end
      obtain rfl : n = 0 := by omega
      simp only [checkedSucc, if_neg hnext, firstFrom]

lemma sampleBelow_cases {bound : Nat} {draws : Draws} {drawn : Except AllocError Nat}
    (h : sampleBelow bound draws = some drawn) :
    (∃ error, drawn = .error (.internal error)) ∨ ∃ sample < bound, drawn = .ok sample := by
  induction draws with
  | nil => cases h
  | cons draw draws ih =>
    cases draw with
    | error error => exact .inl ⟨_, (Option.some.inj h).symm⟩
    | ok raw =>
      simp only [sampleBelow] at h
      split at h
      · exact .inr ⟨_, ‹_›, (Option.some.inj h).symm⟩
      · exact ih h

/-- A failing random source is not reported as exhaustion. -/
theorem randomBetween_cases {draws : Draws} {drawn : Except AllocError Nat} (hle : start ≤ last)
    (h : randomBetween start last draws = some drawn) : (∃ error, drawn = .error (.internal error)) ∨
      ∃ value, start ≤ value ∧ value ≤ last ∧ drawn = .ok value := by
  unfold randomBetween at h
  split at h
  · exact .inr ⟨start, le_rfl, hle, (Option.some.inj h).symm⟩
  · obtain ⟨drawn, hdrawn, rfl⟩ := map_eq_some_iff.mp h
    obtain ⟨error, rfl⟩ | ⟨sample, hlt, rfl⟩ := sampleBelow_cases hdrawn
    · exact .inl ⟨error, rfl⟩
    · exact .inr ⟨_, Nat.le_add_right _ _, by omega, rfl⟩

lemma two_pow_bits_le (f : Family) : 2 ^ f.bits ≤ 2 ^ 128 :=
  Nat.pow_le_pow_right (by decide) (by cases f <;> decide)

lemma nextInRange_eq_wrapSucc {f : Family} (range : AddrRange f) :
    nextInRange range = wrapSucc range.network range.last := by
  funext candidate
  have hlast := Nat.lt_of_lt_of_le range.last_lt (two_pow_bits_le f)
  unfold nextInRange checkedSucc wrapSucc
  by_cases hlt : candidate < range.last
  · rw [if_pos hlt, if_pos (by omega), filter_some, if_pos (by simpa using Nat.succ_le_of_lt hlt)]
    rfl
  rw [if_neg hlt]
  by_cases hnext : candidate + 1 < 2 ^ 128
  · rw [if_pos hnext, filter_some, if_neg (by simpa using Nat.lt_succ_of_le (Nat.le_of_not_lt hlt))]
    rfl
  · rw [if_neg hnext]
    rfl

namespace IpFamilyAllocator

variable {f : Family} {family family' : IpFamilyAllocator f} {reserved : Nat → Bool}
  {strategy : IpAllocationStrategy} {draws : Draws} {value : Nat}

/-- What an address must be in order to be handed out. -/
structure Offers (family : IpFamilyAllocator f) (reserved : Nat → Bool) (value : Nat) : Prop where
  network_le : family.range.network ≤ value
  le_last : value ≤ family.range.last
  unused : value ∉ family.used
  unreserved : reserved value = false

lemma free_iff : family.free reserved value = true ↔ value ∉ family.used ∧ reserved value = false := by
  simp [free]

lemma allocateSequential_ok (hprev : family.range.network ≤ family.prev)
    (h : family.allocateSequential reserved = .ok (value, family')) :
    family.Offers reserved value ∧ family' = family.take value := by
  unfold allocateSequential at h
  split at h
  · cases h
  rename_i start hstart
  have hsucc : start = family.prev + 1 := by
    unfold checkedSucc at hstart
    split at hstart
    · exact (Option.some.inj hstart).symm
    · cases hstart
  split at h <;> cases h
  rename_i candidate hscan
  rw [scanUp_eq_firstFrom (Nat.lt_of_lt_of_le family.range.last_lt (two_pow_bits_le f)) _ _ rfl]
    at hscan
  obtain ⟨hle, hlt, hfree⟩ := firstFrom_some hscan
  obtain ⟨hunused, hunreserved⟩ := free_iff.mp hfree
  exact ⟨⟨by omega, by omega, hunused, hunreserved⟩, rfl⟩

lemma allocateRandom_ok (h : family.allocateRandom reserved draws = some (.ok (value, family'))) :
    family.Offers reserved value ∧ family' = family.take value := by
  obtain ⟨drawn, hdrawn, h⟩ := map_eq_some_iff.mp h
  obtain ⟨error, rfl⟩ | ⟨start, hfirst, hlast, rfl⟩ :=
    randomBetween_cases family.range.network_le hdrawn
  · cases h
  simp only at h
  split at h <;> cases h
  rename_i candidate hscan
  obtain ⟨hfree, k, hk⟩ := scanOrbit_some hscan
  obtain ⟨hunused, hunreserved⟩ := free_iff.mp hfree
  have hmem := iterate_wrapSucc_mem hfirst hlast k
  rw [← nextInRange_eq_wrapSucc, ← hk] at hmem
  exact ⟨⟨hmem.1, hmem.2, hunused, hunreserved⟩, rfl⟩

/-- The random search gives up only after it has tried every address of the prefix. -/
theorem allocateRandom_exhausted
    (h : family.allocateRandom reserved draws = some (.error .exhausted)) {value : Nat}
    (hnetwork : family.range.network ≤ value) (hlast : value ≤ family.range.last) :
    value ∈ family.used ∨ reserved value = true := by
  obtain ⟨drawn, hdrawn, h⟩ := map_eq_some_iff.mp h
  obtain ⟨error, rfl⟩ | ⟨start, hfirst, hend, rfl⟩ :=
    randomBetween_cases family.range.network_le hdrawn
  · cases h
  simp only at h
  split at h
  · cases h
  rename_i hscan
  rw [nextInRange_eq_wrapSucc] at hscan
  obtain ⟨k, rfl⟩ := exists_iterate_wrapSucc hfirst hend hnetwork hlast
  have hfree := scanOrbit_none hscan (Nat.succ_pos _) le_rfl
    (iterate_wrapSucc_period hfirst hend) k
  have hnot := mt free_iff.mpr (by simpa using hfree)
  by_contra hneither
  push Not at hneither
  exact hnot ⟨hneither.1, by simpa using hneither.2⟩

lemma allocate_ok (hprev : family.range.network ≤ family.prev)
    (h : family.allocate strategy reserved draws = some (.ok (value, family'))) :
    family.Offers reserved value ∧ family' = family.take value := by
  cases strategy with
  | sequential => exact allocateSequential_ok hprev (Option.some.inj h)
  | random => exact allocateRandom_ok h

end IpFamilyAllocator

/-! ## Calls and replies -/

inductive Call where
  | allocate (draws : Draws)
  | allocateIpv6 (draws : Draws)
  | allocateAddresses (draws4 draws6 : Draws)
  | releaseAddresses (ipv4 : Option (Fin (2 ^ 32))) (ipv6 : Option (Fin (2 ^ 128)))
deriving DecidableEq

inductive Reply where
  | address (ip : IpAddr)
  | optional (ip : Option IpAddr)
  | pair (ipv4 ipv6 : Option IpAddr)
  | failed (f : Family) (error : AllocError)
  | pairFailed (error : PairError)
  | released
deriving DecidableEq

/-- The addresses that a reply hands out. -/
def Reply.handed : Reply → List IpAddr
  | .address ip => [ip]
  | .optional ip => ip.toList
  | .pair ipv4 ipv6 => ipv4.toList ++ ipv6.toList
  | _ => []

/-- The reply reports that the family has no address left. -/
def Reply.Exhausts (reply : Reply) (f : Family) : Prop :=
  reply = .failed f .exhausted ∨ reply = .pairFailed ⟨f, .exhausted⟩

def Reply.IsError : Reply → Prop
  | .failed .. | .pairFailed _ => True
  | _ => False

/-- The addresses that a call gives back. -/
def Call.released : Call → List IpAddr
  | .releaseAddresses ipv4 ipv6 => (ipv4.map .v4).toList ++ (ipv6.map .v6).toList
  | _ => []

namespace CidrIpAllocator

def run (allocator : CidrIpAllocator) : Call → Option (Reply × CidrIpAllocator)
  | .allocate draws => (allocator.allocateIpv4Inner draws).map fun
    | (.ok ip, allocator) => (.address ip, allocator)
    | (.error error, allocator) => (.failed .v4 error, allocator)
  | .allocateIpv6 draws => (allocator.allocateIpv6Inner draws).map fun
    | (.ok ip, allocator) => (.optional ip, allocator)
    | (.error error, allocator) => (.failed .v6 error, allocator)
  | .allocateAddresses draws4 draws6 => (allocator.allocateAddresses draws4 draws6).map fun
    | (.ok (ipv4, ipv6), allocator) => (.pair ipv4 ipv6, allocator)
    | (.error error, allocator) => (.pairFailed error, allocator)
  | .releaseAddresses ipv4 ipv6 => some (.released, allocator.releaseAddresses ipv4 ipv6)

/-- The call takes an IPv4 address for a pair that has no IPv6 address to go with it. -/
def leaks (allocator : CidrIpAllocator) : Call → Bool
  | .allocateAddresses draws4 draws6 =>
    match allocator.allocateIpv4Inner draws4, allocator.allocateIpv6Inner draws6 with
    | some (.ok _, _), some (.error _, _) => true
    | _, _ => false
  | _ => false

variable {allocator allocator' : CidrIpAllocator} {f g : Family}

@[simp] lemma get_set (family : IpFamilyAllocator f) : (allocator.set f family).get f = some family := by
  cases f <;> rfl

lemma get_set_of_ne (family : IpFamilyAllocator f) (h : g ≠ f) :
    (allocator.set f family).get g = allocator.get g := by
  cases f <;> cases g <;> first | rfl | exact absurd rfl h

@[simp] lemma strategy_set (family : IpFamilyAllocator f) :
    (allocator.set f family).strategy = allocator.strategy := by
  cases f <;> rfl

/-- The used addresses of a family, none where it is disabled. -/
def used (allocator : CidrIpAllocator) (f : Family) : Finset Nat :=
  ((allocator.get f).map (·.used)).getD ∅

/-- Every cursor is inside its prefix. -/
def Valid (allocator : CidrIpAllocator) : Prop :=
  ∀ f family, allocator.get f = some family → family.range.network ≤ family.prev

/-- The address may be handed out. -/
def Offers (allocator : CidrIpAllocator) (ip : IpAddr) : Prop :=
  ∃ family, allocator.get ip.family = some family ∧
    family.Offers (tailscaleReserved ip.family) ip.value

/-- The allocator after it has handed out the address. -/
def takes (allocator : CidrIpAllocator) (ip : IpAddr) : CidrIpAllocator :=
  match allocator.get ip.family with
  | some family => allocator.set ip.family (family.take ip.value)
  | none => allocator

/-- All addresses of the family are used or reserved. -/
def Full (allocator : CidrIpAllocator) (f : Family) : Prop :=
  ∃ family, allocator.get f = some family ∧ ∀ value, family.range.network ≤ value →
    value ≤ family.range.last → value ∈ family.used ∨ tailscaleReserved f value = true

variable {result : Except AllocError IpAddr}

/-- An allocation in one family takes the address it returns, and nothing when it fails. -/
theorem allocateIn_cases (hvalid : allocator.Valid) {family : IpFamilyAllocator f} {draws : Draws}
    (hget : allocator.get f = some family)
    (h : allocator.allocateIn family draws = some (result, allocator')) :
    (∃ ip, result = .ok ip ∧ ip.family = f ∧ allocator.Offers ip ∧ allocator' = allocator.takes ip) ∨
    ∃ error, result = .error error ∧ allocator' = allocator ∧
      (allocator.strategy = .random → error = .exhausted → allocator.Full f) := by
  obtain ⟨outcome, houtcome, hresult⟩ := map_eq_some_iff.mp h
  cases outcome with
  | error error =>
    cases hresult
    refine .inr ⟨error, rfl, rfl, fun hstrategy hexhausted => ⟨family, hget, ?_⟩⟩
    rw [hstrategy, hexhausted] at houtcome
    exact fun value => IpFamilyAllocator.allocateRandom_exhausted houtcome
  | ok taken =>
    obtain ⟨value, family'⟩ := taken
    cases hresult
    obtain ⟨hoffers, rfl⟩ := IpFamilyAllocator.allocate_ok (hvalid f family hget) houtcome
    obtain ⟨ip, rfl, rfl, hip⟩ : ∃ ip : IpAddr, ip.family = f ∧ ip.value = value ∧
        IpAddr.ofNat f value = ip :=
      ⟨_, IpAddr.family_ofNat f value,
        IpAddr.value_ofNat (Nat.lt_of_le_of_lt hoffers.le_last family.range.last_lt), rfl⟩
    refine .inl ⟨ip, by rw [hip], rfl, ⟨family, hget, hoffers⟩, ?_⟩
    simp only [takes, hget]

/-! ### What a call does -/

variable {ip : IpAddr}

lemma get_takes {family : IpFamilyAllocator ip.family}
    (hget : allocator.get ip.family = some family) :
    (allocator.takes ip).get ip.family = some (family.take ip.value) := by
  simp [takes, hget]

lemma get_takes_of_ne (h : f ≠ ip.family) : (allocator.takes ip).get f = allocator.get f := by
  unfold takes
  split
  · exact get_set_of_ne _ h
  · rfl

lemma strategy_takes (ip : IpAddr) : (allocator.takes ip).strategy = allocator.strategy := by
  unfold takes
  split
  · exact strategy_set _
  · rfl

/-- The addresses that a call takes are offered and of different families. It hands out what it
takes, but for a pair that is not complete. -/
structure Allocation (allocator : CidrIpAllocator) (call : Call) (reply : Reply)
    (allocator' : CidrIpAllocator) (taken : List IpAddr) : Prop where
  after : allocator' = taken.foldl takes allocator
  offered : ∀ ip ∈ taken, allocator.Offers ip
  families : (taken.map (·.family)).Nodup
  released : call.released = []
  handed : reply.handed = if allocator.leaks call then [] else taken
  leaked : allocator.leaks call = true → taken ≠ [] ∧ reply.IsError
  refused : reply.IsError → allocator.leaks call = false → taken = []
  exhausted : allocator.strategy = .random → ∀ f, reply.Exhausts f → allocator.Full f

lemma allocateIpv4Inner_cases (hvalid : allocator.Valid) {draws : Draws}
    (h : allocator.allocateIpv4Inner draws = some (result, allocator')) :
    (∃ ip, result = .ok ip ∧ ip.family = .v4 ∧ allocator.Offers ip ∧
      allocator' = allocator.takes ip) ∨
    ∃ error, result = .error error ∧ allocator' = allocator ∧
      (allocator.strategy = .random → error = .exhausted → allocator.Full .v4) := by
  unfold allocateIpv4Inner at h
  split at h
  · cases h
    exact .inr ⟨_, rfl, rfl, fun _ h => by cases h⟩
  · exact allocateIn_cases hvalid ‹_› h

lemma allocateIpv6Inner_cases (hvalid : allocator.Valid) {draws : Draws}
    {result : Except AllocError (Option IpAddr)}
    (h : allocator.allocateIpv6Inner draws = some (result, allocator')) :
    (result = .ok none ∧ allocator' = allocator) ∨
    (∃ ip, result = .ok (some ip) ∧ ip.family = .v6 ∧ allocator.Offers ip ∧
      allocator' = allocator.takes ip) ∨
    ∃ error, result = .error error ∧ allocator' = allocator ∧
      (allocator.strategy = .random → error = .exhausted → allocator.Full .v6) := by
  unfold allocateIpv6Inner at h
  split at h
  · simp only [Option.some.injEq, Prod.mk.injEq] at h
    exact .inl ⟨h.1.symm, h.2.symm⟩
  obtain ⟨⟨result', allocator''⟩, hin, hresult⟩ := map_eq_some_iff.mp h
  cases hresult
  refine .inr ?_
  obtain ⟨ip, rfl, hip⟩ | ⟨error, rfl, hfailed⟩ := allocateIn_cases hvalid ‹_› hin
  · exact .inl ⟨ip, rfl, hip⟩
  · exact .inr ⟨error, rfl, hfailed⟩

lemma Valid.takes (hvalid : allocator.Valid) (hoffers : allocator.Offers ip) :
    (allocator.takes ip).Valid := by
  obtain ⟨family, hget, hoffers⟩ := hoffers
  intro f family' hfamily'
  by_cases hf : f = ip.family
  · subst hf
    rw [get_takes hget] at hfamily'
    cases hfamily'
    exact hoffers.network_le
  · rw [get_takes_of_ne hf] at hfamily'
    exact hvalid f family' hfamily'

/-- Taking an address of one family leaves the other one as it was. -/
theorem offers_takes {ip other : IpAddr} (h : other.family ≠ ip.family) :
    (allocator.takes ip).Offers other ↔ allocator.Offers other := by
  unfold Offers
  rw [get_takes_of_ne h]

lemma full_takes (h : f ≠ ip.family) : (allocator.takes ip).Full f ↔ allocator.Full f := by
  unfold Full
  rw [get_takes_of_ne h]

lemma fst_allocateIpv6Inner_takes (h : ip.family = .v4) (draws : Draws) :
    ((allocator.takes ip).allocateIpv6Inner draws).map Prod.fst =
      (allocator.allocateIpv6Inner draws).map Prod.fst := by
  have hget : (allocator.takes ip).ipv6 = allocator.ipv6 :=
    get_takes_of_ne (show Family.v6 ≠ ip.family by simp [h])
  unfold allocateIpv6Inner
  rw [hget]
  split
  · rfl
  simp only [allocateIn, strategy_takes, Option.map_map]
  congr 1
  funext outcome
  cases outcome <;> rfl

variable (change : Finset Nat → Finset Nat) {reply : Reply}

lemma Allocation.ok {call : Call} (taken : List IpAddr)
    (hoffered : ∀ ip ∈ taken, allocator.Offers ip) (hfamilies : (taken.map (·.family)).Nodup)
    (hreleased : call.released = []) (hhanded : reply.handed = taken)
    (hleaks : allocator.leaks call = false) (hok : ¬ reply.IsError) :
    Allocation allocator call reply (taken.foldl CidrIpAllocator.takes allocator) taken where
  after := rfl
  offered := hoffered
  families := hfamilies
  released := hreleased
  handed := by rw [hleaks, if_neg (by simp), hhanded]
  leaked h := by simp [hleaks] at h
  refused h := absurd h hok
  exhausted _ f h := by obtain rfl | rfl := h <;> exact absurd trivial hok

lemma Allocation.failed {call : Call} {error : AllocError}
    (hreply : reply = .failed f error ∨ reply = .pairFailed ⟨f, error⟩)
    (hreleased : call.released = []) (hleaks : allocator.leaks call = false)
    (hfull : allocator.strategy = .random → error = .exhausted → allocator.Full f) :
    Allocation allocator call reply allocator [] where
  after := rfl
  offered := by simp
  families := by simp
  released := hreleased
  handed := by obtain rfl | rfl := hreply <;> simp [Reply.handed]
  leaked h := by simp [hleaks] at h
  refused _ _ := rfl
  exhausted hstrategy g h := by
    obtain rfl | rfl := hreply <;> obtain h | h := h <;> cases h <;> exact hfull hstrategy rfl

/-- The result and the state after a pair is asked for, by what the two families give. -/
theorem allocateAddresses_cases {draws4 draws6 : Draws}
    {result : Except PairError (Option IpAddr × Option IpAddr)}
    (h : allocator.allocateAddresses draws4 draws6 = some (result, allocator')) :
    (allocator.ipv4 = none ∧
      ∃ ipv6, allocator.allocateIpv6Inner draws6 = some (ipv6, allocator') ∧
        result = (ipv6.map fun ip => (none, ip)).mapError fun error => ⟨.v6, error⟩) ∨
    (∃ error, allocator.allocateIpv4Inner draws4 = some (.error error, allocator') ∧
      result = .error ⟨.v4, error⟩) ∨
    ∃ ipv4 mid ipv6, allocator.allocateIpv4Inner draws4 = some (.ok ipv4, mid) ∧
      mid.allocateIpv6Inner draws6 = some (ipv6, allocator') ∧
      result = (ipv6.map fun ip => (some ipv4, ip)).mapError fun error => ⟨.v6, error⟩ := by
  obtain ⟨⟨first, mid⟩, hfirst, h⟩ := bind_eq_some_iff.mp h
  unfold allocateEnabledIpv4 at hfirst
  by_cases hipv4 : allocator.ipv4.isSome = true
  · rw [if_pos hipv4] at hfirst
    obtain ⟨⟨ipv4, mid'⟩, hinner, heq⟩ := map_eq_some_iff.mp hfirst
    simp only [Prod.mk.injEq] at heq
    obtain ⟨rfl, rfl⟩ := heq
    cases ipv4 with
    | error error =>
      obtain ⟨rfl, rfl⟩ := h
      exact .inr (.inl ⟨error, hinner, rfl⟩)
    | ok ipv4 =>
      obtain ⟨⟨ipv6, after⟩, hinner6, h⟩ := bind_eq_some_iff.mp h
      refine .inr (.inr ⟨ipv4, mid', ipv6, hinner, ?_⟩)
      cases ipv6 <;> cases h <;> exact ⟨hinner6, rfl⟩
  · rw [if_neg hipv4] at hfirst
    cases hfirst
    obtain ⟨⟨ipv6, after⟩, hinner6, h⟩ := bind_eq_some_iff.mp h
    refine .inl ⟨by simpa using hipv4, ipv6, ?_⟩
    cases ipv6 <;> cases h <;> exact ⟨hinner6, rfl⟩

lemma run_allocation (hvalid : allocator.Valid) {call : Call}
    (h : allocator.run call = some (reply, allocator')) :
    (∃ ipv4 ipv6, call = .releaseAddresses ipv4 ipv6 ∧ reply = .released ∧
      allocator' = allocator.releaseAddresses ipv4 ipv6) ∨
    ∃ taken, Allocation allocator call reply allocator' taken := by
  cases call with
  | releaseAddresses ipv4 ipv6 =>
    simp only [run, Option.some.injEq, Prod.mk.injEq] at h
    exact .inl ⟨ipv4, ipv6, rfl, h.1.symm, h.2.symm⟩
  | allocate draws =>
    refine .inr ?_
    obtain ⟨⟨result, after⟩, hinner, hreply⟩ := map_eq_some_iff.mp h
    obtain ⟨ip, rfl, hfamily, hoffers, rfl⟩ | ⟨error, rfl, rfl, hfull⟩ :=
      allocateIpv4Inner_cases hvalid hinner
    all_goals cases hreply
    · exact ⟨_, .ok [ip] (by simpa using hoffers) (by simp) rfl rfl rfl nofun⟩
    · exact ⟨[], .failed (.inl rfl) rfl rfl hfull⟩
  | allocateIpv6 draws =>
    refine .inr ?_
    obtain ⟨⟨result, after⟩, hinner, hreply⟩ := map_eq_some_iff.mp h
    obtain ⟨rfl, rfl⟩ | ⟨ip, rfl, hfamily, hoffers, rfl⟩ | ⟨error, rfl, rfl, hfull⟩ :=
      allocateIpv6Inner_cases hvalid hinner
    all_goals cases hreply
    · exact ⟨_, .ok [] (by simp) (by simp) rfl rfl rfl nofun⟩
    · exact ⟨_, .ok [ip] (by simpa using hoffers) (by simp) rfl rfl rfl nofun⟩
    · exact ⟨[], .failed (.inl rfl) rfl rfl hfull⟩
  | allocateAddresses draws4 draws6 =>
    refine .inr ?_
    obtain ⟨⟨result, after⟩, hpair, hreply⟩ := map_eq_some_iff.mp h
    obtain ⟨hnone, ipv6, hinner6, rfl⟩ | ⟨error, hinner4, rfl⟩ | ⟨ip, mid, ipv6, hinner4, hinner6, rfl⟩ :=
      allocateAddresses_cases hpair
    · -- IPv4 is disabled, and the pair is one of IPv6
      have hleaks : allocator.leaks (.allocateAddresses draws4 draws6) = false := by
        simp [leaks, allocateIpv4Inner, hnone]
      obtain ⟨rfl, rfl⟩ | ⟨ip, rfl, hfamily, hoffers, rfl⟩ | ⟨error, rfl, rfl, hfull⟩ :=
        allocateIpv6Inner_cases hvalid hinner6
      all_goals cases hreply
      · exact ⟨_, .ok [] (by simp) (by simp) rfl rfl hleaks nofun⟩
      · exact ⟨_, .ok [ip] (by simpa using hoffers) (by simp) rfl rfl hleaks nofun⟩
      · exact ⟨[], .failed (.inr rfl) rfl hleaks hfull⟩
    · have hleaks : allocator.leaks (.allocateAddresses draws4 draws6) = false := by
        simp [leaks, hinner4]
      obtain ⟨ip, herror, -⟩ | ⟨error, herror, rfl, hfull⟩ := allocateIpv4Inner_cases hvalid hinner4
      · cases herror
      · obtain rfl := Except.error.inj herror
        cases hreply
        exact ⟨[], .failed (.inr rfl) rfl hleaks hfull⟩
    · obtain ⟨ip, hok, hfamily, hoffers, rfl⟩ | ⟨error, herror, -⟩ :=
        allocateIpv4Inner_cases hvalid hinner4
      · cases hok
        have hother : Family.v6 ≠ ip.family := by simp [hfamily]
        -- the IPv6 half does not depend on the IPv4 address that was taken before
        obtain ⟨⟨ipv6', after6⟩, hbefore, hsame⟩ : ∃ before,
            allocator.allocateIpv6Inner draws6 = some before ∧ before.1 = ipv6 := by
          refine map_eq_some_iff.mp ?_
          rw [← fst_allocateIpv6Inner_takes hfamily, hinner6]
          rfl
        obtain rfl : ipv6' = ipv6 := hsame
        obtain ⟨rfl, rfl⟩ | ⟨ip6, rfl, hfamily6, hoffers6, rfl⟩ | ⟨error, rfl, rfl, hfull⟩ :=
          allocateIpv6Inner_cases (hvalid.takes hoffers) hinner6
        all_goals cases hreply
        · exact ⟨_, .ok [ip] (by simpa using hoffers) (by simp) rfl rfl
            (by simp [leaks, hbefore]) nofun⟩
        · rw [offers_takes (hfamily6 ▸ hother)] at hoffers6
          refine ⟨_, .ok [ip, ip6] ?_ ?_ rfl rfl (by simp [leaks, hbefore]) nofun⟩
          · simpa using ⟨hoffers, hoffers6⟩
          · simp [hfamily, hfamily6]
        · have hleaks : allocator.leaks (.allocateAddresses draws4 draws6) = true := by
            simp [leaks, hinner4, hbefore]
          refine ⟨[ip], rfl, by simpa using hoffers, by simp, rfl, ?_, ?_, ?_, ?_⟩
          · rw [if_pos hleaks]
            rfl
          · exact fun _ => ⟨by simp, trivial⟩
          · intro _ h
            simp [hleaks] at h
          · intro hstrategy f hexhausts
            obtain h | h := hexhausts <;> cases h
            exact (full_takes hother).mp (hfull (by rw [strategy_takes, hstrategy]) rfl)
      · cases herror

/-! ### The used sets -/

/-- The configured prefix of a family. -/
def range (allocator : CidrIpAllocator) (f : Family) : Option (AddrRange f) :=
  (allocator.get f).map (·.range)

lemma get_modifyUsed :
    (allocator.modifyUsed f change).get f =
      (allocator.get f).map fun family => { family with used := change family.used } := by
  unfold modifyUsed
  split
  all_goals
    rename_i hget
    simp [hget]

lemma get_modifyUsed_of_ne (h : g ≠ f) :
    (allocator.modifyUsed f change).get g = allocator.get g := by
  unfold modifyUsed
  split
  · exact get_set_of_ne _ h
  · rfl

lemma range_modifyUsed : (allocator.modifyUsed f change).range g = allocator.range g := by
  by_cases h : g = f
  · subst h
    unfold range
    rw [get_modifyUsed, Option.map_map]
    rfl
  · unfold range
    rw [get_modifyUsed_of_ne change h]

lemma Valid.modifyUsed (hvalid : allocator.Valid) (change : Finset Nat → Finset Nat) :
    (allocator.modifyUsed f change).Valid := by
  intro g family hget
  by_cases h : g = f
  · subst h
    rw [get_modifyUsed] at hget
    obtain ⟨family', hget', rfl⟩ := map_eq_some_iff.mp hget
    exact hvalid g family' hget'
  · rw [get_modifyUsed_of_ne change h] at hget
    exact hvalid g family hget

lemma range_takes (ip : IpAddr) : (allocator.takes ip).range f = allocator.range f := by
  unfold takes
  split
  · rename_i family hget
    by_cases h : f = ip.family
    · subst h
      unfold range
      rw [get_set, hget]
      rfl
    · unfold range
      rw [get_set_of_ne _ h]
  · rfl

end CidrIpAllocator

/-- The addresses of a family among the given ones, as numbers. -/
def valuesOf (f : Family) (ips : List IpAddr) : Finset Nat :=
  ((ips.filter fun ip => ip.family = f).map (·.value)).toFinset

lemma mem_valuesOf {f : Family} {value : Nat} :
    value ∈ valuesOf f ips ↔ ∃ ip ∈ ips, ip.family = f ∧ ip.value = value := by
  simp [valuesOf, and_assoc]

lemma valuesOf_append (f : Family) (left right : List IpAddr) :
    valuesOf f (left ++ right) = valuesOf f left ∪ valuesOf f right := by
  simp [valuesOf]

lemma value_mem_valuesOf {ip : IpAddr} :
    ip.value ∈ valuesOf ip.family ips ↔ ip ∈ ips := by
  rw [mem_valuesOf]
  constructor
  · rintro ⟨other, hmem, hfamily, hvalue⟩
    rwa [← IpAddr.ext_value hfamily hvalue]
  · exact fun h => ⟨ip, h, rfl, rfl⟩

namespace CidrIpAllocator

variable {allocator allocator' : CidrIpAllocator} {f g : Family}

lemma used_takes {ip : IpAddr} (henabled : (allocator.get ip.family).isSome = true) :
    (allocator.takes ip).used f = allocator.used f ∪ valuesOf f [ip] := by
  obtain ⟨family, hget⟩ := isSome_iff_exists.mp henabled
  by_cases h : f = ip.family
  · subst h
    ext value
    simp only [used, get_takes hget, IpFamilyAllocator.take, Finset.mem_union, mem_valuesOf]
    grind
  · ext value
    simp only [used, get_takes_of_ne h, Finset.mem_union, mem_valuesOf]
    grind

variable {cidr : String} {call : Call} {taken : List IpAddr}

lemma used_foldl_takes (henabled : ∀ ip ∈ taken, (allocator.get ip.family).isSome = true) :
    (taken.foldl takes allocator).used f = allocator.used f ∪ valuesOf f taken := by
  induction taken generalizing allocator with
  | nil => simp [valuesOf]
  | cons ip taken ih =>
    obtain ⟨hip, htaken⟩ := List.forall_mem_cons.mp henabled
    have hrange : ∀ g, ((allocator.takes ip).get g).isSome = (allocator.get g).isSome := by
      intro g
      simpa [range] using congrArg Option.isSome (range_takes ip)
    rw [List.foldl_cons, ih fun other hother => (hrange _).trans (htaken other hother),
      used_takes hip, Finset.union_assoc]
    ext value
    simp [mem_valuesOf]

lemma used_erase (ip : IpAddr) :
    (allocator.modifyUsed ip.family (·.erase ip.value)).used f =
      allocator.used f \ valuesOf f [ip] := by
  by_cases h : f = ip.family
  · subst h
    ext value
    simp only [used, get_modifyUsed, Finset.mem_sdiff, mem_valuesOf]
    cases allocator.get ip.family with
    | none => simp
    | some family =>
      grind
  · ext value
    simp only [used, get_modifyUsed_of_ne _ h, Finset.mem_sdiff, mem_valuesOf]
    grind

variable (ipv4 : Option (Fin (2 ^ 32))) (ipv6 : Option (Fin (2 ^ 128)))

/-- What is released is released one address after the other. -/
theorem releaseAddresses_eq_foldl :
    allocator.releaseAddresses ipv4 ipv6 =
      (Call.releaseAddresses ipv4 ipv6).released.foldl
        (fun allocator ip => allocator.modifyUsed ip.family (·.erase ip.value)) allocator := by
  cases ipv4 <;> cases ipv6 <;> rfl

lemma used_foldl_erase (ips : List IpAddr) :
    (ips.foldl (fun allocator ip => allocator.modifyUsed ip.family (·.erase ip.value))
      allocator).used f = allocator.used f \ valuesOf f ips := by
  induction ips generalizing allocator with
  | nil => simp [valuesOf]
  | cons ip ips ih =>
    rw [List.foldl_cons, ih, used_erase, sdiff_sdiff_left]
    ext value
    simp [mem_valuesOf]

lemma used_releaseAddresses :
    (allocator.releaseAddresses ipv4 ipv6).used f =
      allocator.used f \ valuesOf f (Call.releaseAddresses ipv4 ipv6).released := by
  rw [releaseAddresses_eq_foldl, used_foldl_erase]

lemma Valid.foldl_takes (hvalid : allocator.Valid)
    (hoffered : ∀ ip ∈ taken, allocator.Offers ip) (hfamilies : (taken.map (·.family)).Nodup) :
    (taken.foldl CidrIpAllocator.takes allocator).Valid := by
  induction taken generalizing allocator with
  | nil => exact hvalid
  | cons ip taken ih =>
    obtain ⟨hip, htaken⟩ := List.forall_mem_cons.mp hoffered
    obtain ⟨hnot, hnodup⟩ := List.nodup_cons.mp hfamilies
    refine ih (hvalid.takes hip) (fun other hother => ?_) hnodup
    have hother' : other.family ≠ ip.family := fun h => hnot (List.mem_map.mpr ⟨other, hother, h⟩)
    exact (offers_takes hother').mpr (htaken other hother)

lemma Valid.foldl_erase (hvalid : allocator.Valid) (ips : List IpAddr) :
    (ips.foldl (fun allocator ip => allocator.modifyUsed ip.family (·.erase ip.value))
      allocator).Valid := by
  induction ips generalizing allocator with
  | nil => exact hvalid
  | cons ip ips ih => exact ih (hvalid.modifyUsed _)

lemma range_foldl {step : CidrIpAllocator → IpAddr → CidrIpAllocator}
    (hstep : ∀ allocator ip, (step allocator ip).range f = allocator.range f) (ips : List IpAddr) :
    (ips.foldl step allocator).range f = allocator.range f := by
  induction ips generalizing allocator with
  | nil => rfl
  | cons ip ips ih => rw [List.foldl_cons, ih, hstep]

variable {reply : Reply}

lemma valid_run (hvalid : allocator.Valid) (h : allocator.run call = some (reply, allocator')) :
    allocator'.Valid ∧ ∀ f, allocator'.range f = allocator.range f := by
  obtain ⟨ipv4, ipv6, rfl, rfl, rfl⟩ | ⟨taken, hcall⟩ := run_allocation hvalid h
  · rw [releaseAddresses_eq_foldl]
    exact ⟨hvalid.foldl_erase _, fun f => range_foldl (fun _ _ => range_modifyUsed _) _⟩
  · rw [hcall.after]
    exact ⟨hvalid.foldl_takes hcall.offered hcall.families,
      fun f => range_foldl (fun _ => range_takes) _⟩

/-- What a call does: it takes some addresses that are offered, and releases others. -/
structure Effect (allocator : CidrIpAllocator) (call : Call) (reply : Reply)
    (allocator' : CidrIpAllocator) (taken : List IpAddr) : Prop where
  offered : ∀ ip ∈ taken, allocator.Offers ip
  handed : reply.handed = if allocator.leaks call then [] else taken
  leaked : allocator.leaks call = true → taken ≠ [] ∧ call.released = []
  used : ∀ f, allocator'.used f = (allocator.used f ∪ valuesOf f taken) \ valuesOf f call.released
  released : call.released ≠ [] → reply.handed = []
  refused : reply.IsError → call.released = [] ∧ (allocator.leaks call = false → taken = [])
  exhausted : allocator.strategy = .random → ∀ f, reply.Exhausts f → allocator.Full f

lemma Effect.handed_of_leak_free (h : Effect allocator call reply allocator' taken)
    (hleaks : allocator.leaks call = false) : reply.handed = taken := by
  rw [h.handed, hleaks]
  rfl

lemma Effect.taken_of_handed {ip : IpAddr} (h : Effect allocator call reply allocator' taken)
    (hip : ip ∈ reply.handed) : ip ∈ taken := by
  rw [h.handed] at hip
  split at hip
  · cases hip
  · exact hip

lemma run_effect (hvalid : allocator.Valid) (h : allocator.run call = some (reply, allocator')) :
    ∃ taken, Effect allocator call reply allocator' taken := by
  obtain ⟨ipv4, ipv6, rfl, rfl, rfl⟩ | ⟨taken, hcall⟩ := run_allocation hvalid h
  · refine ⟨[], by simp, by simp [Reply.handed], by simp [leaks], fun f => ?_, fun _ => rfl,
      nofun, ?_⟩
    · rw [used_releaseAddresses]
      simp [valuesOf]
    · rintro - f (h | h) <;> cases h
  · refine ⟨taken, hcall.offered, hcall.handed, fun h => ⟨(hcall.leaked h).1, hcall.released⟩, ?_,
      fun h => absurd hcall.released h, fun h => ⟨hcall.released, hcall.refused h⟩, hcall.exhausted⟩
    intro f
    have henabled : ∀ ip ∈ taken, (allocator.get ip.family).isSome = true := by
      intro ip hip
      obtain ⟨family, hget, -⟩ := hcall.offered ip hip
      simp [hget]
    rw [hcall.after, used_foldl_takes henabled, hcall.released]
    simp [valuesOf]

/-! ### Construction -/

lemma parseCidr_ok {family : IpFamilyAllocator f} (h : parseCidr f cidr = .ok family) :
    ∃ range, family = .new range := by
  unfold parseCidr at h
  split at h
  · cases h
  · split at h
    · exact ⟨_, (Except.ok.inj h).symm⟩
    · cases h

lemma parseEnabledCidr_ok {family : IpFamilyAllocator f}
    (h : parseEnabledCidr f cidr = .ok (some family)) : ∃ range, family = .new range := by
  unfold parseEnabledCidr at h
  split at h
  · cases h
  cases hparse : parseCidr f cidr with
  | error error => simp [hparse, Except.map] at h
  | ok parsed =>
    simp only [hparse, Except.map, Except.ok.injEq, Option.some.injEq] at h
    exact h ▸ parseCidr_ok hparse

/-- The families of a new allocator have used their ends only. -/
theorem fromCidrs_ok {cidrV6 : Option String} {strategy : IpAllocationStrategy}
    (h : fromCidrsWithStrategy cidr cidrV6 strategy = .ok allocator)
    {family : IpFamilyAllocator f} (hget : allocator.get f = some family) :
    ∃ range, family = .new range := by
  unfold fromCidrsWithStrategy at h
  cases h4 : parseEnabledCidr .v4 cidr with
  | error error =>
    rw [h4] at h
    cases h
  | ok ipv4 =>
    cases h6 : parseEnabledCidr .v6 (cidrV6.getD "") with
    | error error =>
      rw [h4, h6] at h
      cases h
    | ok ipv6 =>
      simp only [h4, h6, bind, Except.bind] at h
      split at h <;> cases h
      cases f with
      | v4 => exact parseEnabledCidr_ok (h4.trans (congrArg Except.ok hget))
      | v6 => exact parseEnabledCidr_ok (h6.trans (congrArg Except.ok hget))

lemma used_insert (ip : IpAddr) :
    (allocator.modifyUsed ip.family (insert ip.value)).used f =
      if (allocator.get f).isSome then allocator.used f ∪ valuesOf f [ip] else ∅ := by
  by_cases h : f = ip.family
  · subst h
    ext value
    simp only [used, get_modifyUsed]
    cases allocator.get ip.family with
    | none => simp
    | some family =>
      simp only [isSome_some, if_true, Finset.mem_union, mem_valuesOf]
      grind
  · ext value
    simp only [used, get_modifyUsed_of_ne _ h]
    cases allocator.get f with
    | none => simp
    | some family =>
      simp only [isSome_some, if_true, Finset.mem_union, mem_valuesOf]
      grind

lemma isSome_get : (allocator.get f).isSome = (allocator.range f).isSome := by
  simp [range]

lemma used_of_disabled (h : (allocator.get f).isSome = false) : allocator.used f = ∅ := by
  rw [isSome_eq_false_iff, isNone_iff_eq_none] at h
  simp [used, h]

/-- Seeding adds the addresses of the texts to the families that are enabled. -/
theorem seed_ok {texts : List String} (h : texts.foldlM seedText allocator = .ok allocator') :
    (allocator.Valid → allocator'.Valid) ∧ (∀ f, allocator'.range f = allocator.range f) ∧
      ∀ f, allocator'.used f =
        if (allocator.get f).isSome then
          allocator.used f ∪ valuesOf f (texts.filterMap fun text =>
            (parseAddr text).toOption.map (·.1))
        else ∅ := by
  induction texts generalizing allocator with
  | nil =>
    obtain rfl := Except.ok.inj h
    refine ⟨id, fun _ => rfl, fun f => ?_⟩
    cases henabled : (allocator.get f).isSome with
    | true => simp [valuesOf]
    | false => simpa using used_of_disabled henabled
  | cons text texts ih =>
    rw [List.foldlM_cons] at h
    cases hparse : parseAddr text with
    | error error =>
      simp only [seedText, hparse] at h
      cases h
    | ok parsed =>
      simp only [seedText, hparse] at h
      obtain ⟨hvalid, hrange, hused⟩ := ih h
      refine ⟨fun hv => hvalid (hv.modifyUsed _), fun f => (hrange f).trans (range_modifyUsed _),
        fun f => ?_⟩
      rw [hused f, isSome_get, range_modifyUsed, ← isSome_get, used_insert]
      cases (allocator.get f).isSome with
      | false => rfl
      | true =>
        ext value
        simp [mem_valuesOf, hparse, Except.toOption]

end CidrIpAllocator

end Headscale.Ipam
