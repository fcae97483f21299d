import Headscale.Ipam.CallSpecs
import Headscale.Lib.Machine

/-!
# Who holds which address

The allocator is one state machine with its callers: beside the used sets, a state counts the holders
of every address and keeps the set that each used set should be, the initial one with what was handed
out added and what was given back taken away.

Held addresses are used as long as an address is released by its only holder. The converse fails after
a pair call that was not complete: its IPv4 address stays used, and nobody holds it. The ends of a
prefix are protected by the used sets alone, and so only as long as no node that has one is deleted.
-/

namespace Headscale.Ipam

open GoNetip Machine CidrIpAllocator IpAddr

/-! ## The system -/

/-- The allocator and what is known of its callers. -/
structure Pool where
  allocator : CidrIpAllocator
  /-- How many hold an address, whether it was found in the database or handed out. -/
  holders : IpAddr → Nat
  /-- The addresses that should be used. -/
  ledger : Family → Finset Nat
  /-- The prefixes as they were configured. -/
  configured : (f : Family) → Option (AddrRange f)

/-- The addresses found in the database. -/
def seededAddrs (rows : List ExistingNodeIpAddresses) : List IpAddr :=
  (rows.filterMap (·.ipv4) ++ rows.filterMap (·.ipv6)).filterMap fun text =>
    (parseAddr text).toOption.map (·.1)

/-- The ends of the prefix and the addresses found in the database, for an enabled family. -/
def initialUsed (allocator : CidrIpAllocator) (rows : List ExistingNodeIpAddresses) (f : Family) :
    Finset Nat :=
  match allocator.range f with
  | some range => {range.network, range.last} ∪ valuesOf f (seededAddrs rows)
  | none => ∅

def Pool.start (allocator : CidrIpAllocator) (rows : List ExistingNodeIpAddresses) : Pool :=
  { allocator := allocator
    holders := fun ip => (seededAddrs rows).count ip
    ledger := initialUsed allocator rows
    configured := allocator.range }

def Pool.after (pool : Pool) (call : Call) (reply : Reply) (allocator : CidrIpAllocator) : Pool :=
  { pool with
    allocator := allocator
    holders := fun ip => pool.holders ip + reply.handed.count ip - call.released.count ip
    ledger := fun f => (pool.ledger f ∪ valuesOf f reply.handed) \ valuesOf f call.released }

open Pool

/-- The steps are calls with their replies. -/
def pools : System Pool (Call × Reply) where
  init pool := ∃ cidr cidrV6 strategy rows allocator,
    fromExistingNodeIps cidr cidrV6 strategy rows = .ok allocator ∧
      pool = start allocator rows
  step pool step pool' := ∃ allocator, pool.allocator.run step.1 = some (step.2, allocator) ∧
    pool' = pool.after step.1 step.2 allocator

lemma start_ok {cidr : String} {cidrV6 : Option String} {strategy : IpAllocationStrategy}
    {rows : List ExistingNodeIpAddresses} {allocator : CidrIpAllocator}
    (h : fromExistingNodeIps cidr cidrV6 strategy rows = .ok allocator) :
    allocator.Valid ∧ ∀ f, allocator.used f = initialUsed allocator rows f := by
  obtain ⟨first, hnew, h⟩ := Result.bind_eq_ok.mp h
  obtain ⟨second, hseed4, hseed6⟩ := Result.bind_eq_ok.mp h
  obtain ⟨hvalid4, hrange4, hused4⟩ := seed_ok hseed4
  obtain ⟨hvalid6, hrange6, hused6⟩ := seed_ok hseed6
  have hfirst : first.Valid := by
    intro f family hget
    obtain ⟨range, rfl⟩ := fromCidrs_ok hnew hget
    exact le_rfl
  refine ⟨hvalid6 (hvalid4 hfirst), fun f => ?_⟩
  rw [hused6, isSome_get, hrange4, hused4, isSome_get, initialUsed,
    hrange6, hrange4]
  cases hget : first.get f with
  | none => simp [CidrIpAllocator.range, hget]
  | some family =>
    obtain ⟨range, rfl⟩ := fromCidrs_ok hnew hget
    have hused : first.used f = {range.network, range.last} := by
      simp [used, hget, IpFamilyAllocator.new]
    have hrange : first.range f = some range := by
      simp [CidrIpAllocator.range, hget, IpFamilyAllocator.new]
    simp only [hused, hrange, Option.isSome_some, if_true, seededAddrs, List.filterMap_append,
      valuesOf_append, Finset.union_assoc]

/-! ## Invariants -/

namespace Pool

/-- Every state: the cursors are inside their prefixes, which never change. -/
structure Sound (pool : Pool) : Prop where
  valid : pool.allocator.Valid
  range : ∀ f, pool.allocator.range f = pool.configured f

/-- Held addresses are used. -/
def Held (pool : Pool) : Prop :=
  ∀ ip, 0 < pool.holders ip → (pool.allocator.range ip.family).isSome = true →
    ip.value ∈ pool.allocator.used ip.family

/-- The address is an end of its prefix. -/
def IsEnd (pool : Pool) (ip : IpAddr) : Prop :=
  ∃ range, pool.configured ip.family = some range ∧ (ip.value = range.network ∨ ip.value = range.last)

/-- Used addresses are held, the ends aside. -/
def Accounted (pool : Pool) : Prop :=
  ∀ ip, ip.value ∈ pool.allocator.used ip.family → pool.IsEnd ip ∨ 0 < pool.holders ip

def EndsUsed (pool : Pool) : Prop :=
  ∀ ip, pool.IsEnd ip → ip.value ∈ pool.allocator.used ip.family

def Balanced (pool : Pool) : Prop := ∀ f, pool.allocator.used f = pool.ledger f

/-- Only addresses with a single holder are released. -/
def SoleRelease (pool : Pool) (step : Call × Reply) (_ : Pool) : Prop :=
  ∀ ip ∈ step.1.released, pool.holders ip = 1

/-- Only held addresses are released. -/
def HeldRelease (pool : Pool) (step : Call × Reply) (_ : Pool) : Prop :=
  ∀ ip ∈ step.1.released, 0 < pool.holders ip

/-- No end of a prefix is released. -/
def EndsKept (pool : Pool) (step : Call × Reply) (_ : Pool) : Prop :=
  ∀ ip ∈ step.1.released, ¬ pool.IsEnd ip

/-- No address is lost with a pair that is not complete. -/
def LeakFree (pool : Pool) (step : Call × Reply) (_ : Pool) : Prop :=
  pool.allocator.leaks step.1 = false

variable {pool pool' : Pool} {call : Call} {reply : Reply}

lemma Sound.init (h : pools.init pool) : pool.Sound := by
  obtain ⟨cidr, cidrV6, strategy, rows, allocator, hstart, rfl⟩ := h
  exact ⟨(start_ok hstart).1, fun _ => rfl⟩

lemma Sound.step (hsound : pool.Sound) (h : pools.step pool (call, reply) pool') : pool'.Sound := by
  obtain ⟨allocator, hrun, rfl⟩ := h
  obtain ⟨hvalid, hrange⟩ := valid_run hsound.valid hrun
  exact ⟨hvalid, fun f => (hrange f).trans (hsound.range f)⟩

lemma sound_of_reachable {allowed : Pool → Call × Reply → Pool → Prop}
    (h : pools.ReachableBy allowed pool) : pool.Sound :=
  h.invariant (fun _ => Sound.init) fun _ _ _ hsound hstep _ => hsound.step hstep

lemma Sound.effect (hsound : pool.Sound) (h : pools.step pool (call, reply) pool') :
    ∃ taken, CidrIpAllocator.Effect pool.allocator call reply pool'.allocator taken := by
  obtain ⟨allocator, hrun, rfl⟩ := h
  exact run_effect hsound.valid hrun

lemma holders_step (h : pools.step pool (call, reply) pool') (ip : IpAddr) :
    pool'.holders ip = pool.holders ip + reply.handed.count ip - call.released.count ip := by
  obtain ⟨allocator, -, rfl⟩ := h
  rfl

lemma ledger_step (h : pools.step pool (call, reply) pool') (f : Family) :
    pool'.ledger f = (pool.ledger f ∪ valuesOf f reply.handed) \ valuesOf f call.released := by
  obtain ⟨allocator, -, rfl⟩ := h
  rfl

lemma configured_step (h : pools.step pool (call, reply) pool') :
    pool'.configured = pool.configured := by
  obtain ⟨allocator, -, rfl⟩ := h
  rfl

/-- The address is used after a step exactly if it was used or taken, and is not released. -/
theorem mem_used_step {taken : List IpAddr}
    (heffect : CidrIpAllocator.Effect pool.allocator call reply pool'.allocator taken) (ip : IpAddr) :
    ip.value ∈ pool'.allocator.used ip.family ↔
      (ip.value ∈ pool.allocator.used ip.family ∨ ip ∈ taken) ∧ ip ∉ call.released := by
  rw [heffect.used, Finset.mem_sdiff, Finset.mem_union, value_mem_valuesOf, value_mem_valuesOf]

lemma Held.step (hheld : pool.Held) (hsound : pool.Sound) (h : pools.step pool (call, reply) pool')
    (hsole : pool.SoleRelease (call, reply) pool') : pool'.Held := by
  obtain ⟨taken, heffect⟩ := hsound.effect h
  intro ip hpos henabled
  rw [holders_step h] at hpos
  have hkept : ip ∉ call.released := by
    intro hmem
    have hcount := List.count_pos_iff.mpr hmem
    rw [hsole ip hmem, heffect.released (List.ne_nil_of_mem hmem)] at hpos
    simp only [List.count_nil] at hpos
    omega
  refine (mem_used_step heffect ip).mpr ⟨?_, hkept⟩
  obtain hbefore | hhanded : 0 < pool.holders ip ∨ 0 < reply.handed.count ip := by omega
  · rw [(hsound.step h).range, configured_step h, ← hsound.range] at henabled
    exact .inl (hheld ip hbefore henabled)
  · exact .inr (heffect.taken_of_handed (List.count_pos_iff.mp hhanded))

lemma Accounted.step (haccounted : pool.Accounted) (hsound : pool.Sound)
    (h : pools.step pool (call, reply) pool') (hleaks : pool.LeakFree (call, reply) pool') :
    pool'.Accounted := by
  obtain ⟨taken, heffect⟩ := hsound.effect h
  intro ip hused
  obtain ⟨hbefore, hkept⟩ := (mem_used_step heffect ip).mp hused
  have hcount : call.released.count ip = 0 := List.count_eq_zero.mpr hkept
  rw [IsEnd, configured_step h, holders_step h, hcount, heffect.handed_of_leak_free hleaks]
  obtain hbefore | htaken := hbefore
  · exact (haccounted ip hbefore).imp_right fun hpos => by omega
  · have hpos := List.count_pos_iff.mpr htaken
    exact .inr (by omega)

lemma EndsUsed.step (hends : pool.EndsUsed) (hsound : pool.Sound)
    (h : pools.step pool (call, reply) pool') (hkept : pool.EndsKept (call, reply) pool') :
    pool'.EndsUsed := by
  obtain ⟨taken, heffect⟩ := hsound.effect h
  intro ip hend
  rw [IsEnd, configured_step h] at hend
  exact (mem_used_step heffect ip).mpr ⟨.inl (hends ip hend), fun hmem => hkept ip hmem hend⟩

/-- From a balanced state, a step leads to one exactly if it loses no address. -/
theorem Balanced.step_iff (hbalanced : pool.Balanced) (hsound : pool.Sound)
    (h : pools.step pool (call, reply) pool') :
    pool'.Balanced ↔ pool.LeakFree (call, reply) pool' := by
  obtain ⟨taken, heffect⟩ := hsound.effect h
  constructor
  · intro hafter
    by_contra hleaks
    have hleaks : pool.allocator.leaks call = true := by simpa [LeakFree] using hleaks
    obtain ⟨hne, hreleased⟩ := heffect.leaked hleaks
    obtain ⟨ip, hip⟩ := List.exists_mem_of_ne_nil _ hne
    obtain ⟨family, hget, hoffers⟩ := heffect.offered ip hip
    have hused : ip.value ∈ pool'.allocator.used ip.family :=
      (mem_used_step heffect ip).mpr ⟨.inr hip, by simp [hreleased]⟩
    rw [hafter, ledger_step h, heffect.handed, hleaks, hreleased, ← hbalanced] at hused
    apply hoffers.unused
    simpa [valuesOf, used, hget] using hused
  · intro hleaks f
    rw [heffect.used, ledger_step h, heffect.handed_of_leak_free hleaks, hbalanced f]

/-- A refused call changes the used sets exactly if it loses an address. -/
theorem used_of_error (hsound : pool.Sound) (h : pools.step pool (call, reply) pool')
    (herror : reply.IsError) :
    (∀ f, pool'.allocator.used f = pool.allocator.used f) ↔ pool.LeakFree (call, reply) pool' := by
  obtain ⟨taken, heffect⟩ := hsound.effect h
  obtain ⟨hreleased, hrefused⟩ := heffect.refused herror
  constructor
  · intro hsame
    by_contra hleaks
    have hleaks : pool.allocator.leaks call = true := by simpa [LeakFree] using hleaks
    obtain ⟨ip, hip⟩ := List.exists_mem_of_ne_nil _ (heffect.leaked hleaks).1
    obtain ⟨family, hget, hoffers⟩ := heffect.offered ip hip
    have hused := (mem_used_step heffect ip).mpr ⟨.inr hip, by simp [hreleased]⟩
    rw [hsame] at hused
    apply hoffers.unused
    simpa [used, hget] using hused
  · intro hleaks f
    rw [heffect.used, hreleased, hrefused hleaks]
    simp [valuesOf]

/-! ### Initially -/

lemma used_init (h : pools.init pool) :
    ∃ rows, pool = start pool.allocator rows ∧
      ∀ f, pool.allocator.used f = initialUsed pool.allocator rows f := by
  obtain ⟨cidr, cidrV6, strategy, rows, allocator, hstart, rfl⟩ := h
  exact ⟨rows, rfl, (start_ok hstart).2⟩

lemma mem_initialUsed {allocator : CidrIpAllocator} {rows : List ExistingNodeIpAddresses}
    {ip : IpAddr} :
    ip.value ∈ initialUsed allocator rows ip.family ↔
      ∃ range, allocator.range ip.family = some range ∧
        ((ip.value = range.network ∨ ip.value = range.last) ∨ ip ∈ seededAddrs rows) := by
  unfold initialUsed
  split
  · rename_i range hrange
    simp [hrange, value_mem_valuesOf, or_assoc]
  · rename_i hrange
    simp [hrange]

lemma Held.init (h : pools.init pool) : pool.Held := by
  obtain ⟨rows, hpool, hused⟩ := used_init h
  intro ip hpos henabled
  obtain ⟨range, hrange⟩ := Option.isSome_iff_exists.mp henabled
  rw [hused, mem_initialUsed]
  rw [hpool] at hpos
  exact ⟨range, hrange, .inr (List.count_pos_iff.mp hpos)⟩

lemma Accounted.init (h : pools.init pool) : pool.Accounted := by
  obtain ⟨rows, hpool, hused⟩ := used_init h
  intro ip hmem
  rw [hused, mem_initialUsed] at hmem
  obtain ⟨range, hrange, hend | hseeded⟩ := hmem
  · exact .inl ⟨range, ((Sound.init h).range _).symm.trans hrange, hend⟩
  · rw [hpool]
    exact .inr (List.count_pos_iff.mpr hseeded)

lemma EndsUsed.init (h : pools.init pool) : pool.EndsUsed := by
  obtain ⟨rows, -, hused⟩ := used_init h
  rintro ip ⟨range, hrange, hend⟩
  rw [hused, mem_initialUsed]
  exact ⟨range, ((Sound.init h).range _).trans hrange, .inl hend⟩

lemma Balanced.init (h : pools.init pool) : pool.Balanced := by
  obtain ⟨rows, hpool, hused⟩ := used_init h
  intro f
  rw [hused, hpool]
  rfl

end Pool

/-! ## Runs on fixed prefixes -/

/-- Four addresses, two of which are ends. -/
def smallRange : AddrRange .v4 :=
  ⟨packNat 256 [100, 64, 0, 0], packNat 256 [100, 64, 0, 3], by decide, by decide⟩

/-- A single address. -/
def singleRange : AddrRange .v6 :=
  ⟨packNat 65536 [0xfd7a, 0x115c, 0xa1e0, 0, 0, 0, 0, 0],
    packNat 65536 [0xfd7a, 0x115c, 0xa1e0, 0, 0, 0, 0, 0], by decide, by decide⟩

def smallAllocator : CidrIpAllocator :=
  { ipv4 := some (.new smallRange), ipv6 := some (.new singleRange), strategy := .random }

lemma init_smallAllocator : pools.init (.start smallAllocator []) :=
  ⟨"100.64.0.0/30", some "fd7a:115c:a1e0::/128", .random, [], smallAllocator, by decide +kernel, rfl⟩

/-- The addresses of the small prefix that are not ends. -/
def firstAddr : IpAddr := .v4 ⟨packNat 256 [100, 64, 0, 1], by decide⟩

def secondAddr : IpAddr := .v4 ⟨packNat 256 [100, 64, 0, 2], by decide⟩

/-- A call that has a reply is a step. -/
theorem step_of_run {pool : Pool} {call : Call} {reply : Reply} (allocator : CidrIpAllocator)
    (h : pool.allocator.run call = some (reply, allocator)) :
    pools.step pool (call, reply) (pool.after call reply allocator) :=
  ⟨allocator, h, rfl⟩

/-- The pool after a pair call that got no IPv6 address. -/
def lostPair (pool : Pool) (draw : Nat) (allocator : CidrIpAllocator) : Pool :=
  pool.after (.allocateAddresses [.ok draw] []) (.pairFailed ⟨.v6, .exhausted⟩) allocator

lemma step_lostPair (pool : Pool) (draw : Nat) (allocator : CidrIpAllocator)
    (h : pool.allocator.run (.allocateAddresses [.ok draw] []) =
      some (.pairFailed ⟨.v6, .exhausted⟩, allocator)) :
    pools.step pool (.allocateAddresses [.ok draw] [], .pairFailed ⟨.v6, .exhausted⟩)
      (lostPair pool draw allocator) :=
  step_of_run allocator h

/-! ## Results -/

/-- An address that is handed out is one of the configured prefix, is not reserved, and nobody holds
it. The random strategy reports exhaustion only when every address of the prefix is held, reserved or
an end, in runs that lose no address with a pair. -/
theorem handed_out_addresses_are_free (pool : Pool) :
    (pools.ReachableBy Pool.SoleRelease pool →
      ∀ call reply pool', pools.step pool (call, reply) pool' → ∀ ip ∈ reply.handed,
        (∃ range, pool.configured ip.family = some range ∧ range.network ≤ ip.value ∧
          ip.value ≤ range.last) ∧
        tailscaleReserved ip.family ip.value = false ∧ pool.holders ip = 0) ∧
    (pools.ReachableBy (fun pool step pool' =>
        pool.SoleRelease step pool' ∧ pool.LeakFree step pool') pool →
      ∀ call reply pool', pools.step pool (call, reply) pool' → pool.allocator.strategy = .random →
      ∀ ip range, reply.Exhausts ip.family → pool.configured ip.family = some range →
        range.network ≤ ip.value → ip.value ≤ range.last →
        0 < pool.holders ip ∨ tailscaleReserved ip.family ip.value = true ∨
          ip.value = range.network ∨ ip.value = range.last) := by
  constructor
  · intro hreach call reply pool' hstep ip hip
    have hsound := sound_of_reachable hreach
    have hheld : pool.Held := hreach.invariant_of (fun _ => sound_of_reachable)
      (fun _ => Pool.Held.init) fun _ _ _ hsound hheld hstep hsole => hheld.step hsound hstep hsole
    obtain ⟨taken, heffect⟩ := hsound.effect hstep
    obtain ⟨family, hget, hoffers⟩ := heffect.offered ip (heffect.taken_of_handed hip)
    have hrange : pool.allocator.range ip.family = some family.range := by
      simp [CidrIpAllocator.range, hget]
    refine ⟨⟨family.range, (hsound.range _).symm.trans hrange, hoffers.network_le, hoffers.le_last⟩,
      hoffers.unreserved, ?_⟩
    by_contra hpos
    have hused := hheld ip (Nat.pos_of_ne_zero hpos) (by simp [hrange])
    exact hoffers.unused (by simpa [used, hget] using hused)
  · intro hreach call reply pool' hstep hstrategy ip range hexhausts hconfigured hle hlast
    have hsound := sound_of_reachable hreach
    have haccounted : pool.Accounted := hreach.invariant_of (fun _ => sound_of_reachable)
      (fun _ => Pool.Accounted.init) fun _ _ _ hsound haccounted hstep hallowed =>
        haccounted.step hsound hstep hallowed.2
    obtain ⟨taken, heffect⟩ := hsound.effect hstep
    obtain ⟨family, hget, hfull⟩ := heffect.exhausted hstrategy _ hexhausts
    obtain rfl : family.range = range := by
      have hrange := (hsound.range ip.family).trans hconfigured
      simpa [CidrIpAllocator.range, hget] using hrange
    obtain hused | hreserved := hfull ip.value hle hlast
    · obtain ⟨range', hrange', hend⟩ | hheld :=
        haccounted ip (by simpa [used, hget] using hused)
      · cases hrange'.symm.trans hconfigured
        exact .inr (.inr hend)
      · exact .inl hheld
    · exact .inr (.inl hreserved)

theorem first_addr_unheld_when_handed :
    (start smallAllocator []).holders firstAddr = 0 :=
  ((handed_out_addresses_are_free (.start smallAllocator [])).1 (.init init_smallAllocator)
    (.allocate [.ok 1]) (.address firstAddr) _
    (step_of_run (smallAllocator.takes firstAddr) (by decide +kernel)) firstAddr (by decide)).2.2

/-- Two pair calls fail for want of IPv6 addresses. After that no IPv4 address is left, and nobody has
ever held one. -/
theorem exhausted_and_nobody_holds_any :
    ∃ pool, pools.ReachableBy Pool.SoleRelease pool ∧ pool.allocator.strategy = .random ∧
      (∀ ip, pool.holders ip = 0) ∧ pool.configured .v4 = some smallRange ∧
      ∃ call reply pool', pools.step pool (call, reply) pool' ∧ reply.Exhausts firstAddr.family ∧
        smallRange.network < firstAddr.value ∧ firstAddr.value < smallRange.last ∧
        tailscaleReserved .v4 firstAddr.value = false := by
  have hfirst := step_lostPair (.start smallAllocator []) 1
    (smallAllocator.takes firstAddr) (by decide +kernel)
  have hsecond := step_lostPair (lostPair (.start smallAllocator []) 1
    (smallAllocator.takes firstAddr)) 2 ((smallAllocator.takes firstAddr).takes secondAddr)
    (by decide +kernel)
  refine ⟨_, .step (.step (.init init_smallAllocator) hfirst nofun) hsecond nofun, rfl, fun _ => rfl,
    rfl, .allocate [.ok 1], .failed .v4 .exhausted, _,
    step_of_run ((smallAllocator.takes firstAddr).takes secondAddr) (by decide +kernel), .inl rfl,
    by decide, by decide, by decide⟩

/-- No end of a prefix is handed out in runs in which held addresses are released, but no end. -/
theorem ends_are_not_handed_out (pool : Pool)
    (hreach : pools.ReachableBy (fun pool step pool' =>
      pool.HeldRelease step pool' ∧ pool.EndsKept step pool') pool)
    (call : Call) (reply : Reply) (pool' : Pool) (hstep : pools.step pool (call, reply) pool')
    (ip : IpAddr) (hip : ip ∈ reply.handed) (range : AddrRange ip.family)
    (hconfigured : pool.configured ip.family = some range) :
    ip.value ≠ range.network ∧ ip.value ≠ range.last := by
  have hsound := sound_of_reachable hreach
  have hends : pool.EndsUsed := hreach.invariant_of (fun _ => sound_of_reachable)
    (fun _ => Pool.EndsUsed.init) fun _ _ _ hsound hends hstep hallowed =>
      hends.step hsound hstep hallowed.2
  obtain ⟨taken, heffect⟩ := hsound.effect hstep
  obtain ⟨family, hget, hoffers⟩ := heffect.offered ip (heffect.taken_of_handed hip)
  have hnot : ¬ pool.IsEnd ip := fun hend =>
    hoffers.unused (by simpa [used, hget] using hends ip hend)
  exact ⟨fun h => hnot ⟨range, hconfigured, .inl h⟩, fun h => hnot ⟨range, hconfigured, .inr h⟩⟩

theorem first_addr_is_no_end :
    firstAddr ∈ (Reply.address firstAddr).handed ∧ firstAddr.value ≠ smallRange.network ∧
      firstAddr.value ≠ smallRange.last :=
  ⟨by decide, ends_are_not_handed_out (.start smallAllocator []) (.init init_smallAllocator)
    (.allocate [.ok 1]) (.address firstAddr) _
    (step_of_run (smallAllocator.takes firstAddr) (by decide +kernel)) firstAddr (by decide)
    smallRange rfl⟩

/-- The last address of the small prefix, which a node in the database has. -/
def lastAddr : IpAddr := .v4 ⟨smallRange.last, smallRange.last_lt⟩

def seededRows : List ExistingNodeIpAddresses :=
  [{ ipv4 := some "100.64.0.2" }, { ipv4 := some "100.64.0.3" }]

def seededAllocator : CidrIpAllocator :=
  { ipv4 := some
      { IpFamilyAllocator.new smallRange with
        used := {secondAddr.value, smallRange.network, smallRange.last} }
    ipv6 := none
    strategy := .random }

lemma init_seededAllocator : pools.init (.start seededAllocator seededRows) :=
  ⟨"100.64.0.0/30", none, .random, seededRows, seededAllocator, by decide +kernel, rfl⟩

/-- The small prefix without its last address in use. -/
def releasedAllocator : CidrIpAllocator :=
  seededAllocator.releaseAddresses (some ⟨smallRange.last, smallRange.last_lt⟩) none

/-- A node that has the last address is deleted, and the next allocation hands that address out. -/
theorem end_is_handed_out :
    ∃ pool call reply pool', pools.ReachableBy Pool.HeldRelease pool ∧
      pool.configured .v4 = some smallRange ∧ smallRange.network + 2 < smallRange.last ∧
      pools.step pool (call, reply) pool' ∧ lastAddr ∈ reply.handed ∧
      lastAddr.value = smallRange.last := by
  have hrelease : pools.step (.start seededAllocator seededRows)
      (.releaseAddresses (some ⟨smallRange.last, smallRange.last_lt⟩) none, .released) _ :=
    step_of_run releasedAllocator rfl
  refine ⟨_, .allocate [.ok 2], .address lastAddr, _,
    .step (.init init_seededAllocator) hrelease ?_, rfl, by decide,
    step_of_run (releasedAllocator.takes lastAddr) (by decide +kernel), by decide, by decide⟩
  intro ip hip
  obtain rfl : ip = lastAddr := by simpa [Call.released, lastAddr] using hip
  decide +kernel

end Headscale.Ipam
