import Headscale.Auth.Cache

/-!
# What an insertion drops

Both rules of the cache are about the map under its lock, where nothing changes but by the insertion
itself. Entries are told apart by the time of their last use, since each is stamped with a number of its
own.
-/

namespace Headscale.Auth

open Std Node TreeMap List Option

namespace Entries

variable {inner after : Entries} {keep id : String} {entry : RegistrationEntry} {now : Int}
  {source : RegistrationSource} {key : String}

lemma mem_candidates :
    (key, entry) ∈ inner.candidates keep ↔ inner[key]? = some entry ∧ key ≠ keep := by
  simp [candidates]

/-! ## The loop that keeps the size -/

/-- A source that holds several entries has one that may be dropped. -/
theorem exists_candidate_of_held (h : 1 < inner.held source) (keep : String) :
    ∃ key entry, (key, entry) ∈ inner.candidates keep ∧ inner.heldWith entry = inner.held source := by
  obtain ⟨key, hkey, hne⟩ : ∃ key ∈ keysWith (fun _ entry => entry.source = some source) inner,
      key ≠ keep := by
    by_contra hall
    push Not at hall
    have hle := (subperm_of_subset (nodup_keysWith _ inner)
      fun key hkey => mem_singleton.mpr (hall key hkey)).length_le
    rw [held] at h
    simp only [length_singleton] at hle
    omega
  obtain ⟨entry, hentry, hsource⟩ := mem_keysWith.mp hkey
  refine ⟨key, entry, mem_candidates.mpr ⟨hentry, hne⟩, ?_⟩
  rw [heldWith, of_decide_eq_true hsource, elim_some]

lemma exists_source_of_heldWith (h : 1 < inner.heldWith entry) :
    ∃ source, entry.source = some source ∧ inner.heldWith entry = inner.held source := by
  cases hsource : entry.source with
  | none => simp [heldWith, hsource] at h
  | some source => exact ⟨source, rfl, by rw [heldWith, hsource, elim_some]⟩

/-- Why an entry is the one to be dropped. -/
structure Victim (inner : Entries) (keep : String) (now : Int) (entry : RegistrationEntry) : Prop where
  pending : entry.isPending now = true →
    ∀ key other, (key, other) ∈ inner.candidates keep → other.isPending now = true
  heaviest : entry.isPending now = true → (∃ source, 1 < inner.held source) →
    ∃ source, entry.source = some source ∧ 1 < inner.held source ∧
      ∀ other, inner.held other ≤ inner.held source
  oldest : entry.isPending now = true → (∀ source, inner.held source ≤ 1) →
    ∀ key other, (key, other) ∈ inner.candidates keep → entry.lastUsed ≤ other.lastUsed

lemma evictionVictim_spec (h : inner.evictionVictim keep now = some id) :
    ∃ entry, (id, entry) ∈ inner.candidates keep ∧ inner.Victim keep now entry := by
  rw [evictionVictim] at h
  split at h
  · next victim entry hsettled =>
    cases h
    have hmem := mem_filter.mp (argmin_mem hsettled)
    have hsettled : entry.isPending now = false := by simpa using hmem.2
    exact ⟨entry, hmem.1, by simp [hsettled], by simp [hsettled], by simp [hsettled]⟩
  · next hnone =>
    have hpending : ∀ key other, (key, other) ∈ inner.candidates keep → other.isPending now = true := by
      intro key other hother
      have hnil := argmin_eq_none.mp hnone
      simpa using filter_eq_nil_iff.mp hnil _ hother
    split at h
    · next victim entry hheaviest =>
      cases h
      have hmem := mem_filter.mp (mem_reverse.mp (argmax_mem hheaviest))
      have hheld : 1 < inner.heldWith entry := by simpa using hmem.2
      obtain ⟨source, hsource, hsame⟩ := exists_source_of_heldWith hheld
      refine ⟨entry, hmem.1, fun _ => hpending, fun _ _ => ⟨source, hsource, hsame ▸ hheld, ?_⟩, ?_⟩
      · intro other
        by_cases hmany : 1 < inner.held other
        · obtain ⟨key, rival, hrival, hrivalHeld⟩ := exists_candidate_of_held hmany keep
          have hle := le_of_mem_argmax (mem_reverse.mpr (mem_filter.mpr
            ⟨hrival, by simpa [hrivalHeld] using hmany⟩)) hheaviest
          rw [← hsame, ← hrivalHeld]
          exact Prod.Lex.monotone_fst _ _ hle
        · omega
      · intro _ hone
        have := hone source
        omega
    · next hlight =>
      have hfew : ∀ source, inner.held source ≤ 1 := by
        intro source
        by_contra hmany
        obtain ⟨key, rival, hrival, hheld⟩ := exists_candidate_of_held (Nat.lt_of_not_le hmany) keep
        have hnil := reverse_eq_nil_iff.mp (argmax_eq_none.mp hlight)
        have hrivalFew := filter_eq_nil_iff.mp hnil _ hrival
        simp only [hheld, decide_eq_true_eq] at hrivalFew
        exact hrivalFew (Nat.lt_of_not_le hmany)
      obtain ⟨⟨victim, entry⟩, holdest, rfl⟩ := map_eq_some_iff.mp h
      refine ⟨entry, argmin_mem holdest, fun _ => hpending, ?_, fun _ _ key other hother => ?_⟩
      · rintro - ⟨source, hmany⟩
        exact absurd (hfew source) (Nat.not_le.mpr hmany)
      · have hle := le_of_mem_argmin hother holdest
        exact hle

/-- Only with nothing else in the map is there nothing to drop. -/
theorem evictionVictim_isSome (h : (key, entry) ∈ inner.candidates keep) (now : Int) :
    ∃ id, inner.evictionVictim keep now = some id := by
  rw [evictionVictim]
  split
  · exact ⟨_, rfl⟩
  split
  · exact ⟨_, rfl⟩
  · rw [← isSome_iff_exists, isSome_map, isSome_iff_ne_none, Ne,
      argmin_eq_none]
    exact ne_nil_of_mem h

/-- The loop only takes entries away, each of them as a victim, and not the one to be kept. -/
theorem evictOverCapacity_spec (maxEntries fuel : Nat) (keep : String) (now : Int) (inner : Entries) :
    (∀ (key : String) entry, (evictOverCapacity maxEntries keep now fuel inner).1[key]? = some entry →
      inner[key]? = some entry) ∧
    (evictOverCapacity maxEntries keep now fuel inner).1[keep]? = inner[keep]? ∧
    ∀ drop ∈ (evictOverCapacity maxEntries keep now fuel inner).2,
      drop.before.evictionVictim keep now = some drop.id := by
  induction fuel generalizing inner with
  | zero => exact ⟨fun _ _ h => h, rfl, by simp [evictOverCapacity]⟩
  | succ fuel ih =>
    rw [evictOverCapacity]
    split
    · exact ⟨fun _ _ h => h, rfl, by simp⟩
    split
    · exact ⟨fun _ _ h => h, rfl, by simp⟩
    next id hvictim =>
    obtain ⟨hsub, hkeep, hdrops⟩ := ih (inner.erase id)
    obtain ⟨entry, hcandidate, -⟩ := evictionVictim_spec hvictim
    have hid := (mem_candidates.mp hcandidate).2
    refine ⟨fun key entry hentry => ?_, ?_, fun drop hdrop => ?_⟩
    · exact (getElem?_of_erase (hsub key entry hentry)).2
    · rw [hkeep, ExtTreeMap.getElem?_erase, if_neg (by simpa using hid)]
    · obtain rfl | hdrop := mem_cons.mp hdrop
      · exact hvictim
      · exact hdrops drop hdrop

/-- And it goes on until the size is kept. -/
theorem size_evictOverCapacity {maxEntries fuel : Nat} (hpos : 0 < maxEntries) (hkeep : keep ∈ inner)
    (hfuel : inner.size ≤ fuel) :
    (evictOverCapacity maxEntries keep now fuel inner).1.size ≤ maxEntries := by
  induction fuel generalizing inner with
  | zero => exact hfuel.trans (Nat.zero_le _)
  | succ fuel ih =>
    rw [evictOverCapacity]
    split
    · next hsize => exact hsize
    next hsize =>
    -- a map of more than one entry has another than the one to be kept
    obtain ⟨key, entry, hcandidate⟩ : ∃ key entry, (key, entry) ∈ inner.candidates keep := by
      by_contra hnone
      push Not at hnone
      have hsubset : inner.keys ⊆ [keep] := by
        intro key hkey
        by_contra hne
        obtain ⟨entry, hentry⟩ := ExtTreeMap.mem_iff_isSome_getElem?.mp (ExtTreeMap.mem_keys.mp hkey)
          |> isSome_iff_exists.mp
        exact hnone key entry (mem_candidates.mpr ⟨hentry, by simpa using hne⟩)
      have hle := (subperm_of_subset ExtTreeMap.nodup_keys hsubset).length_le
      rw [ExtTreeMap.length_keys, length_singleton] at hle
      omega
    obtain ⟨id, hvictim⟩ := evictionVictim_isSome hcandidate now
    rw [hvictim]
    obtain ⟨victim, hvictimMem, -⟩ := evictionVictim_spec hvictim
    obtain ⟨hin, hne⟩ := mem_candidates.mp hvictimMem
    refine ih ?_ ?_
    · rw [ExtTreeMap.mem_erase]
      exact ⟨by simpa using hne, hkeep⟩
    · rw [ExtTreeMap.size_erase, if_pos]
      · omega
      · rw [ExtTreeMap.contains_eq_isSome_getElem?, hin]
        rfl

/-- What the loop of an insertion drops while it is pending is dropped only when all the others are
pending too. Then it is one of a source that holds most, if some source holds several, and the least
recently used otherwise. -/
theorem capacity_drops_fairly (limits : CacheLimits) (inner : Entries) (id : String)
    (entry : RegistrationEntry) (now : Int) :
    ∀ drop ∈ (inner.insertEntry limits id entry now).2,
      ∃ victim, drop.before[drop.id]? = some victim ∧ drop.id ≠ id ∧ (victim.isPending now = true →
        (∀ (key : String) other, drop.before[key]? = some other → key ≠ id →
          other.isPending now = true) ∧
        ((∃ source, 1 < drop.before.held source) →
          ∃ source, victim.source = some source ∧ 1 < drop.before.held source ∧
            ∀ other, drop.before.held other ≤ drop.before.held source) ∧
        ((∀ source, drop.before.held source ≤ 1) →
          ∀ (key : String) other, drop.before[key]? = some other → key ≠ id →
            victim.lastUsed ≤ other.lastUsed)) := by
  intro drop hdrop
  obtain ⟨-, -, hdrops⟩ := evictOverCapacity_spec limits.maxEntries
    (inner.quotaKept limits id entry now).size id now (inner.quotaKept limits id entry now)
  obtain ⟨victim, hcandidate, hvictim⟩ := evictionVictim_spec (hdrops drop hdrop)
  obtain ⟨hin, hne⟩ := mem_candidates.mp hcandidate
  refine ⟨victim, hin, hne, fun hpending => ⟨fun key other hother hkey => ?_, hvictim.heaviest hpending,
    fun hfew key other hother hkey => ?_⟩⟩
  · exact hvictim.pending hpending key other (mem_candidates.mpr ⟨hother, hkey⟩)
  · exact hvictim.oldest hpending hfew key other (mem_candidates.mpr ⟨hother, hkey⟩)

/-- Two entries of one source and one of another. -/
def shared (settled : Option RegistrationOutcome) : Entries :=
  ((∅ : Entries).insert "a1"
    { source := some (.v4 1), expiresAt := 9, lastUsed := 2 }).insert "a2"
    { source := some (.v4 1), expiresAt := 9, lastUsed := 3 } |>.insert "b"
    { source := some (.v4 2), expiresAt := 9, lastUsed := 1, outcome := settled }

/-- The limit of three entries is reached: one of the source that holds two is dropped. -/
theorem full_cache_drops_heaviest :
    let entry : RegistrationEntry := { source := some (.v4 3), expiresAt := 9, lastUsed := 4 }
    ∃ drop ∈ ((shared none).insertEntry (.of 3 1) "c" entry 0).2, drop.id = "a1" ∧
      ∃ victim, drop.before["a1"]? = some victim ∧ victim.source = some (.v4 1) ∧
        ∀ other, drop.before.held other ≤ drop.before.held (.v4 1) := by
  intro entry
  have hrun : ((shared none).insertEntry (.of 3 1) "c" entry 0).2.map (fun drop =>
      (drop.id, drop.before["a1"]?.map fun victim => (victim.source, victim.isPending 0),
        decide (1 < drop.before.held (.v4 1)))) = [("a1", some (some (.v4 1), true), true)] := by
    decide +kernel
  obtain ⟨drop, hdrops, hvalues⟩ := map_eq_singleton_iff.mp hrun
  simp only [Prod.mk.injEq, map_eq_some_iff, decide_eq_true_eq] at hvalues
  obtain ⟨hid, ⟨victim, hvictim, hsource, hpending⟩, hmany⟩ := hvalues
  have hmem : drop ∈ ((shared none).insertEntry (.of 3 1) "c" entry 0).2 := by
    rw [hdrops]
    exact mem_singleton.mpr rfl
  obtain ⟨victim', hvictim', -, hfair⟩ := capacity_drops_fairly (.of 3 1) (shared none) "c" entry 0
    drop hmem
  rw [hid] at hvictim'
  cases hvictim.symm.trans hvictim'
  obtain ⟨source, hsource', -, hmost⟩ := (hfair hpending).2.1 ⟨_, hmany⟩
  cases hsource.symm.trans hsource'
  exact ⟨drop, hmem, hid, victim, hvictim, hsource, hmost⟩

/-- An entry with its verdict goes first, also if it is the only one of its source. -/
theorem settled_entry_goes_first :
    let entry : RegistrationEntry := { source := some (.v4 3), expiresAt := 9, lastUsed := 4 }
    ((shared (some .approvedWithoutNode)).insertEntry (.of 3 1) "c" entry 0).2.map
      (fun drop => (drop.id, drop.before.held (.v4 2), drop.before.held (.v4 1))) = [("b", 1, 2)] := by
  decide +kernel

/-! ## The quota of a source -/

lemma mem_droppable {used : Nat} :
    toLex (used, key) ∈ inner.droppable keep source now ↔
      ∃ entry, inner[key]? = some entry ∧ entry.source = some source ∧ entry.isPending now = true ∧
        key ≠ keep ∧ entry.lastUsed = used := by
  simp only [droppable, List.mem_map, mem_filter, Prod.exists,
    ExtTreeMap.mem_toList_iff_getElem?_eq_some, EmbeddingLike.apply_eq_iff_eq, Prod.mk.injEq]
  constructor
  · rintro ⟨key, entry, ⟨hentry, hkind⟩, rfl, rfl⟩
    simp only [Bool.and_eq_true, decide_eq_true_eq] at hkind
    exact ⟨entry, hentry, hkind.1.1, hkind.1.2, by simpa using hkind.2, rfl⟩
  · rintro ⟨entry, hentry, hsource, hpending, hne, rfl⟩
    exact ⟨key, entry, ⟨hentry, by simp [hsource, hpending, hne]⟩, rfl, rfl⟩

/-- What is dropped for the quota: pending entries of the source, each no more recently used than those
that stay. -/
theorem mem_overQuota {quota : Nat} (h : key ∈ inner.overQuota quota keep source now) :
    ∃ entry, inner[key]? = some entry ∧ entry.source = some source ∧ entry.isPending now = true ∧
      key ≠ keep ∧ ∀ (other : String) rival, inner[other]? = some rival →
        other ∉ inner.overQuota quota keep source now → other ≠ keep → rival.source = some source →
        rival.isPending now = true → entry.lastUsed ≤ rival.lastUsed := by
  obtain ⟨used, hused, rfl⟩ := List.mem_map.mp h
  obtain ⟨entry, hentry, hsource, hpending, hne, hlast⟩ :=
    mem_droppable.mp ((mem_insertionSort _).mp (mem_of_mem_take hused))
  refine ⟨entry, hentry, hsource, hpending, hne, fun other rival hrival hkept hother hsame hwaits => ?_⟩
  set sorted := (inner.droppable keep source now).insertionSort (· ≤ ·) with hsorted
  set excess := (inner.pendingOf source now).length - quota with hexcess
  have hmem : toLex (rival.lastUsed, other) ∈ sorted :=
    (mem_insertionSort _).mpr (mem_droppable.mpr ⟨rival, hrival, hsame, hwaits, hother, rfl⟩)
  have hlater : toLex (rival.lastUsed, other) ∈ sorted.drop excess := by
    rw [← take_append_drop excess sorted] at hmem
    obtain hearly | hlater := mem_append.mp hmem
    · exact absurd (List.mem_map.mpr ⟨_, hearly, rfl⟩) hkept
    · exact hlater
  have hpairwise : (sorted.take excess ++ sorted.drop excess).Pairwise (· ≤ ·) := by
    rw [take_append_drop]
    exact pairwise_insertionSort _ _
  have hle := (pairwise_append.mp hpairwise).2.2 used hused _ hlater
  rw [hlast]
  exact Prod.Lex.monotone_fst _ _ hle

lemma map_droppable (inner : Entries) (keep : String) (source : RegistrationSource) (now : Int) :
    (inner.droppable keep source now).map (fun used => (ofLex used).2) =
      (inner.pendingOf source now).filter (· ≠ keep) := by
  simp only [droppable, pendingOf, keysWith, List.map_map, List.filter_map, List.filter_filter]
  congr 1
  refine filter_congr fun entry _ => ?_
  simp [Bool.and_comm]

lemma nodup_overQuota (inner : Entries) (quota : Nat) (keep : String) (source : RegistrationSource)
    (now : Int) : (inner.overQuota quota keep source now).Nodup := by
  have hall : ((inner.droppable keep source now).map fun used => (ofLex used).2).Nodup := by
    rw [map_droppable]
    exact (nodup_keysWith _ inner).filter _
  have hsorted := (perm_insertionSort (· ≤ ·) (inner.droppable keep source now)).map
    fun used => (ofLex used).2
  exact (hsorted.nodup_iff.mpr hall).sublist ((take_sublist _ _).map _)

/-- As many are dropped as the quota is exceeded by. -/
theorem length_overQuota {quota : Nat} (hquota : 0 < quota) (inner : Entries) (keep : String)
    (source : RegistrationSource) (now : Int) :
    (inner.overQuota quota keep source now).length = (inner.pendingOf source now).length - quota := by
  have hmost : (inner.pendingOf source now).length ≤ (inner.droppable keep source now).length + 1 := by
    have hnodup : (inner.pendingOf source now).Nodup := nodup_keysWith _ inner
    have hsubset : inner.pendingOf source now ⊆
        keep :: (inner.pendingOf source now).filter (· ≠ keep) := by
      intro key hkey
      by_cases hkeep : key = keep
      · exact mem_cons.mpr (.inl hkeep)
      · exact mem_cons.mpr (.inr (mem_filter.mpr ⟨hkey, by simpa using hkeep⟩))
    rw [← map_droppable] at hsubset
    simpa using (subperm_of_subset hnodup hsubset).length_le
  rw [overQuota, length_map, length_take, length_insertionSort]
  omega

lemma getElem?_evictOverSourceQuota (inner : Entries) (quota : Nat) (keep : String)
    (source : RegistrationSource) (now : Int) (key : String) :
    (inner.evictOverSourceQuota quota keep source now)[key]? =
      if key ∈ inner.overQuota quota keep source now then none else inner[key]? :=
  getElem?_foldl_erase ..

lemma quotaKept_cases (limits : CacheLimits) (inner : Entries) (id : String)
    (entry : RegistrationEntry) (now : Int) :
    inner.quotaKept limits id entry now = inner.insert id entry ∨
      ∃ source, entry.source = some source ∧ inner.quotaKept limits id entry now =
        evictOverSourceQuota (inner.insert id entry) limits.maxPendingPerSource id source now := by
  rw [quotaKept]
  split
  · exact .inl rfl
  · next source hsource =>
    split
    · exact .inr ⟨source, hsource, rfl⟩
    · exact .inl rfl

variable {other : RegistrationEntry}

lemma quotaKept_sub {limits : CacheLimits}
    (h : (inner.quotaKept limits id entry now)[key]? = some other) :
    (inner.insert id entry)[key]? = some other := by
  obtain heq | ⟨source, -, heq⟩ := quotaKept_cases limits inner id entry now
  · exact heq ▸ h
  · rw [heq, getElem?_evictOverSourceQuota] at h
    split at h
    · cases h
    · exact h

lemma quotaKept_inserted (limits : CacheLimits) (inner : Entries) (id : String)
    (entry : RegistrationEntry) (now : Int) :
    (inner.quotaKept limits id entry now)[id]? = some entry := by
  obtain heq | ⟨source, -, heq⟩ := quotaKept_cases limits inner id entry now
  · rw [heq, ExtTreeMap.getElem?_insert_self]
  · rw [heq, getElem?_evictOverSourceQuota, if_neg, ExtTreeMap.getElem?_insert_self]
    intro hover
    obtain ⟨-, -, -, -, hne, -⟩ := mem_overQuota hover
    exact hne rfl

/-- What the quota step removes. -/
theorem quotaKept_removed {limits : CacheLimits}
    (hbefore : (inner.insert id entry)[key]? = some other)
    (hafter : (inner.quotaKept limits id entry now)[key]? = none) :
    ∃ source, entry.source = some source ∧ other.source = some source ∧ other.isPending now = true ∧
      key ≠ id ∧ ∀ (kept : String) rival, (inner.quotaKept limits id entry now)[kept]? = some rival →
        kept ≠ id → rival.source = some source → rival.isPending now = true →
        other.lastUsed ≤ rival.lastUsed := by
  obtain heq | ⟨source, hsource, heq⟩ := quotaKept_cases limits inner id entry now
  · rw [heq, hbefore] at hafter
    cases hafter
  simp only [heq, getElem?_evictOverSourceQuota] at hafter ⊢
  split at hafter
  · next hover =>
    obtain ⟨victim, hvictim, hsame, hpending, hne, holdest⟩ := mem_overQuota hover
    cases hbefore.symm.trans hvictim
    refine ⟨source, hsource, hsame, hpending, hne, fun kept rival hrival => ?_⟩
    split at hrival
    · cases hrival
    · next hkept => exact holdest kept rival hrival hkept
  · rw [hbefore] at hafter
    cases hafter

/-- The source of the entry keeps its quota if somebody else is waiting. -/
theorem pendingOf_quotaKept {limits : CacheLimits} (hsource : entry.source = some source)
    (hparty : otherPartyPending (inner.insert id entry) source now = true) :
    ((inner.quotaKept limits id entry now).pendingOf source now).length ≤
      limits.maxPendingPerSource := by
  have hkept : inner.quotaKept limits id entry now =
      evictOverSourceQuota (inner.insert id entry) limits.maxPendingPerSource id source now := by
    rw [quotaKept, hsource]
    exact if_pos hparty
  have hdropped : overQuota (inner.insert id entry) limits.maxPendingPerSource id source now ⊆
      pendingOf (inner.insert id entry) source now := by
    intro key hkey
    obtain ⟨victim, hvictim, hsame, hpending, -, -⟩ := mem_overQuota hkey
    exact mem_keysWith.mpr ⟨victim, hvictim, by simp [hsame, hpending]⟩
  have hstays : ∀ (key : String) other, (inner.quotaKept limits id entry now)[key]? = some other →
      (inner.insert id entry)[key]? = some other ∧
        key ∉ overQuota (inner.insert id entry) limits.maxPendingPerSource id source now := by
    intro key other hother
    rw [hkept, getElem?_evictOverSourceQuota] at hother
    split at hother
    · cases hother
    · next hnot => exact ⟨hother, hnot⟩
  have hle := length_keysWith_add_le (nodup_overQuota ..) hdropped hstays
  rw [length_overQuota limits.quota_pos] at hle
  simp only [pendingOf] at hle ⊢
  omega

lemma insertEntry_sub {limits : CacheLimits}
    (h : (inner.insertEntry limits id entry now).1[key]? = some other) :
    (inner.quotaKept limits id entry now)[key]? = some other :=
  (evictOverCapacity_spec ..).1 key other h

lemma insertEntry_inserted (limits : CacheLimits) (inner : Entries) (id : String)
    (entry : RegistrationEntry) (now : Int) :
    (inner.insertEntry limits id entry now).1[id]? = some entry :=
  (evictOverCapacity_spec ..).2.1.trans (quotaKept_inserted limits inner id entry now)

lemma size_insertEntry (limits : CacheLimits) (inner : Entries) (id : String)
    (entry : RegistrationEntry) (now : Int) :
    (inner.insertEntry limits id entry now).1.size ≤ limits.maxEntries := by
  refine size_evictOverCapacity limits.maxEntries_pos ?_ (Nat.le_refl _)
  rw [ExtTreeMap.mem_iff_isSome_getElem?, quotaKept_inserted]
  rfl

lemma pendingOf_insertEntry {limits : CacheLimits} (hsource : entry.source = some source)
    (hparty : otherPartyPending (inner.insert id entry) source now = true) :
    ((inner.insertEntry limits id entry now).1.pendingOf source now).length ≤
      limits.maxPendingPerSource :=
  calc ((inner.insertEntry limits id entry now).1.pendingOf source now).length
    _ ≤ ((inner.quotaKept limits id entry now).pendingOf source now).length :=
      length_keysWith_add_le nodup_nil (nil_subset _)
        fun _ _ h => ⟨insertEntry_sub h, not_mem_nil⟩
    _ ≤ limits.maxPendingPerSource := pendingOf_quotaKept hsource hparty

end Entries

/-! ## Times of use -/

namespace RegistrationCache

open Entries

variable {limits : CacheLimits} {cache : RegistrationCache}

/-- Every time of use was taken from the counter, and for one entry. -/
structure Stamped (cache : RegistrationCache) : Prop where
  past : ∀ (key : String) entry, cache.inner[key]? = some entry → entry.lastUsed ≤ cache.accessCounter
  own : ∀ (key key' : String) entry entry', cache.inner[key]? = some entry →
    cache.inner[key']? = some entry' → entry.lastUsed = entry'.lastUsed → key = key'

/-- It stays so if the times of use stay, but for one entry that is stamped anew. -/
theorem Stamped.restamp {after : RegistrationCache} (h : cache.Stamped) (id : String)
    (hcounter : after.accessCounter = cache.accessCounter + 1)
    (hown : ∀ entry, after.inner[id]? = some entry → entry.lastUsed = cache.accessCounter + 1)
    (hothers : ∀ (key : String) entry, key ≠ id → after.inner[key]? = some entry →
      ∃ before, cache.inner[key]? = some before ∧ entry.lastUsed = before.lastUsed) :
    after.Stamped := by
  refine ⟨fun key entry hentry => ?_, fun key key' entry entry' hentry hentry' hused => ?_⟩
  · by_cases hkey : key = id
    · rw [hcounter, hown entry (hkey ▸ hentry)]
    · obtain ⟨before, hbefore, hsame⟩ := hothers key entry hkey hentry
      have := h.past key before hbefore
      omega
  · by_cases hkey : key = id <;> by_cases hkey' : key' = id
    · rw [hkey, hkey']
    · obtain ⟨before, hbefore, hsame⟩ := hothers key' entry' hkey' hentry'
      have := h.past key' before hbefore
      have := hown entry (hkey ▸ hentry)
      omega
    · obtain ⟨before, hbefore, hsame⟩ := hothers key entry hkey hentry
      have := h.past key before hbefore
      have := hown entry' (hkey' ▸ hentry')
      omega
    · obtain ⟨before, hbefore, hsame⟩ := hothers key entry hkey hentry
      obtain ⟨before', hbefore', hsame'⟩ := hothers key' entry' hkey' hentry'
      exact h.own key key' before before' hbefore hbefore' (by omega)

lemma Stamped.of_sub {after : RegistrationCache} (h : cache.Stamped)
    (hcounter : after.accessCounter = cache.accessCounter)
    (hsub : ∀ (key : String) entry, after.inner[key]? = some entry →
      ∃ before, cache.inner[key]? = some before ∧ entry.lastUsed = before.lastUsed) :
    after.Stamped := by
  refine ⟨fun key entry hentry => ?_, fun key key' entry entry' hentry hentry' hused => ?_⟩
  · obtain ⟨before, hbefore, hsame⟩ := hsub key entry hentry
    have := h.past key before hbefore
    omega
  · obtain ⟨before, hbefore, hsame⟩ := hsub key entry hentry
    obtain ⟨before', hbefore', hsame'⟩ := hsub key' entry' hentry'
    exact h.own key key' before before' hbefore hbefore' (by omega)

lemma Stamped.insert (h : cache.Stamped) (limits : CacheLimits) (id : String)
    (record : Option MachineRecord) (source : Option RegistrationSource)
    (sshBinding : Option SshCheckBinding) (expiresAt now : Int) :
    (cache.apply limits (.insert id record source sshBinding expiresAt now)).Stamped := by
  refine h.restamp id rfl (fun entry hentry => ?_) fun key entry hkey hentry => ?_
  · rw [apply, insertEntry_inserted] at hentry
    cases hentry
    rfl
  · have hin := quotaKept_sub (insertEntry_sub hentry)
    rw [ExtTreeMap.getElem?_insert, if_neg (by simpa using Ne.symm hkey)] at hin
    exact ⟨entry, hin, rfl⟩

lemma Stamped.step (h : cache.Stamped) (limits : CacheLimits) (a : CacheAction) :
    (cache.apply limits a).Stamped := by
  cases a with
  | prune now =>
    refine h.of_sub rfl fun key entry hentry => ⟨entry, ?_, rfl⟩
    rw [apply, ExtTreeMap.getElem?_filter'] at hentry
    exact (filter_eq_some_iff.mp hentry).1
  | insert id record source sshBinding expiresAt now =>
    exact h.insert limits id record source sshBinding expiresAt now
  | touch id =>
    rw [apply]
    split
    · refine h.restamp id rfl (fun entry hentry => ?_) fun key entry hkey hentry => ?_
      · rw [ExtTreeMap.getElem?_alter_self] at hentry
        obtain ⟨before, -, rfl⟩ := map_eq_some_iff.mp hentry
        rfl
      · rw [ExtTreeMap.getElem?_alter, if_neg (by simpa using Ne.symm hkey)] at hentry
        exact ⟨entry, hentry, rfl⟩
    · exact h
  | settle id outcome =>
    refine h.of_sub rfl fun key entry hentry => ?_
    rw [apply, ExtTreeMap.getElem?_alter] at hentry
    split at hentry
    · next hkey =>
      obtain ⟨before, hbefore, rfl⟩ := map_eq_some_iff.mp hentry
      exact ⟨before, Std.compare_eq_iff_eq.mp hkey ▸ hbefore, rfl⟩
    · exact ⟨entry, hentry, rfl⟩
  | remove id =>
    exact h.of_sub rfl fun key entry hentry => ⟨entry, (getElem?_of_erase hentry).2, rfl⟩

lemma stamped_of_reachable (h : (caching limits).Reachable cache) : cache.Stamped := by
  refine Machine.System.ReachableBy.invariant (fun cache hinit => ?_) (fun cache a after hcache hstep _ => ?_) h
  · have hempty : cache.inner = ∅ := hinit
    exact ⟨by simp [hempty], by simp [hempty]⟩
  · exact hstep ▸ hcache.step limits a

/-- An insertion keeps the limits of the cache and the new entry. If somebody else has pending entries,
it keeps the quota of the source as well, for which it drops only pending entries of that source, each
less recently used than the pending ones that stay. -/
theorem insert_keeps_limits (h : (caching limits).Reachable cache) (id : String)
    (record : Option MachineRecord) (source : Option RegistrationSource)
    (sshBinding : Option SshCheckBinding) (expiresAt now : Int) :
    let entry := cache.newEntry record source sshBinding expiresAt
    let inserted : Entries := cache.inner.insert id entry
    let kept := cache.inner.quotaKept limits id entry now
    let after := (cache.apply limits (.insert id record source sshBinding expiresAt now)).inner
    after.size ≤ limits.maxEntries ∧ after[id]? = some entry ∧
    (∀ own, source = some own → inserted.otherPartyPending own now = true →
      (after.pendingOf own now).length ≤ limits.maxPendingPerSource) ∧
    ∀ (key : String) other, inserted[key]? = some other → kept[key]? = none →
      key ≠ id ∧ ∃ own, source = some own ∧ other.source = some own ∧ other.isPending now = true ∧
        ∀ (stays : String) rival, kept[stays]? = some rival → stays ≠ id →
          rival.source = some own → rival.isPending now = true → other.lastUsed < rival.lastUsed := by
  intro entry inserted kept after
  refine ⟨size_insertEntry .., insertEntry_inserted .., fun own hown hparty => ?_, ?_⟩
  · exact pendingOf_insertEntry hown hparty
  · intro key other hother hdropped
    obtain ⟨own, hown, hsource, hpending, hkey, holdest⟩ := quotaKept_removed hother hdropped
    refine ⟨hkey, own, hown, hsource, hpending, fun stays rival hrival hstays hsame hwaits => ?_⟩
    have hle := holdest stays rival hrival hstays hsame hwaits
    refine Nat.lt_of_le_of_ne hle fun hused => ?_
    have hbefore : cache.inner[key]? = some other := by
      rw [ExtTreeMap.getElem?_insert, if_neg (by simpa using Ne.symm hkey)] at hother
      exact hother
    have hrivalBefore : cache.inner[stays]? = some rival := by
      have hin := quotaKept_sub hrival
      rw [ExtTreeMap.getElem?_insert, if_neg (by simpa using Ne.symm hstays)] at hin
      exact hin
    obtain rfl := (stamped_of_reachable h).own key stays other rival hbefore hrivalBefore hused
    rw [hdropped] at hrival
    cases hrival

lemma reachable_run (limits : CacheLimits) (actions : List CacheAction) :
    (caching limits).Reachable (actions.foldl (apply limits) {}) :=
  List.foldlRecOn actions _ (.init rfl) fun _ h _ _ => .step h rfl trivial

/-- An entry of each of two sources, of which the first has its verdict, and then another of the first
source. -/
def settledFirst : List CacheAction :=
  [.insert "r1" none (some (.v4 1)) none 9 0, .settle "r1" .approvedWithoutNode,
    .insert "b" none (some (.v4 2)) none 9 0, .insert "r2" none (some (.v4 1)) none 9 0]

/-- With the quota of one, the next entry of the first source makes its pending entry go. -/
theorem quota_drops_own_pending :
    let cache := settledFirst.foldl (apply (.of 4 1)) {}
    let entry := cache.newEntry none (some (.v4 1)) none 9
    (cache.inner.quotaKept (.of 4 1) "r3" entry 0)["r2"]? = none ∧
      ((cache.apply (.of 4 1) (.insert "r3" none (some (.v4 1)) none 9 0)).inner.pendingOf (.v4 1)
        0).length ≤ 1 := by
  refine ⟨by decide +kernel, ?_⟩
  exact (insert_keeps_limits (reachable_run (.of 4 1) settledFirst) "r3" none (some (.v4 1)) none 9
    0).2.2.1 (.v4 1) rfl (by decide +kernel)

/-- The entry that has its verdict stays, although it is the one used least recently. -/
theorem settled_entry_outstays :
    let cache := settledFirst.foldl (apply (.of 4 1)) {}
    let entry := cache.newEntry none (some (.v4 1)) none 9
    let inserted : Entries := cache.inner.insert "r3" entry
    let kept := cache.inner.quotaKept (.of 4 1) "r3" entry 0
    (caching (.of 4 1)).Reachable cache ∧
      inserted["r2"]?.map (fun dropped => (dropped.source, dropped.lastUsed)) = some (some (.v4 1), 3) ∧
      kept["r2"]? = none ∧
      kept["r1"]?.map (fun stays => (stays.source, stays.lastUsed)) = some (some (.v4 1), 1) :=
  ⟨reachable_run _ _, by decide +kernel, by decide +kernel, by decide +kernel⟩

end RegistrationCache

end Headscale.Auth
