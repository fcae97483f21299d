import Headscale.Db.KeyClaims

/-!
# Registrations and the deletion of their key

The transaction that creates a node saves the captured key before the node, so that the row of a key
deleted since the lookup is inserted again. Deletion is therefore no fence for a registration that
looked the key up before. It is one for every other registration: as long as none of those in hand of
the key commits, the row stays away and nobody registers with the key.
-/

namespace Headscale.Db

open Machine ClaimState Option Database

variable {k : Int} {s s₁ s' : ClaimState}

/-! ## Rows of other keys -/

variable {action : ClaimAction} {write : Write}

lemma SavedKeys.hasKey_eq {db mid : Database} {j : Int} (h : SavedKeys write db j mid.keys)
    (hother : j ≠ k) : mid.hasKey k = db.hasKey k := by
  unfold hasKey
  generalize hkeys : mid.keys = keys at h
  cases h with
  | kept => rfl
  | inserted hid _ _ => simp [hid, hother]

lemma markUsed_hasKey (db : Database) (j : Int) : (db.markUsed j).1.hasKey k = db.hasKey k := by
  rw [Bool.eq_iff_iff, hasKey_iff, hasKey_iff]
  simp only [mem_markUsed]
  constructor
  · rintro ⟨_, ⟨before, hbefore, rfl⟩, hid⟩
    exact ⟨before, hbefore, hid⟩
  · rintro ⟨row, hrow, hid⟩
    exact ⟨_, ⟨row, hrow, rfl⟩, hid⟩

lemma destroyKey_hasKey {db : Database} {j : Int} (h : db.hasKey k = false) :
    (db.destroyKey j).hasKey k = false := by
  rw [Bool.eq_false_iff, ne_eq, hasKey_iff] at h ⊢
  rintro ⟨row, hrow, hid⟩
  exact h ⟨row, List.mem_of_mem_filter hrow, hid⟩

/-- A commit with one key does not bring another back. -/
theorem Write.run_hasKey {refusals : Refusals} {db db' : Database} {material : PreauthKeyRow}
    (hpos : material.id ≠ 0) (hother : material.id ≠ k) {fresh : Bool} {now : Int}
    {givenName : String} (h : (write.run refusals db material fresh now givenName).1 = .ok db') :
    db'.hasKey k = db.hasKey k := by
  obtain ⟨mid, hsaved, ⟨-, rfl⟩ | ⟨-, -, rfl⟩⟩ := run_ok hpos h
  · exact hsaved.hasKey_eq hother
  · rw [markUsed_hasKey, hsaved.hasKey_eq hother]

/-! ## After a deletion -/

/-- A registration that was in hand of the key has committed with it. -/
def CommittedSince (k : Int) (s₁ s : ClaimState) : Prop :=
  ∃ task material write spent, (s₁.phase task).captured = some material ∧ material.id = k ∧
    s.phase task = .committed write k spent

/-- The key's row is still away, and no registration has committed with it or come to have it in
hand. -/
structure StaysDeleted (k : Int) (s₁ s : ClaimState) : Prop where
  absent : s.db.hasKey k = false
  captured : ∀ task material, (s.phase task).captured = some material → material.id = k →
    (s₁.phase task).captured = some material
  committed : ∀ task write spent, s.phase task = .committed write k spent →
    s₁.phase task = .committed write k spent

/-- A registration that has committed takes no further step. -/
theorem ClaimStep.committed_stays (h : ClaimStep s action s') {task : Nat} {key : Int}
    {spent : Bool} (hphase : s.phase task = .committed write key spent) :
    s'.phase task = .committed write key spent := by
  have hactive : ∀ other, s.phase other ≠ .committed write key spent → task ≠ other := by
    rintro other hother rfl
    exact hother hphase
  cases h with
  | @lookup other _ hidle =>
    rwa [setPhase_other _ _ (hactive other (by simp [hidle]))]
  | @check other _ _ _ _ _ hlooked =>
    rwa [setPhase_other _ _ (hactive other (by simp [hlooked]))]
  | @commit other _ _ _ _ _ _ _ hchecked =>
    exact (setPhase_other _ _ (hactive other (by simp [hchecked]))).trans hphase
  | @fail _ other _ hpending =>
    refine (setPhase_other _ _ (hactive other ?_)).trans hphase
    intro hcommitted
    exact hpending (by rw [hcommitted]; rfl)
  | destroy => exact hphase

lemma CommittedSince.step {action : ClaimAction} (h : CommittedSince k s₁ s)
    (hstep : ClaimStep s action s') : CommittedSince k s₁ s' := by
  obtain ⟨task, material, write, spent, hcaptured, hid, hphase⟩ := h
  exact ⟨task, material, write, spent, hcaptured, hid, hstep.committed_stays hphase⟩

/-- A registration is committed after a step only if it was before, or had the key in hand. -/
theorem ClaimStep.committed_before (h : ClaimStep s action s') {task : Nat} {key : Int}
    {spent : Bool} (hphase : s'.phase task = .committed write key spent) :
    s.phase task = .committed write key spent ∨
      ∃ material, (s.phase task).captured = some material ∧ material.id = key := by
  cases h with
  | @lookup other | @fail _ other | @check other =>
    by_cases htask : task = other
    · subst htask
      rw [setPhase_self] at hphase
      cases hphase
    · rw [setPhase_other _ _ htask] at hphase
      exact .inl hphase
  | @commit other _ _ _ _ material _ _ hchecked =>
    by_cases htask : task = other
    · subst htask
      simp only [setPhase_self, Phase.committed.injEq] at hphase
      exact .inr ⟨material, by rw [hchecked]; rfl, hphase.2.1⟩
    · simp only [setPhase_other _ _ htask] at hphase
      exact .inl hphase
  | destroy => exact .inl hphase

/-- Only a registration in hand of the key brings it back, by committing. -/
theorem ClaimStep.absent_or_committed (hcap : WellCaptured s) (h : ClaimStep s action s')
    (habsent : s.db.hasKey k = false) :
    s'.db.hasKey k = false ∨ ∃ task material write spent,
      (s.phase task).captured = some material ∧ material.id = k ∧
        s'.phase task = .committed write k spent := by
  cases h with
  | lookup | check | fail => exact .inl habsent
  | @commit task _ _ _ write material fresh _ hchecked hrun =>
    have hcaptured : (s.phase task).captured = some material := by rw [hchecked]; rfl
    by_cases hid : material.id = k
    · subst hid
      exact .inr ⟨task, material, write, _, hcaptured, rfl, setPhase_self _ _ _⟩
    · exact .inl ((Write.run_hasKey (hcap.positive task material hcaptured) hid hrun).trans habsent)
  | destroy => exact .inl (destroyKey_hasKey habsent)

lemma StaysDeleted.step {action : ClaimAction} (h : StaysDeleted k s₁ s) (hcap : WellCaptured s)
    (hstep : ClaimStep s action s') : CommittedSince k s₁ s' ∨ StaysDeleted k s₁ s' := by
  by_cases hnow : ∃ task material write spent, (s.phase task).captured = some material ∧
      material.id = k ∧ s'.phase task = .committed write k spent
  · obtain ⟨task, material, write, spent, hcaptured, hid, hphase⟩ := hnow
    exact .inl ⟨task, material, write, spent, h.captured task material hcaptured hid, hid, hphase⟩
  refine .inr ⟨(hstep.absent_or_committed hcap h.absent).resolve_right hnow, ?_, ?_⟩
  · intro task material hcaptured hid
    obtain hcaptured | ⟨-, hrow⟩ := hstep.captured_cases hcaptured
    · exact h.captured task material hcaptured hid
    · -- a deleted key cannot be looked up
      have hpresent := hasKey_iff.mpr ⟨material, hrow, hid⟩
      rw [h.absent] at hpresent
      cases hpresent
  · intro task write spent hphase
    obtain hbefore | ⟨material, hcaptured, hid⟩ := hstep.committed_before hphase
    · exact h.committed task write spent hbefore
    · exact absurd ⟨task, material, write, spent, hcaptured, hid, hphase⟩ hnow

/-- Once a key's row is deleted, either a registration that had looked the key up by then has
committed with it since, or the row is still away and no registration has committed with the key
since. -/
theorem registrations_after_deletion {db : Database} (hwf : db.WellFormed) {k : Int}
    {s₁ s₂ : ClaimState} (h₁ : (registrations db).Reachable s₁) (hdeleted : s₁.db.hasKey k = false)
    (h₂ : ((registrations db).startingAt s₁).Reachable s₂) :
    CommittedSince k s₁ s₂ ∨ StaysDeleted k s₁ s₂ := by
  have hcaptured : ∀ s, ((registrations db).startingAt s₁).Reachable s → WellCaptured s :=
    fun s hs => wellCaptured_of_reachable hwf (h₁.trans hs)
  apply h₂.invariant_of (I := fun s => CommittedSince k s₁ s ∨ StaysDeleted k s₁ s) hcaptured
  · rintro s rfl
    exact .inr ⟨hdeleted, fun _ _ hcaptured _ => hcaptured, fun _ _ _ => id⟩
  · intro s action s' hcap hinv hstep _
    obtain hsince | hstays := hinv
    · exact .inl (hsince.step (apply_step hstep))
    · exact hstays.step hcap (apply_step hstep)

/-! ## A deletion between lookup and commit -/

/-- The first registration has the reusable key in hand when the key is deleted. -/
def deletedRun : List ClaimAction :=
  upToCommit 1 "m1" { id := 2, keyPrefix := some "b", userId := some 7, reusable := true } ++
    [.destroy 2]

/-- The deleted key's row comes back, and with it a new node registered with the key. -/
theorem deletedRun_commit_restores :
    ∃ s₁ s₂, runClaims deletedRun = some s₁ ∧ (registrations twoKeys).Reachable s₁ ∧
      s₁.db.hasKey 2 = false ∧ s₁.db.nodes = [] ∧
      s₁.apply (.commit 1 {} 11 "first") = some s₂ ∧
      s₂.phase 1 = .committed (newNode "m1" 2) 2 true ∧ s₂.db.hasKey 2 = true ∧
      s₂.db.nodes.map (·.authKeyId) = [some 2] := by
  have hsome : ((runClaims deletedRun).bind (·.apply (.commit 1 {} 11 "first"))).isSome = true := by
    decide
  have hbefore : (runClaims deletedRun).map (fun s => (s.db.hasKey 2, s.db.nodes)) =
      some (false, []) := by decide
  have hafter : ((runClaims deletedRun).bind (·.apply (.commit 1 {} 11 "first"))).map
      (fun s => (s.phase 1, s.db.hasKey 2, s.db.nodes.map (·.authKeyId))) =
      some (.committed (newNode "m1" 2) 2 true, true, [some 2]) := by decide
  obtain ⟨s₂, hs⟩ := isSome_iff_exists.mp hsome
  obtain ⟨s₁, hs₁, hs₂⟩ := bind_eq_some_iff.mp hs
  rw [hs, map_some, Option.some.injEq, Prod.mk.injEq, Prod.mk.injEq] at hafter
  rw [hs₁, map_some, Option.some.injEq, Prod.mk.injEq] at hbefore
  exact ⟨s₁, s₂, hs₁, reachable_of_runClaims (fun _ _ _ _ => trivial) hs₁, hbefore.1, hbefore.2, hs₂,
    hafter⟩

/-- A key that nobody has in hand when it is deleted stays deleted. -/
theorem deletedFirst_stays_deleted :
    ∃ s₁, runClaims [.destroy 2] = some s₁ ∧
      ∀ s₂, ((registrations twoKeys).startingAt s₁).Reachable s₂ →
        s₂.db.hasKey 2 = false ∧ ∀ task write spent, s₂.phase task ≠ .committed write 2 spent := by
  have hrun : runClaims [.destroy 2] =
      some { db := twoKeys.destroyKey 2, phase := fun _ => .idle } := rfl
  refine ⟨_, hrun, fun s₂ h₂ => ?_⟩
  have hreach := reachable_of_runClaims (fun _ _ _ _ => trivial) hrun
  have hdeleted : (twoKeys.destroyKey 2).hasKey 2 = false := by decide
  obtain ⟨task, material, -, -, hcaptured, -⟩ | hstays :=
    registrations_after_deletion twoKeys_oneShot.wellFormed hreach hdeleted h₂
  · cases hcaptured
  · exact ⟨hstays.absent, fun task write spent hphase => nomatch hstays.committed task write spent hphase⟩

end Headscale.Db
