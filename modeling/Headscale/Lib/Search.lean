import Mathlib.Order.Interval.Finset.Nat
import Mathlib.Dynamics.PeriodicPts.Defs

/-!
# Bounded searches

Loops that try one candidate after another until one is free. An upward search ends at a bound; a
search along the orbit of a function ends when it is back where it started. Either finds a free
candidate if there is one to find.
-/

namespace Search

/-! ## Upward -/

/-- The first of `n` numbers from `k` on that is free. -/
def firstFrom (free : Nat → Bool) : Nat → Nat → Option Nat
  | 0, _ => none
  | n + 1, k => if free k then some k else firstFrom free n (k + 1)

section Upward

variable {free : Nat → Bool} {n k j : Nat}

lemma firstFrom_some (h : firstFrom free n k = some j) : k ≤ j ∧ j < k + n ∧ free j = true := by
  induction n generalizing k with
  | zero => cases h
  | succ n ih =>
    rw [firstFrom] at h
    split at h
    · cases h
      exact ⟨le_rfl, by omega, ‹_›⟩
    · obtain ⟨hle, hlt, hfree⟩ := ih h
      exact ⟨by omega, by omega, hfree⟩

lemma firstFrom_eq_none_iff :
    firstFrom free n k = none ↔ ∀ j, k ≤ j → j < k + n → free j = false := by
  induction n generalizing k with
  | zero => exact ⟨fun _ j _ _ => by omega, fun _ => rfl⟩
  | succ n ih =>
    rw [firstFrom]
    cases hfree : free k with
    | true =>
      refine iff_of_false (by simp) fun h => ?_
      exact absurd (h k le_rfl (by omega)) (by simp [hfree])
    | false =>
      rw [if_neg (by simp), ih]
      constructor
      · intro h j hle hlt
        obtain rfl | hlt' := Nat.eq_or_lt_of_le hle
        · exact hfree
        · exact h j hlt' (by omega)
      · exact fun h j hle hlt => h j (by omega) (by omega)

/-- Of more candidates than are taken, one is free. -/
theorem exists_firstFrom {α : Type} [DecidableEq α] {candidate : Nat → α}
    (hinj : Function.Injective candidate) (taken : Finset α) (hn : taken.card < n) :
    ∃ j, firstFrom (fun i => candidate i ∉ taken) n k = some j := by
  cases hfirst : firstFrom (fun i => candidate i ∉ taken) n k with
  | some j => exact ⟨j, rfl⟩
  | none =>
    -- then all of the candidates are taken, and they are too many
    have htaken : (Finset.Ico k (k + n)).image candidate ⊆ taken := by
      intro name hname
      obtain ⟨i, hi, rfl⟩ := Finset.mem_image.mp hname
      obtain ⟨hle, hlt⟩ := Finset.mem_Ico.mp hi
      simpa using firstFrom_eq_none_iff.mp hfirst i hle hlt
    have hcard := Finset.card_le_card htaken
    rw [Finset.card_image_of_injective _ hinj, Nat.card_Ico] at hcard
    omega

end Upward

/-! ## Along an orbit -/

section Orbit

variable {α : Type} [DecidableEq α] (free : α → Bool) (next : α → α) (start : α)

/-- The loop that tries a candidate, goes on to the next one and gives up at the start. -/
def scanOrbit : Nat → α → Option α
  | 0, _ => none
  | n + 1, candidate =>
    if free candidate then some candidate
    else if next candidate = start then none
    else scanOrbit n (next candidate)

variable {free next start} {n m : Nat} {candidate found : α}

lemma scanOrbit_some (h : scanOrbit free next start n candidate = some found) :
    free found = true ∧ ∃ k, found = next^[k] candidate := by
  induction n generalizing candidate with
  | zero => cases h
  | succ n ih =>
    rw [scanOrbit] at h
    split at h
    · cases h
      exact ⟨‹_›, 0, rfl⟩
    · split at h
      · cases h
      · obtain ⟨hfree, k, hk⟩ := ih h
        exact ⟨hfree, k + 1, hk⟩

/-- A scan that may go all around gives up only when nothing on the orbit is free. -/
theorem scanOrbit_none (h : scanOrbit free next start n start = none) (hm : 0 < m) (hmn : m ≤ n)
    (hperiod : next^[m] start = start) (k : Nat) : free (next^[k] start) = false := by
  -- what is true of the candidates tried so far is carried along the scan
  have hscan : ∀ n i, scanOrbit free next start n (next^[i] start) = none →
      (∀ j < i, free (next^[j] start) = false) → m ≤ i + n →
      ∃ period, 0 < period ∧ next^[period] start = start ∧
        ∀ j < period, free (next^[j] start) = false := by
    intro n
    induction n with
    | zero => exact fun i _ hseen hle => ⟨m, hm, hperiod, fun j hj => hseen j (by omega)⟩
    | succ n ih =>
      intro i hnone hseen hle
      rw [scanOrbit] at hnone
      split at hnone
      · cases hnone
      rename_i hfree
      have hseen' : ∀ j < i + 1, free (next^[j] start) = false := by
        intro j hj
        obtain rfl | hj := Nat.eq_or_lt_of_le (Nat.le_of_lt_succ hj)
        · simpa using hfree
        · exact hseen j hj
      rw [← Function.iterate_succ_apply' next] at hnone
      split at hnone
      · exact ⟨i + 1, by omega, ‹_›, hseen'⟩
      · exact ih (i + 1) hnone hseen' (by omega)
  obtain ⟨period, hpos, hperiod, hseen⟩ := hscan n 0 h (fun j hj => absurd hj (by omega)) (by omega)
  have hfixed : Function.IsPeriodicPt next period start := hperiod
  rw [← hfixed.iterate_mod_apply k]
  exact hseen _ (Nat.mod_lt _ hpos)

end Orbit

/-! ## Around an interval -/

/-- The next number, and the first one after the last. -/
def wrapSucc (first last candidate : Nat) : Nat := if candidate < last then candidate + 1 else first

section Interval

variable {first last start : Nat} (hfirst : first ≤ start) (hlast : start ≤ last)

include hfirst hlast

lemma iterate_wrapSucc (k : Nat) :
    (wrapSucc first last)^[k] start = first + (start - first + k) % (last - first + 1) := by
  induction k with
  | zero =>
    rw [Function.iterate_zero_apply, Nat.mod_eq_of_lt (by omega)]
    omega
  | succ k ih =>
    rw [Function.iterate_succ_apply', ih, wrapSucc, ← Nat.add_assoc (start - first) k 1]
    generalize start - first + k = offset
    have hlt := Nat.mod_lt offset (show 0 < last - first + 1 by omega)
    rw [Nat.add_mod offset 1]
    by_cases hend : offset % (last - first + 1) < last - first
    · rw [if_pos (by omega), Nat.mod_eq_of_lt (show 1 < last - first + 1 by omega),
        Nat.mod_eq_of_lt (show offset % (last - first + 1) + 1 < last - first + 1 by omega),
        Nat.add_assoc]
    · have hone : offset % (last - first + 1) = last - first := by omega
      rw [if_neg (by omega), hone, Nat.add_mod_mod, Nat.mod_self, Nat.add_zero]

lemma iterate_wrapSucc_mem (k : Nat) :
    first ≤ (wrapSucc first last)^[k] start ∧ (wrapSucc first last)^[k] start ≤ last := by
  rw [iterate_wrapSucc hfirst hlast]
  have hlt := Nat.mod_lt (start - first + k) (show 0 < last - first + 1 by omega)
  omega

lemma iterate_wrapSucc_period : (wrapSucc first last)^[last - first + 1] start = start := by
  rw [iterate_wrapSucc hfirst hlast, Nat.add_mod_right, Nat.mod_eq_of_lt (by omega)]
  omega

/-- Every number of the interval is met. -/
theorem exists_iterate_wrapSucc {j : Nat} (hj : first ≤ j) (hj' : j ≤ last) :
    ∃ k, (wrapSucc first last)^[k] start = j := by
  refine ⟨(j - first) + (last - first + 1) - (start - first), ?_⟩
  rw [iterate_wrapSucc hfirst hlast,
    show start - first + ((j - first) + (last - first + 1) - (start - first)) =
      (j - first) + (last - first + 1) by omega, Nat.add_mod_right, Nat.mod_eq_of_lt (by omega)]
  omega

end Interval

end Search
