import Mathlib.Data.List.Basic

/-!
# Loops with a size

A loop takes turns on a state: a turn fails, ends with a result, or goes on with a state of smaller
size. The size bounds the turns, so a run is a total function, and it satisfies the equation of the
loop without the bound. A relation that satisfies the same equation is what the loop computes.
-/

/-- A loop over states `σ` with errors `ε` and results `ρ`. -/
structure Loop (σ ε ρ : Type) where
  step : σ → Except ε (σ ⊕ ρ)
  size : σ → Nat
  decreases : ∀ {s s' : σ}, step s = .ok (.inl s') → size s' < size s

namespace Loop

variable {σ ε ρ : Type} (loop : Loop σ ε ρ)

/-- The first turns of a run, as many as the size of its state allows. -/
def runWithin : (turns : Nat) → (s : σ) → loop.size s < turns → Except ε ρ
  | turns + 1, s, h =>
    match hstep : loop.step s with
    | .error e => .error e
    | .ok (.inr r) => .ok r
    | .ok (.inl s') =>
      runWithin turns s' (Nat.lt_of_lt_of_le (loop.decreases hstep) (Nat.le_of_lt_succ h))

def run (s : σ) : Except ε ρ := loop.runWithin (loop.size s + 1) s (Nat.lt_succ_self _)

variable {loop} {P : σ → Prop} {Q : ρ → Prop} {s : σ}

lemma runWithin_congr {m n : Nat} (hm : loop.size s < m) (hn : loop.size s < n) :
    loop.runWithin m s hm = loop.runWithin n s hn := by
  induction m generalizing n s with
  | zero => exact absurd hm (Nat.not_lt_zero _)
  | succ m ih =>
    cases n with
    | zero => exact absurd hn (Nat.not_lt_zero _)
    | succ n =>
      rw [runWithin, runWithin]
      split
      · rfl
      · rfl
      · exact ih _ _

/-! ## The equation of the loop -/

lemma run_error {e : ε} (h : loop.step s = .error e) : loop.run s = .error e := by
  rw [run, runWithin]
  split <;> simp_all

lemma run_done {r : ρ} (h : loop.step s = .ok (.inr r)) : loop.run s = .ok r := by
  rw [run, runWithin]
  split <;> simp_all

lemma run_next {s s' : σ} (h : loop.step s = .ok (.inl s')) : loop.run s = loop.run s' := by
  rw [run, runWithin]
  split <;> rename_i hstep <;> rw [h] at hstep <;> cases hstep
  exact runWithin_congr _ _

/-- The loop with a note of the state that it fails in. -/
def noting {α : Type} (loop : Loop σ ε ρ) (note : σ → α) : Loop σ (ε × α) ρ where
  step s := (loop.step s).mapError fun e => (e, note s)
  size := loop.size
  decreases {s s'} h := by
    cases hstep : loop.step s with
    | error e => simp [hstep, Except.mapError] at h
    | ok next =>
      simp only [hstep, Except.mapError, Except.ok.injEq] at h
      exact loop.decreases (h ▸ hstep)

lemma run_noting {α : Type} (note : σ → α) :
    ((loop.noting note).run s).mapError Prod.fst = loop.run s := by
  induction hsize : loop.size s using Nat.strongRecOn generalizing s with
  | _ n ih =>
    have hnoting : (loop.noting note).step s = (loop.step s).mapError fun e => (e, note s) := rfl
    cases hstep : loop.step s with
    | error e =>
      rw [hstep] at hnoting
      rw [run_error hstep, run_error hnoting]
      rfl
    | ok next =>
      rw [hstep] at hnoting
      cases next with
      | inl s' =>
        rw [run_next hstep, run_next hnoting]
        exact ih _ (hsize ▸ loop.decreases hstep) rfl
      | inr r =>
        rw [run_done hstep, run_done hnoting]
        rfl

/-! ## What a loop computes -/

/-- One turn of the loop, with `P` for the states and `Q` for the results it may lead to. -/
def Follows (loop : Loop σ ε ρ) (P : σ → Prop) (Q : ρ → Prop) (s : σ) : Prop :=
  match loop.step s with
  | .error _ => False
  | .ok (.inl s') => P s'
  | .ok (.inr r) => Q r

lemma follows_done {r : ρ} (h : loop.step s = .ok (.inr r)) :
    loop.Follows P Q s ↔ Q r := by rw [Follows, h]

/-- A predicate that satisfies the equation of the loop holds of the states whose runs end in a result
of the kind asked for. The equation is needed only where an invariant of the loop holds. -/
theorem run_ok_iff {I P : σ → Prop} (hI : ∀ s s', I s → loop.step s = .ok (.inl s') → I s')
    (hP : ∀ s, I s → (P s ↔ loop.Follows P Q s)) (hs : I s) :
    (∃ r, loop.run s = .ok r ∧ Q r) ↔ P s := by
  induction hsize : loop.size s using Nat.strongRecOn generalizing s with
  | _ n ih =>
    rw [hP s hs]
    cases hstep : loop.step s with
    | error e => simp [run_error hstep, Follows, hstep]
    | ok next =>
      cases next with
      | inl s' =>
        rw [run_next hstep, Follows, hstep]
        exact ih _ (hsize ▸ loop.decreases hstep) (hI s s' hs hstep) rfl
      | inr r => simp [run_done hstep, follows_done hstep]

/-- What every turn keeps holds at the end of a run. -/
theorem run_ok_of_invariant {I : σ → Prop} (hI : ∀ s s', I s → loop.step s = .ok (.inl s') → I s')
    (hQ : ∀ s r, I s → loop.step s = .ok (.inr r) → Q r) (hs : I s) {r : ρ}
    (h : loop.run s = .ok r) : Q r := by
  induction hsize : loop.size s using Nat.strongRecOn generalizing s with
  | _ n ih =>
    cases hstep : loop.step s with
    | error e =>
      rw [run_error hstep] at h
      cases h
    | ok next =>
      cases next with
      | inl s' =>
        rw [run_next hstep] at h
        exact ih _ (hsize ▸ loop.decreases hstep) (hI s s' hs hstep) h rfl
      | inr r' =>
        rw [run_done hstep] at h
        exact Except.ok.inj h ▸ hQ s r' hs hstep

end Loop
