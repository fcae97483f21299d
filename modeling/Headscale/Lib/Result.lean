import Mathlib.Data.List.Forall2

/-!
# Computations that may fail

Inversion of computations in `Except`: a sequence that succeeds has steps that succeed.
-/

namespace Result

variable {ε α β : Type} {f : α → Except ε β} {xs : List α} {b : β}

lemma bind_eq_ok {x : Except ε α} :
    (x >>= f) = .ok b ↔ ∃ a, x = .ok a ∧ f a = .ok b := by
  cases x with
  | error | ok => simp [bind, Except.bind]

/-- A missing value that is turned into an error. -/
theorem elim_eq_ok {x : Option α} {error : ε} :
    x.elim (.error error) f = .ok b ↔ ∃ a, x = some a ∧ f a = .ok b := by
  cases x <;> simp

/-- What every step of a loop that may fail keeps, the whole loop keeps. -/
theorem foldlM_invariant {f : β → α → Except ε β} {P : β → Prop}
    (hstep : ∀ b a b', P b → f b a = .ok b' → P b') {b' : β} (hb : P b)
    (h : xs.foldlM f b = .ok b') : P b' := by
  induction xs generalizing b with
  | nil =>
    cases h
    exact hb
  | cons x xs ih =>
    obtain ⟨mid, hmid, h⟩ := bind_eq_ok.mp h
    exact ih (hstep b x mid hb hmid) h

lemma mapM_spec {P : α → β → Prop} (h : ∀ x ∈ xs, ∃ y, f x = .ok y ∧ P x y) :
    ∃ ys, xs.mapM f = .ok ys ∧ List.Forall₂ P xs ys := by
  induction xs with
  | nil => exact ⟨[], rfl, .nil⟩
  | cons x xs ih =>
    obtain ⟨y, hy, hp⟩ := h x (by simp)
    obtain ⟨ys, hys, hps⟩ := ih fun x hx => h x (List.mem_cons_of_mem _ hx)
    exact ⟨y :: ys, by rw [List.mapM_cons, hy, hys]; rfl, .cons hp hps⟩

/-- A loop that ends well has ended every turn well. -/
theorem exists_ok_of_foldlM {step : β → α → Except ε β} {init last : β}
    (h : xs.foldlM step init = .ok last) : ∀ x ∈ xs, ∃ b b', step b x = .ok b' := by
  induction xs generalizing init with
  | nil => simp
  | cons y ys ih =>
    obtain ⟨mid, hmid, hrest⟩ := bind_eq_ok.mp h
    exact List.forall_mem_cons.mpr ⟨⟨init, mid, hmid⟩, ih hrest⟩

lemma exists_ok_of_mapM {ys : List β} (h : xs.mapM f = .ok ys) : ∀ x ∈ xs, ∃ y, f x = .ok y := by
  induction xs generalizing ys with
  | nil => simp
  | cons x xs ih =>
    rw [List.mapM_cons] at h
    obtain ⟨y, hy, hrest⟩ := bind_eq_ok.mp h
    obtain ⟨zs, hzs, -⟩ := bind_eq_ok.mp hrest
    exact List.forall_mem_cons.mpr ⟨⟨y, hy⟩, ih hzs⟩

end Result
