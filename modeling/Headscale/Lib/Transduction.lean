import Mathlib.Data.List.Basic

/-!
# Transductions

A transduction relates a text that is read to the text that is written for it. A reader that keeps what
it has written and what is left to read, and that goes on with one transduction after the other, is
described by the condition that each of them leaves to the next.
-/

/-- What is read, and what is written for it. -/
abbrev Transduction (α : Type) := List α → List α → Prop

namespace Transduction

variable {α : Type}

/-- One text is written for one text. -/
def word (raw out : List α) : Transduction α := fun r o => r = raw ∧ o = out

/-- One transduction after the other. -/
def comp (R S : Transduction α) : Transduction α := fun raw out =>
  ∃ raw₁ out₁ raw₂ out₂, R raw₁ out₁ ∧ S raw₂ out₂ ∧ raw = raw₁ ++ raw₂ ∧ out = out₁ ++ out₂

/-- Either of two transductions. -/
def union (R S : Transduction α) : Transduction α := fun raw out => R raw out ∨ S raw out

/-- A condition on what has been written and what is left. -/
abbrev Goal (α : Type) := List α → List α → Prop

/-- The transduction is next, and leaves the goal to what follows. -/
def On (R : Transduction α) (K : Goal α) : Goal α := fun done rest =>
  ∃ raw out rest', R raw out ∧ rest = raw ++ rest' ∧ K (done ++ out) rest'

variable {R S : Transduction α} {K K' : Goal α} {done rest : List α}

lemma on_word {raw out : List α} :
    On (word raw out) K done rest ↔ ∃ rest', rest = raw ++ rest' ∧ K (done ++ out) rest' := by
  constructor
  · rintro ⟨_, _, rest', ⟨rfl, rfl⟩, hrest, h⟩
    exact ⟨rest', hrest, h⟩
  · rintro ⟨rest', hrest, h⟩
    exact ⟨raw, out, rest', ⟨rfl, rfl⟩, hrest, h⟩

lemma on_comp : On (comp R S) K = On R (On S K) := by
  funext done rest
  apply propext
  constructor
  · rintro ⟨_, _, rest', ⟨raw₁, out₁, raw₂, out₂, hR, hS, rfl, rfl⟩, rfl, h⟩
    exact ⟨raw₁, out₁, raw₂ ++ rest', hR, by simp, raw₂, out₂, rest', hS, rfl, by simpa using h⟩
  · rintro ⟨raw₁, out₁, _, hR, rfl, raw₂, out₂, rest', hS, rfl, h⟩
    exact ⟨raw₁ ++ raw₂, out₁ ++ out₂, rest', ⟨raw₁, out₁, raw₂, out₂, hR, hS, rfl, rfl⟩, by simp,
      by simpa using h⟩

lemma on_union : On (union R S) K done rest ↔ On R K done rest ∨ On S K done rest := by
  constructor
  · rintro ⟨raw, out, rest', hR | hS, hrest, h⟩
    · exact .inl ⟨raw, out, rest', hR, hrest, h⟩
    · exact .inr ⟨raw, out, rest', hS, hrest, h⟩
  · rintro (⟨raw, out, rest', hR, hrest, h⟩ | ⟨raw, out, rest', hS, hrest, h⟩)
    · exact ⟨raw, out, rest', .inl hR, hrest, h⟩
    · exact ⟨raw, out, rest', .inr hS, hrest, h⟩

lemma on_congr {R' : Transduction α} (hR : ∀ raw out, R raw out ↔ R' raw out) :
    On R K done rest ↔ On R' K done rest := by
  simp only [On, hR]

end Transduction
