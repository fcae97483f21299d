import Mathlib.Data.List.Sort

/-!
# Sets of numbers as sorted lists of spans

A span holds the numbers from one bound to another under a key, and a list of spans stands for the
union of its members. `normalize` sorts a list and joins spans of one key that touch or overlap.
It keeps the set, and two normalised lists for one set are equal, so normal forms can be compared
as lists.

The open windows between the points of an increasing sequence cover its range up to the points.
-/

namespace Interval

open List

/-- The numbers `lo` to `hi` under `key`; a span is never empty. -/
structure Span (κ : Type) where
  key : κ
  lo : Nat
  hi : Nat
  le : lo ≤ hi
deriving DecidableEq, Repr

namespace Span

variable {κ : Type}

/-- The number belongs to the span. -/
def Mem (s : Span κ) (k : κ) (n : Nat) : Prop := s.key = k ∧ s.lo ≤ n ∧ n ≤ s.hi

instance [DecidableEq κ] (s : Span κ) (k : κ) (n : Nat) : Decidable (s.Mem k n) :=
  inferInstanceAs (Decidable (_ ∧ _))

/-- The spans have a number in common. -/
def Overlaps (s t : Span κ) : Prop := s.key = t.key ∧ s.lo ≤ t.hi ∧ t.lo ≤ s.hi

instance [DecidableEq κ] (s t : Span κ) : Decidable (s.Overlaps t) :=
  inferInstanceAs (Decidable (_ ∧ _))

/-- The first span lies inside the second. -/
def Within (s t : Span κ) : Prop := s.key = t.key ∧ t.lo ≤ s.lo ∧ s.hi ≤ t.hi

instance [DecidableEq κ] (s t : Span κ) : Decidable (s.Within t) :=
  inferInstanceAs (Decidable (_ ∧ _))

lemma overlaps_iff {s t : Span κ} : s.Overlaps t ↔ ∃ k n, s.Mem k n ∧ t.Mem k n := by
  constructor
  · rintro ⟨hkey, hlo, hhi⟩
    have hs := s.le
    have ht := t.le
    exact ⟨s.key, max s.lo t.lo, ⟨rfl, by omega, by omega⟩, ⟨hkey.symm, by omega, by omega⟩⟩
  · rintro ⟨k, n, ⟨hks, hls, hhs⟩, ⟨hkt, hlt, hht⟩⟩
    exact ⟨hks.trans hkt.symm, by omega, by omega⟩

end Span

variable {κ : Type}

/-- The number belongs to one of the spans. -/
def Covers (spans : List (Span κ)) (k : κ) (n : Nat) : Prop := ∃ s ∈ spans, s.Mem k n

@[simp] lemma not_covers_nil (k : κ) (n : Nat) : ¬ Covers [] k n := by simp [Covers]

@[simp] lemma covers_cons (s : Span κ) (spans : List (Span κ)) (k : κ) (n : Nat) :
    Covers (s :: spans) k n ↔ s.Mem k n ∨ Covers spans k n := by simp [Covers]

variable (current : Span κ) (spans : List (Span κ)) {a b : List (Span κ)}

lemma covers_congr (h : ∀ s, s ∈ a ↔ s ∈ b) (k : κ) (n : Nat) :
    Covers a k n ↔ Covers b k n := by simp [Covers, h]

variable [LinearOrder κ]

/-! ## Normal form -/

/-- By key, then by lower and by upper bound. -/
def Span.Before (s t : Span κ) : Prop :=
  s.key < t.key ∨ (s.key = t.key ∧ (s.lo < t.lo ∨ (s.lo = t.lo ∧ s.hi ≤ t.hi)))

instance : DecidableRel (Span.Before (κ := κ)) := fun _ _ =>
  inferInstanceAs (Decidable (_ ∨ _))

/-- The span grown to the upper bound of another one. -/
def Span.join (s t : Span κ) : Span κ :=
  ⟨s.key, s.lo, max s.hi t.hi, s.le.trans (le_max_left _ _)⟩

/-- Joins each span of a sorted list with the ones it touches; `current` is the span being grown. -/
def mergeFrom (current : Span κ) : List (Span κ) → List (Span κ)
  | [] => [current]
  | s :: rest =>
    if current.key = s.key ∧ s.lo ≤ current.hi + 1 then mergeFrom (current.join s) rest
    else current :: mergeFrom s rest

def merge : List (Span κ) → List (Span κ)
  | [] => []
  | s :: rest => mergeFrom s rest

def normalize (spans : List (Span κ)) : List (Span κ) :=
  merge (spans.insertionSort Span.Before)

/-- The order that joining needs: by key, then by lower bound. -/
def Span.Starts (s t : Span κ) : Prop := s.key < t.key ∨ (s.key = t.key ∧ s.lo ≤ t.lo)

lemma Span.Before.starts {s t : Span κ} (h : s.Before t) : s.Starts t := by
  rcases h with h | ⟨hkey, h | ⟨h, -⟩⟩
  · exact .inl h
  · exact .inr ⟨hkey, h.le⟩
  · exact .inr ⟨hkey, h.le⟩

lemma Span.Starts.trans {s t u : Span κ} (h : s.Starts t) (h' : t.Starts u) : s.Starts u := by
  rcases h with h | ⟨hk, h⟩ <;> rcases h' with h' | ⟨hk', h'⟩
  · exact .inl (h.trans h')
  · exact .inl (hk' ▸ h)
  · exact .inl (hk ▸ h')
  · exact .inr ⟨hk.trans hk', h.trans h'⟩

/-- There is a gap between the spans. -/
def Span.Apart (s t : Span κ) : Prop := s.key < t.key ∨ (s.key = t.key ∧ s.hi + 1 < t.lo)

instance : Std.Total (Span.Before (κ := κ)) where
  total s t := by
    rcases lt_trichotomy s.key t.key with h | h | h
    · exact .inl (.inl h)
    · rcases lt_trichotomy s.lo t.lo with hl | hl | hl
      · exact .inl (.inr ⟨h, .inl hl⟩)
      · rcases le_total s.hi t.hi with hh | hh
        · exact .inl (.inr ⟨h, .inr ⟨hl, hh⟩⟩)
        · exact .inr (.inr ⟨h.symm, .inr ⟨hl.symm, hh⟩⟩)
      · exact .inr (.inr ⟨h.symm, .inl hl⟩)
    · exact .inr (.inl h)

instance : IsTrans (Span κ) Span.Before where
  trans s t u hst htu := by
    rcases hst with h | ⟨hk, h⟩ <;> rcases htu with h' | ⟨hk', h'⟩
    · exact .inl (h.trans h')
    · exact .inl (hk' ▸ h)
    · exact .inl (hk ▸ h')
    · refine .inr ⟨hk.trans hk', ?_⟩
      omega

lemma sort_starts : (spans.insertionSort Span.Before).Pairwise Span.Starts :=
  (pairwise_insertionSort Span.Before spans).imp Span.Before.starts

/-- Joining keeps the set. -/
theorem covers_mergeFrom (rest : List (Span κ)) (h : (current :: rest).Pairwise Span.Starts)
    (k : κ) (n : Nat) :
    Covers (mergeFrom current rest) k n ↔ current.Mem k n ∨ Covers rest k n := by
  induction rest generalizing current with
  | nil => simp [mergeFrom]
  | cons s rest ih =>
    obtain ⟨hcurrent, hrest⟩ := pairwise_cons.mp h
    rw [mergeFrom]
    split
    · rename_i htouch
      have hle : current.lo ≤ s.lo := by
        rcases hcurrent s (by simp) with hlt | ⟨-, hle⟩
        · exact absurd htouch.1 hlt.ne
        · exact hle
      rw [ih (current.join s) (pairwise_cons.mpr
        ⟨fun t ht => hcurrent t (by simp [ht]), hrest.of_cons⟩), covers_cons, ← or_assoc]
      -- The grown span holds exactly the numbers of the two it joins.
      refine or_congr_left ⟨?_, ?_⟩
      · rintro ⟨hk, hlo, hhi⟩
        simp only [Span.join] at hk hlo hhi
        by_cases hn : n ≤ current.hi
        · exact .inl ⟨hk, hlo, hn⟩
        · exact .inr ⟨htouch.1 ▸ hk, by omega, by omega⟩
      · rintro (⟨hk, hlo, hhi⟩ | ⟨hk, hlo, hhi⟩)
        · exact ⟨hk, hlo, by simp only [Span.join]; omega⟩
        · exact ⟨htouch.1.trans hk, by simp only [Span.join]; omega,
            by simp only [Span.join]; omega⟩
    · rw [covers_cons, ih s hrest, covers_cons]

lemma starts_mergeFrom (rest : List (Span κ)) (h : (current :: rest).Pairwise Span.Starts) :
    ∀ t ∈ mergeFrom current rest, current.Starts t := by
  induction rest generalizing current with
  | nil =>
    intro t ht
    obtain rfl : t = current := by simpa [mergeFrom] using ht
    exact .inr ⟨rfl, le_refl _⟩
  | cons s rest ih =>
    obtain ⟨hcurrent, hrest⟩ := pairwise_cons.mp h
    intro t ht
    rw [mergeFrom] at ht
    split at ht
    · exact ih (current.join s) (pairwise_cons.mpr
        ⟨fun u hu => hcurrent u (by simp [hu]), hrest.of_cons⟩) t ht
    · rcases mem_cons.mp ht with rfl | ht
      · exact .inr ⟨rfl, le_refl _⟩
      · exact (hcurrent s (by simp)).trans (ih s hrest t ht)

/-- Joining leaves a gap between any two spans. -/
theorem apart_mergeFrom (rest : List (Span κ)) (h : (current :: rest).Pairwise Span.Starts) :
    (mergeFrom current rest).Pairwise Span.Apart := by
  induction rest generalizing current with
  | nil => simp [mergeFrom]
  | cons s rest ih =>
    obtain ⟨hcurrent, hrest⟩ := pairwise_cons.mp h
    rw [mergeFrom]
    split
    · exact ih _ (pairwise_cons.mpr
        ⟨fun t ht => hcurrent t (by simp [ht]), hrest.of_cons⟩)
    rename_i htouch
    refine pairwise_cons.mpr ⟨?_, ih s hrest⟩
    intro t ht
    rcases hcurrent s (by simp) with hlt | ⟨hkey, -⟩ <;>
      rcases starts_mergeFrom s rest hrest t ht with hlt' | ⟨hkey', hlo⟩
    · exact .inl (hlt.trans hlt')
    · exact .inl (hkey' ▸ hlt)
    · exact .inl (hkey ▸ hlt')
    · refine .inr ⟨hkey.trans hkey', ?_⟩
      have : ¬ s.lo ≤ current.hi + 1 := fun hle => htouch ⟨hkey, hle⟩
      omega

@[simp] lemma covers_normalize (k : κ) (n : Nat) :
    Covers (normalize spans) k n ↔ Covers spans k n := by
  have hsort := sort_starts spans
  have hmem : ∀ s, s ∈ spans.insertionSort Span.Before ↔ s ∈ spans := fun s =>
    (perm_insertionSort _ _).mem_iff
  rw [← covers_congr hmem, normalize]
  cases hs : spans.insertionSort Span.Before with
  | nil => rfl
  | cons s rest =>
    rw [hs] at hsort
    rw [merge, covers_mergeFrom s rest hsort, covers_cons]

lemma apart_normalize : (normalize spans).Pairwise Span.Apart := by
  have hsort := sort_starts spans
  rw [normalize]
  cases hs : spans.insertionSort Span.Before with
  | nil => simp [merge]
  | cons s rest =>
    rw [hs] at hsort
    exact apart_mergeFrom s rest hsort

/-! ## Normal forms are equal when their sets are -/

variable {rest : List (Span κ)}

/-- The first span of a list with gaps starts at the least number the list holds. -/
theorem first_starts {s : Span κ} (h : (s :: rest).Pairwise Span.Apart) {k : κ} {n : Nat}
    (hn : Covers (s :: rest) k n) : s.key < k ∨ (s.key = k ∧ s.lo ≤ n) := by
  obtain ⟨hapart, -⟩ := pairwise_cons.mp h
  rcases (covers_cons _ _ _ _).mp hn with ⟨hk, hlo, -⟩ | ⟨t, ht, rfl, hlo, -⟩
  · exact .inr ⟨hk, hlo⟩
  · have hs := s.le
    rcases hapart t ht with hlt | ⟨hk, hgap⟩
    · exact .inl hlt
    · exact .inr ⟨hk, by omega⟩

/-- The number after the first span of a list with gaps is not in the list. -/
theorem not_covers_after_first {s : Span κ} (h : (s :: rest).Pairwise Span.Apart) :
    ¬ Covers (s :: rest) s.key (s.hi + 1) := by
  obtain ⟨hapart, -⟩ := pairwise_cons.mp h
  rw [covers_cons]
  rintro (⟨-, -, hhi⟩ | ⟨t, ht, hk, hlo, -⟩)
  · omega
  · rcases hapart t ht with hlt | ⟨-, hgap⟩
    · exact hlt.ne hk.symm
    · omega

lemma not_covers_rest_of_mem {s : Span κ} (h : (s :: rest).Pairwise Span.Apart) {k : κ}
    {n : Nat} (hn : s.Mem k n) : ¬ Covers rest k n := by
  obtain ⟨hapart, -⟩ := pairwise_cons.mp h
  obtain ⟨rfl, -, hhi⟩ := hn
  rintro ⟨t, ht, hk, hlo, -⟩
  rcases hapart t ht with hlt | ⟨-, hgap⟩
  · exact hlt.ne hk.symm
  · omega

lemma first_le {s t : Span κ} (hb : (t :: b).Pairwise Span.Apart)
    (h : ∀ k n, Covers (s :: a) k n → Covers (t :: b) k n) :
    t.key < s.key ∨ (t.key = s.key ∧ t.lo ≤ s.lo) :=
  first_starts hb (h _ _ ((covers_cons _ _ _ _).mpr (.inl ⟨rfl, le_refl _, s.le⟩)))

lemma first_eq {s t : Span κ} (ha : (s :: a).Pairwise Span.Apart)
    (hb : (t :: b).Pairwise Span.Apart) (h : ∀ k n, Covers (s :: a) k n ↔ Covers (t :: b) k n) :
    s = t := by
  have hs := s.le
  have ht := t.le
  have hst := first_le hb fun k n => (h k n).mp
  have hts := first_le ha fun k n => (h k n).mpr
  obtain ⟨hkey, hlo⟩ : s.key = t.key ∧ s.lo = t.lo := by
    rcases hst with hlt | ⟨hk, hle⟩ <;> rcases hts with hlt' | ⟨hk', hle'⟩
    · exact absurd hlt' hlt.asymm
    · exact absurd hk'.symm hlt.ne
    · exact absurd hk.symm hlt'.ne
    · exact ⟨hk', by omega⟩
  -- A longer span would hold the number right after the shorter one.
  have hle : t.hi ≤ s.hi := by
    by_contra hlt
    refine not_covers_after_first ha ((h _ _).mpr ?_)
    exact (covers_cons _ _ _ _).mpr (.inl ⟨hkey.symm, by omega, by omega⟩)
  have hge : s.hi ≤ t.hi := by
    by_contra hlt
    refine not_covers_after_first hb ((h _ _).mp ?_)
    exact (covers_cons _ _ _ _).mpr (.inl ⟨hkey, by omega, by omega⟩)
  cases s
  cases t
  simp only [Span.mk.injEq] at *
  exact ⟨hkey, hlo, by omega⟩

lemma eq_of_apart (ha : a.Pairwise Span.Apart) (hb : b.Pairwise Span.Apart)
    (h : ∀ k n, Covers a k n ↔ Covers b k n) : a = b := by
  induction a generalizing b with
  | nil =>
    cases b with
    | nil => rfl
    | cons t b =>
      have := (h t.key t.lo).mpr ((covers_cons _ _ _ _).mpr (.inl ⟨rfl, le_refl _, t.le⟩))
      simp at this
  | cons s a ih =>
    cases b with
    | nil =>
      have := (h s.key s.lo).mp ((covers_cons _ _ _ _).mpr (.inl ⟨rfl, le_refl _, s.le⟩))
      simp at this
    | cons t b =>
      obtain rfl := first_eq ha hb h
      congr 1
      refine ih ha.of_cons hb.of_cons fun k n => ?_
      by_cases hs : s.Mem k n
      · simp [not_covers_rest_of_mem ha hs, not_covers_rest_of_mem hb hs]
      · simpa [hs] using h k n

section Windows

variable {α : Type} [LinearOrder α] {t : ℕ → α} {n : ℕ}

lemma lt_of_steps (hsteps : ∀ i < n, t i < t (i + 1)) {i j : ℕ} (hij : i < j) (hj : j ≤ n) :
    t i < t j := by
  induction j, hij using Nat.le_induction with
  | base => exact hsteps i hj
  | succ j _ ih => exact (ih (by omega)).trans (hsteps j hj)

/-- Of the open windows between consecutive points one contains a value in their range, and only one,
unless the value is a point itself. -/
theorem existsUnique_window_iff (hsteps : ∀ i < n, t i < t (i + 1)) {e : α} (hfirst : t 0 < e)
    (hlast : e < t n) : (∃! i, i < n ∧ t i < e ∧ e < t (i + 1)) ↔ ∀ i ≤ n, t i ≠ e := by
  -- windows that contain one value do not lie before one another
  have hle : ∀ {i j : ℕ}, j < n → t i < e → e < t (j + 1) → i ≤ n → i ≤ j := by
    intro i j hj hi he hin
    by_contra hlt
    rcases (show j + 1 ≤ i by omega).eq_or_lt with heq | hlt
    · exact (heq ▸ he).not_gt hi
    · exact ((lt_of_steps hsteps hlt hin).trans hi).not_gt he
  constructor
  · rintro ⟨i, ⟨hi, hlow, hhigh⟩, -⟩ j hj rfl
    rcases lt_trichotomy j (i + 1) with hji | rfl | hji
    · rcases (show j ≤ i by omega).eq_or_lt with rfl | hji
      · exact lt_irrefl _ hlow
      · exact (lt_of_steps hsteps hji hi.le).not_gt hlow
    · exact lt_irrefl _ hhigh
    · exact (lt_of_steps hsteps hji hj).not_gt hhigh
  · intro hne
    -- the first point after the value ends its window
    have hex : ∃ i, e < t i := ⟨n, hlast⟩
    obtain ⟨i, hi⟩ : ∃ i, Nat.find hex = i + 1 := by
      refine Nat.exists_eq_succ_of_ne_zero fun hzero => ?_
      exact (hzero ▸ Nat.find_spec hex).not_gt hfirst
    have hin : i + 1 ≤ n := hi ▸ Nat.find_min' hex hlast
    have hlow : t i < e := by
      refine lt_of_le_of_ne (not_lt.mp (Nat.find_min hex (by omega))) (hne i (by omega))
    have hhigh : e < t (i + 1) := hi ▸ Nat.find_spec hex
    refine ⟨i, ⟨hin, hlow, hhigh⟩, ?_⟩
    rintro j ⟨hj, hlow', hhigh'⟩
    exact le_antisymm (hle hin hlow' hhigh hj.le) (hle hj hlow hhigh' (by omega))

end Windows

end Interval
