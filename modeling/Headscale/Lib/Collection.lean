import Mathlib.Data.List.Sort
import Mathlib.Data.List.Dedup

/-!
# Lists as sets and maps

Lists that stand for sets, multimaps and maps kept in key order. What is computed from such a list
depends on its members only, not on their order: each operation has a membership lemma and, where
its result is in normal form, a congruence lemma.
-/

namespace Collection

open List

lemma toList_inj {α : Type} {a b : Option α} : a.toList = b.toList ↔ a = b := by
  cases a <;> cases b <;> simp

/-- The beginning of a list of at most one value is one too. -/
theorem exists_toList_of_append {α : Type} {a : Option α} {left right : List α}
    (h : a.toList = left ++ right) : ∃ b : Option α, b.toList = left := by
  cases left with
  | nil => exact ⟨none, rfl⟩
  | cons x rest =>
    cases a with
    | none => cases h
    | some y =>
      obtain ⟨-, hnil⟩ := List.cons.inj h
      rw [(append_eq_nil_iff.mp hnil.symm).1]
      exact ⟨some x, rfl⟩

lemma exists_toList_of_length {α : Type} {xs : List α} (h : xs.length ≤ 1) :
    ∃ a : Option α, a.toList = xs := by
  cases xs with
  | nil => exact ⟨none, rfl⟩
  | cons x rest =>
    obtain rfl := eq_nil_of_length_eq_zero (Nat.le_zero.mp (Nat.le_of_succ_le_succ h))
    exact ⟨some x, rfl⟩

/-- A list of at most one value has no other order. -/
theorem eq_toList_of_perm {α : Type} {a : Option α} {xs : List α} (h : a.toList.Perm xs) :
    xs = a.toList := by
  cases a with
  | none => exact nil_perm.mp h
  | some x => exact singleton_perm.mp h |>.symm

lemma eq_nil_congr {α : Type} {a b : List α} (h : ∀ x, x ∈ a ↔ x ∈ b) : a = [] ↔ b = [] := by
  simp only [eq_nil_iff_forall_not_mem, h]

/-! ## Insertion without repetition -/

section PushUnique

variable {α : Type} [DecidableEq α]

def pushUnique (out : List α) (value : α) : List α :=
  if value ∈ out then out else out ++ [value]

variable (values : List α)

lemma mem_foldl_pushUnique (out : List α) (x : α) :
    x ∈ values.foldl pushUnique out ↔ x ∈ out ∨ x ∈ values := by
  induction values generalizing out with
  | nil => simp
  | cons v values ih =>
    have hpush : x ∈ pushUnique out v ↔ x ∈ out ∨ x = v := by
      unfold pushUnique
      split
      · rename_i hv
        exact ⟨.inl, fun h => h.elim id fun hx => hx ▸ hv⟩
      · simp
    rw [foldl_cons, ih, hpush, mem_cons, or_assoc]

lemma nodup_foldl_pushUnique {out : List α} (h : out.Nodup) :
    (values.foldl pushUnique out).Nodup := by
  induction values generalizing out with
  | nil => exact h
  | cons v values ih =>
    refine ih ?_
    unfold pushUnique
    split
    · exact h
    · rename_i hv
      refine nodup_append.mpr ⟨h, nodup_singleton v, fun x hx y hy heq => hv ?_⟩
      rwa [← mem_singleton.mp hy, ← heq]

end PushUnique

/-! ## The lowest key -/

section Lowest

variable {α : Type}

/-- The lowest key of the members with a property, found in one pass; zero stands for none. -/
def lowest (key : α → Nat) (p : α → Bool) (start : Nat) (xs : List α) : Nat :=
  xs.foldl (fun best x => if p x ∧ (best = 0 ∨ key x < best) then key x else best) start

lemma lowest_spec {key : α → Nat} {p : α → Bool} {xs : List α} (start : Nat)
    (hkeys : ∀ x ∈ xs, key x ≠ 0) :
    (lowest key p start xs = start ∨ ∃ x ∈ xs, p x = true ∧ key x = lowest key p start xs) ∧
      (start ≠ 0 → lowest key p start xs ≠ 0 ∧ lowest key p start xs ≤ start) ∧
      ∀ x ∈ xs, p x = true → lowest key p start xs ≠ 0 ∧ lowest key p start xs ≤ key x := by
  induction xs generalizing start with
  | nil => exact ⟨.inl rfl, fun h => ⟨h, le_refl _⟩, by simp⟩
  | cons x xs ih =>
    obtain ⟨hx, hkeys⟩ := forall_mem_cons.mp hkeys
    by_cases htaken : p x = true ∧ (start = 0 ∨ key x < start)
    · have hstep : lowest key p start (x :: xs) = lowest key p (key x) xs := by
        simp only [lowest, foldl_cons, if_pos htaken]
      obtain ⟨hfound, hstart, hall⟩ := ih (key x) hkeys
      obtain ⟨hne, hle⟩ := hstart hx
      rw [hstep]
      refine ⟨.inr ?_, fun hstart => ⟨hne, by omega⟩, forall_mem_cons.mpr ⟨fun _ => ⟨hne, hle⟩, hall⟩⟩
      obtain heq | ⟨y, hy, hpy, heq⟩ := hfound
      · exact ⟨x, mem_cons_self, htaken.1, heq.symm⟩
      · exact ⟨y, mem_cons_of_mem _ hy, hpy, heq⟩
    · have hstep : lowest key p start (x :: xs) = lowest key p start xs := by
        simp only [lowest, foldl_cons, if_neg htaken]
      obtain ⟨hfound, hstart, hall⟩ := ih start hkeys
      rw [hstep]
      refine ⟨hfound.imp_right fun ⟨y, hy, h⟩ => ⟨y, mem_cons_of_mem _ hy, h⟩, hstart,
        forall_mem_cons.mpr ⟨fun hpx => ?_, hall⟩⟩
      -- the member was not taken since the best so far is as low
      have hbest : start ≠ 0 ∧ start ≤ key x := by
        rw [not_and, not_or, not_lt] at htaken
        exact htaken hpx
      obtain ⟨hne, hle⟩ := hstart hbest.1
      exact ⟨hne, hle.trans hbest.2⟩

end Lowest

/-! ## Sorted sets -/

section SortDedup

variable {α : Type} [LinearOrder α]

/-- The members in order, once each. -/
def sortDedup (values : List α) : List α := values.dedup.insertionSort (· ≤ ·)

@[simp] lemma mem_sortDedup {values : List α} {x : α} : x ∈ sortDedup values ↔ x ∈ values := by
  simp [sortDedup]

variable (values : List α)

lemma nodup_sortDedup : (sortDedup values).Nodup :=
  (perm_insertionSort _ _).nodup_iff.mpr (nodup_dedup values)

lemma pairwise_sortDedup : (sortDedup values).Pairwise (· < ·) :=
  (pairwise_insertionSort (· ≤ ·) values.dedup).imp₂ (fun _ _ hle hne => lt_of_le_of_ne hle hne)
    (nodup_sortDedup values)

/-- A sorted set depends on its members only. -/
theorem sortDedup_congr {a b : List α} (h : ∀ x, x ∈ a ↔ x ∈ b) : sortDedup a = sortDedup b := by
  have hperm : (sortDedup a).Perm (sortDedup b) :=
    (perm_ext_iff_of_nodup (nodup_sortDedup a) (nodup_sortDedup b)).mpr (by simpa using h)
  have ha : (sortDedup a).Pairwise (· ≤ ·) := pairwise_insertionSort _ _
  have hb : (sortDedup b).Pairwise (· ≤ ·) := pairwise_insertionSort _ _
  exact hperm.eq_of_pairwise (fun x y _ _ => le_antisymm) ha hb

end SortDedup

/-! ## Association lists -/

section Lookup

variable {κ α : Type} [DecidableEq κ]

lemma mem_of_lookup {entries : List (κ × α)} {key : κ} {value : α}
    (h : entries.lookup key = some value) : (key, value) ∈ entries := by
  induction entries with
  | nil => simp at h
  | cons entry rest ih =>
    rw [lookup_cons] at h
    split at h
    · rename_i hkey
      cases h
      obtain rfl := eq_of_beq hkey
      simp
    · exact mem_cons_of_mem _ (ih h)

lemma lookup_cons_of_ne {entries : List (κ × α)} {key k : κ} {value : α} (h : k ≠ key) :
    List.lookup k ((key, value) :: entries) = entries.lookup k := by
  simp [lookup_cons, beq_eq_false_iff_ne.mpr h]

/-- Looking up a key in a table of a function. -/
theorem lookup_map_self (keys : List κ) (f : κ → α) (key : κ) :
    (keys.map fun k => (k, f k)).lookup key = if key ∈ keys then some (f key) else none := by
  induction keys with
  | nil => rfl
  | cons k keys ih =>
    rw [map_cons, lookup_cons]
    by_cases hk : key = k
    · simp [hk]
    · simp [hk, beq_eq_false_iff_ne.mpr hk, ih]

/-- With distinct keys, the search for the key of a member finds the member. -/
theorem find_key {β : Type} {xs : List β} {key : β → κ} (hkeys : (xs.map key).Nodup) {x : β}
    (hx : x ∈ xs) : xs.find? (fun y => key y = key x) = some x := by
  have hsome : (xs.find? (fun y => key y = key x)).isSome := by
    rw [find?_isSome]
    exact ⟨x, hx, by simp⟩
  obtain ⟨found, hfound⟩ := Option.isSome_iff_exists.mp hsome
  have hmem := mem_of_find?_eq_some hfound
  have hkey : key found = key x := by simpa using find?_some hfound
  rw [hfound, inj_on_of_nodup_map hkeys hmem hx hkey]

lemma find_reverse_key {β : Type} {xs : List β} {key : β → κ} (hkeys : (xs.map key).Nodup) {x : β}
    (hx : x ∈ xs) : xs.reverse.find? (fun y => key y = key x) = some x := by
  refine find_key ?_ (mem_reverse.mpr hx)
  rw [map_reverse]
  exact nodup_reverse.mpr hkeys

/-- The values of a key in a map of lists. -/
def valuesAt (entries : List (κ × List α)) (key : κ) : List α := (entries.lookup key).getD []

end Lookup

/-! ## Ordered maps of lists -/

section EntryExtend

variable {κ α : Type} [LinearOrder κ]

/-- Adds values to the entry of a key, in a map kept in key order. -/
def entryExtend (entries : List (κ × List α)) (key : κ) (values : List α) : List (κ × List α) :=
  match entries with
  | [] => [(key, values)]
  | (k, old) :: rest =>
    if key < k then (key, values) :: (k, old) :: rest
    else if key = k then (k, old ++ values) :: rest
    else (k, old) :: entryExtend rest key values

/-- The keys are in order, once each. -/
def KeysInOrder (entries : List (κ × List α)) : Prop := (entries.map Prod.fst).Pairwise (· < ·)

variable {entries : List (κ × List α)}

lemma mem_keys_entryExtend {key k : κ} {values : List α}
    (h : k ∈ (entryExtend entries key values).map Prod.fst) :
    k = key ∨ k ∈ entries.map Prod.fst := by
  induction entries with
  | nil => simpa [entryExtend] using h
  | cons entry rest ih =>
    rw [entryExtend] at h
    split at h
    · simpa using h
    split at h
    · exact .inr (by simpa using h)
    rw [map_cons, mem_cons] at h ⊢
    rcases h with h | h
    · exact .inr (.inl h)
    · exact (ih h).imp id .inr

lemma keysInOrder_entryExtend (h : KeysInOrder entries) (key : κ) (values : List α) :
    KeysInOrder (entryExtend entries key values) := by
  induction entries with
  | nil => simp [entryExtend, KeysInOrder]
  | cons entry rest ih =>
    obtain ⟨hfirst, hrest⟩ := pairwise_cons.mp h
    rw [entryExtend]
    split
    · rename_i hlt
      refine pairwise_cons.mpr ⟨?_, h⟩
      intro x hx
      rcases mem_cons.mp hx with rfl | hx
      exacts [hlt, hlt.trans (hfirst x hx)]
    · split
      · exact h
      rename_i hge hne
      refine pairwise_cons.mpr ⟨?_, ih hrest⟩
      intro x hx
      rcases mem_keys_entryExtend hx with rfl | hx
      · exact lt_of_le_of_ne (not_lt.mp hge) (Ne.symm hne)
      · exact hfirst x hx

lemma lookup_eq_none_of_lt {key : κ} (h : ∀ k ∈ entries.map Prod.fst, key < k) :
    entries.lookup key = none := by
  rw [lookup_eq_none_iff]
  intro entry hentry
  have hlt := h entry.1 (mem_map_of_mem hentry)
  exact bne_iff_ne.mpr hlt.ne

/-- The entry of the key gets the values; no other entry changes. -/
theorem valuesAt_entryExtend (h : KeysInOrder entries) (key k : κ) (values : List α) :
    valuesAt (entryExtend entries key values) k =
      if k = key then valuesAt entries key ++ values else valuesAt entries k := by
  induction entries with
  | nil =>
    by_cases hk : k = key
    · simp [entryExtend, valuesAt, hk]
    · simp [entryExtend, valuesAt, hk, lookup_cons_of_ne hk]
  | cons entry rest ih =>
    obtain ⟨k', old⟩ := entry
    obtain ⟨hfirst, hrest⟩ := pairwise_cons.mp h
    rw [entryExtend]
    split
    · rename_i hlt
      have hnone : List.lookup key ((k', old) :: rest) = none := by
        refine lookup_eq_none_of_lt fun x hx => ?_
        rcases mem_cons.mp hx with rfl | hx
        exacts [hlt, hlt.trans (hfirst x hx)]
      by_cases hk : k = key
      · simp [valuesAt, hk, hnone]
      · simp [valuesAt, hk, lookup_cons_of_ne hk]
    · split
      · rename_i heq
        subst heq
        by_cases hk : k = key
        · simp [valuesAt, hk]
        · simp [valuesAt, hk, lookup_cons_of_ne hk]
      · rename_i hge hne
        have ih := ih hrest
        by_cases hk : k = k'
        · have hk' : k' ≠ key := fun heq => hne heq.symm
          simp [valuesAt, hk, hk']
        · simp only [valuesAt, lookup_cons_of_ne hk, lookup_cons_of_ne hne] at ih ⊢
          exact ih

end EntryExtend

/-! ## Grouped edges -/

section GroupEdges

variable {α : Type} [LinearOrder α]

/-- The map of sets with the given edges: keys and values in order. -/
def groupEdges (edges : List (α × α)) : List (α × List α) :=
  (sortDedup (edges.map Prod.fst)).map fun id =>
    (id, sortDedup ((edges.filter fun edge => edge.1 = id).map Prod.snd))

@[simp] lemma mem_valuesAt_groupEdges {edges : List (α × α)} {i j : α} :
    j ∈ valuesAt (groupEdges edges) i ↔ (i, j) ∈ edges := by
  rw [valuesAt, groupEdges, lookup_map_self]
  split
  · simp only [Option.getD_some, mem_sortDedup, mem_map, mem_filter]
    constructor
    · rintro ⟨⟨a, b⟩, ⟨hmem, hkey⟩, rfl⟩
      obtain rfl : a = i := by simpa using hkey
      exact hmem
    · intro hmem
      exact ⟨(i, j), ⟨hmem, by simp⟩, rfl⟩
  · rename_i hkey
    simp only [Option.getD_none, not_mem_nil, false_iff]
    intro hmem
    exact hkey (mem_sortDedup.mpr (mem_map.mpr ⟨(i, j), hmem, rfl⟩))

/-- A grouped map depends on its edges only. -/
theorem groupEdges_congr {a b : List (α × α)} (h : ∀ edge, edge ∈ a ↔ edge ∈ b) :
    groupEdges a = groupEdges b := by
  have hkeys : sortDedup (a.map Prod.fst) = sortDedup (b.map Prod.fst) :=
    sortDedup_congr fun x => by simp [h]
  have hvalues : ∀ id, sortDedup ((a.filter fun edge => edge.1 = id).map Prod.snd) =
      sortDedup ((b.filter fun edge => edge.1 = id).map Prod.snd) :=
    fun id => sortDedup_congr fun x => by simp [h]
  rw [groupEdges, groupEdges, hkeys]
  simp only [hvalues]

end GroupEdges

/-! ## Pairs -/

/-- Each pair of positions of a list, once. -/
def pairs {α : Type} : List α → List (α × α)
  | [] => []
  | x :: xs => xs.map (fun y => (x, y)) ++ pairs xs

lemma mem_of_mem_pairs {α : Type} {xs : List α} {a b : α} (h : (a, b) ∈ pairs xs) :
    a ∈ xs ∧ b ∈ xs := by
  induction xs with
  | nil => simp [pairs] at h
  | cons x xs ih =>
    rw [pairs, mem_append] at h
    rcases h with h | h
    · obtain ⟨y, hy, heq⟩ := mem_map.mp h
      cases heq
      exact ⟨mem_cons_self, mem_cons_of_mem _ hy⟩
    · exact ⟨mem_cons_of_mem _ (ih h).1, mem_cons_of_mem _ (ih h).2⟩

/-- Two different members form a pair in one of the two directions. -/
theorem mem_pairs_or {α : Type} {xs : List α} {a b : α} (ha : a ∈ xs) (hb : b ∈ xs)
    (hne : a ≠ b) : (a, b) ∈ pairs xs ∨ (b, a) ∈ pairs xs := by
  induction xs with
  | nil => simp at ha
  | cons x xs ih =>
    simp only [pairs, mem_append, mem_map, Prod.mk.injEq]
    rcases mem_cons.mp ha with rfl | ha' <;> rcases mem_cons.mp hb with rfl | hb'
    · exact absurd rfl hne
    · exact .inl (.inl ⟨b, hb', rfl, rfl⟩)
    · exact .inr (.inl ⟨a, ha', rfl, rfl⟩)
    · exact (ih ha' hb').imp .inr .inr

/-! ## Lists with related members -/

section Alike

variable {α β γ : Type} {R : α → β → Prop} {xs : List α} {ys : List β}

/-- Every member of either list has a related member in the other. -/
def Alike (R : α → β → Prop) (xs : List α) (ys : List β) : Prop :=
  (∀ x ∈ xs, ∃ y ∈ ys, R x y) ∧ ∀ y ∈ ys, ∃ x ∈ xs, R x y

namespace Alike

/-- What related members agree on, some members of both lists have or none. -/
theorem exists_iff (h : Alike R xs ys) {P : α → Prop} {Q : β → Prop}
    (hPQ : ∀ x y, R x y → (P x ↔ Q y)) : (∃ x ∈ xs, P x) ↔ ∃ y ∈ ys, Q y := by
  constructor
  · rintro ⟨x, hx, hP⟩
    obtain ⟨y, hy, hR⟩ := h.1 x hx
    exact ⟨y, hy, (hPQ x y hR).mp hP⟩
  · rintro ⟨y, hy, hQ⟩
    obtain ⟨x, hx, hR⟩ := h.2 y hy
    exact ⟨x, hx, (hPQ x y hR).mpr hQ⟩

variable {δ : Type} {p : α → Bool} {S : γ → δ → Prop} {q : β → Bool}

lemma filter (h : Alike R xs ys) (hpq : ∀ x y, R x y → p x = q y) :
    Alike R (xs.filter p) (ys.filter q) := by
  constructor
  · intro x hx
    obtain ⟨hx, hp⟩ := mem_filter.mp hx
    obtain ⟨y, hy, hR⟩ := h.1 x hx
    exact ⟨y, mem_filter.mpr ⟨hy, hpq x y hR ▸ hp⟩, hR⟩
  · intro y hy
    obtain ⟨hy, hq⟩ := mem_filter.mp hy
    obtain ⟨x, hx, hR⟩ := h.2 y hy
    exact ⟨x, mem_filter.mpr ⟨hx, hpq x y hR ▸ hq⟩, hR⟩

lemma refl {R : α → α → Prop} (hR : ∀ x, R x x) (xs : List α) : Alike R xs xs :=
  ⟨fun x hx => ⟨x, hx, hR x⟩, fun x hx => ⟨x, hx, hR x⟩⟩

lemma eq_refl (xs : List α) : Alike Eq xs xs := refl (fun _ => rfl) xs

lemma trans {R : α → α → Prop} (hR : ∀ x y z, R x y → R y z → R x z) {xs ys zs : List α}
    (hxy : Alike R xs ys) (hyz : Alike R ys zs) : Alike R xs zs := by
  constructor
  · intro x hx
    obtain ⟨y, hy, hR1⟩ := hxy.1 x hx
    obtain ⟨z, hz, hR2⟩ := hyz.1 y hy
    exact ⟨z, hz, hR x y z hR1 hR2⟩
  · intro z hz
    obtain ⟨y, hy, hR2⟩ := hyz.2 z hz
    obtain ⟨x, hx, hR1⟩ := hxy.2 y hy
    exact ⟨x, hx, hR x y z hR1 hR2⟩

lemma cons {x : α} {y : β} (hxy : R x y) (h : Alike R xs ys) : Alike R (x :: xs) (y :: ys) := by
  constructor
  · simp only [mem_cons, forall_eq_or_imp]
    exact ⟨⟨y, .inl rfl, hxy⟩, fun z hz => (h.1 z hz).imp fun w hw => ⟨.inr hw.1, hw.2⟩⟩
  · simp only [mem_cons, forall_eq_or_imp]
    exact ⟨⟨x, .inl rfl, hxy⟩, fun z hz => (h.2 z hz).imp fun w hw => ⟨.inr hw.1, hw.2⟩⟩

lemma append (h : Alike R xs ys) {us : List α} {vs : List β} (h' : Alike R us vs) :
    Alike R (xs ++ us) (ys ++ vs) := by
  constructor
  · intro x hx
    rcases mem_append.mp hx with hx | hx
    · obtain ⟨y, hy, hR⟩ := h.1 x hx
      exact ⟨y, mem_append_left _ hy, hR⟩
    · obtain ⟨y, hy, hR⟩ := h'.1 x hx
      exact ⟨y, mem_append_right _ hy, hR⟩
  · intro y hy
    rcases mem_append.mp hy with hy | hy
    · obtain ⟨x, hx, hR⟩ := h.2 y hy
      exact ⟨x, mem_append_left _ hx, hR⟩
    · obtain ⟨x, hx, hR⟩ := h'.2 y hy
      exact ⟨x, mem_append_right _ hx, hR⟩

variable {f : α → List γ}

lemma flatMap (h : Alike R xs ys) {g : β → List δ} (hfg : ∀ x y, R x y → Alike S (f x) (g y)) :
    Alike S (xs.flatMap f) (ys.flatMap g) := by
  constructor
  · intro c hc
    obtain ⟨x, hx, hc⟩ := mem_flatMap.mp hc
    obtain ⟨y, hy, hR⟩ := h.1 x hx
    obtain ⟨d, hd, hS⟩ := (hfg x y hR).1 c hc
    exact ⟨d, mem_flatMap.mpr ⟨y, hy, hd⟩, hS⟩
  · intro d hd
    obtain ⟨y, hy, hd⟩ := mem_flatMap.mp hd
    obtain ⟨x, hx, hR⟩ := h.2 y hy
    obtain ⟨c, hc, hS⟩ := (hfg x y hR).2 d hd
    exact ⟨c, mem_flatMap.mpr ⟨x, hx, hc⟩, hS⟩

lemma map (h : Alike R xs ys) {f : α → γ} {g : β → δ} (hfg : ∀ x y, R x y → S (f x) (g y)) :
    Alike S (xs.map f) (ys.map g) := by
  constructor
  · intro c hc
    obtain ⟨x, hx, rfl⟩ := mem_map.mp hc
    obtain ⟨y, hy, hR⟩ := h.1 x hx
    exact ⟨g y, mem_map_of_mem hy, hfg x y hR⟩
  · intro d hd
    obtain ⟨y, hy, rfl⟩ := mem_map.mp hd
    obtain ⟨x, hx, hR⟩ := h.2 y hy
    exact ⟨f x, mem_map_of_mem hx, hfg x y hR⟩

/-- Lists with the same members are alike under a reflexive relation. -/
theorem of_mem_iff {R : α → α → Prop} (hR : ∀ x, R x x) {xs ys : List α}
    (h : ∀ x, x ∈ xs ↔ x ∈ ys) : Alike R xs ys :=
  ⟨fun x hx => ⟨x, (h x).mp hx, hR x⟩, fun x hx => ⟨x, (h x).mpr hx, hR x⟩⟩

lemma any_eq (h : Alike R xs ys) (hpq : ∀ x y, R x y → p x = q y) : xs.any p = ys.any q := by
  rw [Bool.eq_iff_iff, any_eq_true, any_eq_true]
  exact h.exists_iff fun x y hR => by rw [hpq x y hR]

lemma mem_flatMap (h : Alike R xs ys) {g : β → List γ}
    (hfg : ∀ x y, R x y → ∀ z, z ∈ f x ↔ z ∈ g y) (z : γ) :
    z ∈ xs.flatMap f ↔ z ∈ ys.flatMap g := by
  simp only [List.mem_flatMap]
  exact h.exists_iff fun x y hR => hfg x y hR z

lemma eq_nil_iff (h : Alike R xs ys) : xs = [] ↔ ys = [] := by
  rw [eq_nil_iff_forall_not_mem, eq_nil_iff_forall_not_mem]
  constructor
  · intro hx y hy
    obtain ⟨x, hmem, -⟩ := h.2 y hy
    exact hx x hmem
  · intro hy x hx
    obtain ⟨y, hmem, -⟩ := h.1 x hx
    exact hy y hmem

end Alike

end Alike

end Collection
