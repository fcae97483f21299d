import Mathlib.Data.List.Nodup
import Mathlib.Data.List.Perm.Subperm
import Mathlib.Order.Basic

/-!
# Loops over ordered maps

An ordered map is compared entry by entry. Two kinds of loops are met again and again: one that turns
a map of sets around, and one that visits some keys and touches the entry of each at most, maybe
remembering whether it has changed anything.
-/

namespace TreeMap

open Std List

section Entries

variable {κ β : Type} [Ord κ] [TransOrd κ] [LawfulEqOrd κ] {m : ExtTreeMap κ β} {key k : κ}
  {value v : β}

lemma getElem?_of_insert (h : (m.insert key value)[k]? = some v) :
    key = k ∧ value = v ∨ k ≠ key ∧ m[k]? = some v := by
  rw [ExtTreeMap.getElem?_insert] at h
  split at h
  · exact .inl ⟨compare_eq_iff_eq.mp ‹_›, Option.some.inj h⟩
  · exact .inr ⟨fun heq => ‹¬ _› (by simp [heq]), h⟩

lemma getElem?_of_erase (h : (m.erase key)[k]? = some v) : k ≠ key ∧ m[k]? = some v := by
  rw [ExtTreeMap.getElem?_erase] at h
  split at h
  · cases h
  · exact ⟨fun heq => ‹¬ _› (by simp [heq]), h⟩

end Entries

section Index

variable {ι κ : Type} [Ord κ] [TransOrd κ] [LawfulEqOrd κ]

lemma nodup_toList (keys : ExtTreeSet κ) : keys.toList.Nodup :=
  keys.distinct_toList.imp fun hne heq => hne (by simp [heq])

variable [DecidableEq κ]

/-- Adds a value to the list of a key. -/
def push (out : ExtTreeMap κ (List ι)) (key : κ) (value : ι) : ExtTreeMap κ (List ι) :=
  out.alter key fun old => some (old.getD [] ++ [value])

variable (rows : List (ι × ExtTreeSet κ)) (out : ExtTreeMap κ (List ι))

lemma getElem?_push (key k : κ) (value : ι) :
    (push out key value)[k]? = if key = k then some (out[key]?.getD [] ++ [value]) else out[k]? := by
  simp [push, ExtTreeMap.getElem?_alter]

/-- The map from the members of the sets to the keys of the sets, in the order of the rows. -/
def index (rows : List (ι × ExtTreeSet κ)) (out : ExtTreeMap κ (List ι)) : ExtTreeMap κ (List ι) :=
  rows.foldl (fun out row => row.2.toList.foldl (fun out key => push out key row.1) out) out

lemma getElem?_foldl_push {keys : List κ} (hkeys : keys.Nodup) (out : ExtTreeMap κ (List ι)) (k : κ)
    (value : ι) :
    (keys.foldl (fun out key => push out key value) out)[k]? =
      if k ∈ keys then some (out[k]?.getD [] ++ [value]) else out[k]? := by
  induction keys generalizing out with
  | nil => simp
  | cons key keys ih =>
    obtain ⟨hkey, hkeys⟩ := nodup_cons.mp hkeys
    rw [foldl_cons, ih hkeys, getElem?_push]
    by_cases hk : key = k
    · subst hk
      simp [hkey]
    · simp [hk, Ne.symm hk]

/-- The keys of the sets that have the member. -/
def holders (rows : List (ι × ExtTreeSet κ)) (k : κ) : List ι :=
  (rows.filter fun row => k ∈ row.2).map Prod.fst

variable (k : κ)

/-- A member is listed with the keys of its sets, after what is listed of it before. -/
theorem getElem?_index :
    (index rows out)[k]? =
      if holders rows k = [] then out[k]? else some (out[k]?.getD [] ++ holders rows k) := by
  induction rows generalizing out with
  | nil => simp [index, holders]
  | cons row rows ih =>
    have hindex : index (row :: rows) out =
        index rows (row.2.toList.foldl (fun out key => push out key row.1) out) := rfl
    rw [hindex, ih, getElem?_foldl_push (nodup_toList row.2)]
    by_cases hk : k ∈ row.2
    · have hholders : holders (row :: rows) k = row.1 :: holders rows k := by
        simp [holders, hk]
      by_cases hnil : holders rows k = []
      · simp [hholders, hk]
      · simp [hholders, hk]
    · have hholders : holders (row :: rows) k = holders rows k := by
        simp [holders, hk]
      simp [hholders, hk]

end Index

section Local

variable {σ κ β ε : Type}

/-- A pass touches the entry of its own key at most, and looks at no other entry. -/
structure Local (get : σ → κ → β) (step : σ → ε → σ) (key : ε → κ) : Prop where
  other : ∀ s e k, k ≠ key e → get (step s e) k = get s k
  own : ∀ s s' e, get s (key e) = get s' (key e) → get (step s e) (key e) = get (step s' e) (key e)

namespace Local

variable {get : σ → κ → β} {step : σ → ε → σ} {key : ε → κ}

lemma foldl_other (h : Local get step key) {entries : List ε} {k : κ} (hk : k ∉ entries.map key)
    (s : σ) : get (entries.foldl step s) k = get s k := by
  induction entries generalizing s with
  | nil => rfl
  | cons e entries ih =>
    rw [map_cons, mem_cons, not_or] at hk
    rw [foldl_cons, ih hk.2, h.other s e k hk.1]

/-- An entry ends up as its own pass makes it from its first value. -/
theorem foldl_own (h : Local get step key) {entries : List ε} (hkeys : (entries.map key).Nodup) {e : ε}
    (he : e ∈ entries) (s : σ) : get (entries.foldl step s) (key e) = get (step s e) (key e) := by
  induction entries generalizing s with
  | nil => cases he
  | cons first entries ih =>
    obtain ⟨hfirst, hkeys⟩ := nodup_cons.mp (map_cons ▸ hkeys)
    rw [foldl_cons]
    obtain rfl | he := mem_cons.mp he
    · exact h.foldl_other hfirst _
    · rw [ih hkeys he]
      refine h.own _ _ e (h.other s first _ fun heq => hfirst ?_)
      exact heq ▸ mem_map_of_mem he

end Local

end Local

section Entries

variable {κ α : Type} [Ord κ] [TransOrd κ] [LawfulEqOrd κ]

lemma getElem?_foldl_erase [DecidableEq κ] (keys : List κ) (m : ExtTreeMap κ α) (k : κ) :
    (keys.foldl ExtTreeMap.erase m)[k]? = if k ∈ keys then none else m[k]? := by
  induction keys generalizing m with
  | nil => simp
  | cons key keys ih =>
    rw [foldl_cons, ih, ExtTreeMap.getElem?_erase]
    by_cases hk : key = k
    · simp [hk]
    · simp [hk, Ne.symm hk]

/-- Puts a value at its own key. -/
def insertAt (key : α → κ) (m : ExtTreeMap κ α) (value : α) : ExtTreeMap κ α := m.insert (key value) value

lemma insertAt_local (key : α → κ) :
    Local (fun (m : ExtTreeMap κ α) (k : κ) => m[k]?) (insertAt key) key where
  other m value k hk := by simp [insertAt, ExtTreeMap.getElem?_insert, hk.symm]
  own m m' value _ := by simp [insertAt]

variable {values : List α}

lemma getElem?_foldl_insertAt {key : α → κ} (hkeys : (values.map key).Nodup) {value : α}
    (hvalue : value ∈ values) (m : ExtTreeMap κ α) :
    (values.foldl (insertAt key) m)[key value]? = some value := by
  rw [(insertAt_local key).foldl_own hkeys hvalue m]
  simp [insertAt]

lemma getElem?_foldl_insertAt_other {key : α → κ} {k : κ} (hk : k ∉ values.map key)
    (m : ExtTreeMap κ α) :
    (values.foldl (insertAt key) m)[k]? = m[k]? :=
  (insertAt_local key).foldl_other hk m

lemma mem_foldl_insertAt (key : α → κ) (values : List α) (m : ExtTreeMap κ α) (k : κ) :
    k ∈ values.foldl (insertAt key) m ↔ k ∈ values.map key ∨ k ∈ m := by
  induction values generalizing m with
  | nil => simp
  | cons value values ih =>
    rw [foldl_cons, ih, insertAt, ExtTreeMap.mem_insert, Std.compare_eq_iff_eq, map_cons,
      mem_cons]
    tauto

end Entries

section Tracked

variable {κ α ε : Type} [Ord κ] [TransOrd κ]

/-- A local pass that raises the flag when it changes the entry. -/
structure Tracked (step : ExtTreeMap κ α × Bool → ε → ExtTreeMap κ α × Bool) (key : ε → κ) : Prop
    extends Local (fun s (k : κ) => s.1[k]?) step key where
  flag : ∀ s e, (step s e).2 = true ↔ s.2 = true ∨ (step s e).1[key e]? ≠ s.1[key e]?

namespace Tracked

variable {step : ExtTreeMap κ α × Bool → ε → ExtTreeMap κ α × Bool} {key : ε → κ} {entries : List ε}

lemma foldl_other (h : Tracked step key) {k : κ} (hk : k ∉ entries.map key)
    (s : ExtTreeMap κ α × Bool) : (entries.foldl step s).1[k]? = s.1[k]? :=
  h.toLocal.foldl_other hk s

lemma foldl_own (h : Tracked step key) (hkeys : (entries.map key).Nodup) {e : ε}
    (he : e ∈ entries) (s : ExtTreeMap κ α × Bool) :
    (entries.foldl step s).1[key e]? = (step s e).1[key e]? :=
  h.toLocal.foldl_own hkeys he s

/-- The flag tells whether an entry differs from its first value. -/
theorem foldl_flag (h : Tracked step key) (hkeys : (entries.map key).Nodup)
    (s : ExtTreeMap κ α × Bool) :
    (entries.foldl step s).2 = true ↔
      s.2 = true ∨ ∃ k : κ, (entries.foldl step s).1[k]? ≠ s.1[k]? := by
  induction entries generalizing s with
  | nil => simp
  | cons first entries ih =>
    obtain ⟨hfirst, hkeys⟩ := nodup_cons.mp (map_cons ▸ hkeys)
    rw [foldl_cons, ih hkeys, h.flag, or_assoc]
    refine or_congr_right ⟨?_, ?_⟩
    · rintro (hne | ⟨k, hne⟩)
      · exact ⟨key first, by rwa [h.foldl_other hfirst]⟩
      · refine ⟨k, ?_⟩
        have hother : k ≠ key first := by
          -- a later pass does not touch the key of this one
          rintro rfl
          exact hne (h.foldl_other hfirst _)
        rwa [← show (step s first).1[k]? = s.1[k]? from h.other s first k hother]
    · rintro ⟨k, hne⟩
      by_cases hk : k = key first
      · subst hk
        rw [h.foldl_other hfirst] at hne
        exact .inl hne
      · exact .inr ⟨k, by rwa [show (step s first).1[k]? = s.1[k]? from h.other s first k hk]⟩

end Tracked

lemma nodup_keys_toList (m : ExtTreeMap κ α) : (m.toList.map Prod.fst).Nodup := by
  refine pairwise_map.mpr (m.distinct_keys_toList.imp fun hne heq => hne ?_)
  rw [heq]
  exact compare_self

end Tracked

section Counting

variable {κ α : Type} [Ord κ] [TransOrd κ]

/-- The keys of the entries of some kind. -/
def keysWith (p : κ → α → Bool) (m : ExtTreeMap κ α) : List κ :=
  (m.toList.filter fun entry => p entry.1 entry.2).map Prod.fst

variable {p : κ → α → Bool} {m m' : ExtTreeMap κ α}

lemma nodup_keysWith (p : κ → α → Bool) (m : ExtTreeMap κ α) : (keysWith p m).Nodup :=
  (nodup_keys_toList m).sublist (filter_sublist.map _)

variable [LawfulEqOrd κ]

lemma mem_keysWith {k : κ} : k ∈ keysWith p m ↔ ∃ v, m[k]? = some v ∧ p k v = true := by
  simp only [keysWith, mem_map, mem_filter, Prod.exists, exists_and_right, exists_eq_right,
    ExtTreeMap.mem_toList_iff_getElem?_eq_some]

/-- A map without the dropped entries has fewer entries of the kind, by as many as were dropped. -/
theorem length_keysWith_add_le {dropped : List κ} (hnodup : dropped.Nodup)
    (hdropped : dropped ⊆ keysWith p m)
    (hkept : ∀ (k : κ) v, m'[k]? = some v → m[k]? = some v ∧ k ∉ dropped) :
    (keysWith p m').length + dropped.length ≤ (keysWith p m).length := by
  have hsubset : keysWith p m' ++ dropped ⊆ keysWith p m := by
    refine append_subset.mpr ⟨fun k hk => ?_, hdropped⟩
    obtain ⟨v, hv, hp⟩ := mem_keysWith.mp hk
    exact mem_keysWith.mpr ⟨v, (hkept k v hv).1, hp⟩
  have hdisjoint : (keysWith p m' ++ dropped).Nodup := by
    refine nodup_append.mpr ⟨nodup_keysWith p m', hnodup, fun k hk k' hk' heq => ?_⟩
    obtain ⟨v, hv, -⟩ := mem_keysWith.mp hk
    exact (hkept k v hv).2 (heq ▸ hk')
  rw [← length_append]
  exact (subperm_of_subset hdisjoint hsubset).length_le

end Counting

end TreeMap
