import Headscale.Policy.IpSet

/-!
# Comparing sets of addresses

`intersects` and `first_not_in` walk along the spans of two sets at once and never step back. What makes
that right is that a span that has been passed lies before everything that is still to be looked at.
-/

namespace Headscale.Policy

open Interval

/-! ## The loops of the source -/

abbrev Spans := List (Span Family)

/-- The loop of `intersects`; what is left of each set is what its index has not passed. -/
def intersectsLoop : Spans → Spans → Bool
  | s :: left, t :: right =>
    if s.key < t.key ∨ (s.key = t.key ∧ s.hi < t.lo) then intersectsLoop left (t :: right)
    else if t.key < s.key ∨ t.hi < s.lo then intersectsLoop (s :: left) right
    else true
  | _, _ => false
termination_by left right => left.length + right.length

/-- How the search inside one span ends. -/
inductive SpanSearch where
  | missing (address : Nat)
  | covered (right : Spans)
  | overflow

/-- The inner loop of `first_not_in`: looks for the first address from `next` on that the other set lacks.
`next` is a `u128`. -/
def searchSpan (family : Family) (stop : Nat) : Nat → Spans → SpanSearch
  | next, [] => .missing next
  | next, t :: right =>
    if t.key < family ∨ (t.key = family ∧ t.hi < next) then searchSpan family stop next right
    else if family < t.key ∨ next < t.lo then .missing next
    else if stop ≤ t.hi then .covered (t :: right)
    else if t.hi + 1 < 2 ^ 128 then searchSpan family stop (t.hi + 1) right
    else .overflow

/-- The outer loop of `first_not_in`; absent if an addition overflows. -/
def firstNotInLoop : Spans → Spans → Option (Option (Family × Nat))
  | [], _ => some none
  | s :: left, right =>
    match searchSpan s.key s.hi s.lo right with
    | .missing address => some (some (s.key, address))
    | .covered right => firstNotInLoop left right
    | .overflow => none

namespace IpSet

def intersects (a b : IpSet) : Bool := intersectsLoop a.spans b.spans

def firstNotIn (a b : IpSet) : Option (Option String) :=
  (firstNotInLoop a.spans b.spans).map (Option.map fun found => intervalAddrString found.2 found.1)

end IpSet

/-! ## What the loops compute -/

section Sweep

variable {left right : Spans} {family : Family} {stop next n : Nat}

lemma intersectsLoop_iff (hleft : left.Pairwise Span.Apart) (hright : right.Pairwise Span.Apart) :
    intersectsLoop left right = true ↔ ∃ k n, Covers left k n ∧ Covers right k n := by
  fun_induction intersectsLoop left right with
  | case1 s left t right hpass ih =>
    -- everything on the right lies behind the span that is passed
    have hbehind : ∀ k n, Covers (t :: right) k n → ¬ s.Mem k n := by
      intro k n ht hs
      have := first_starts hright ht
      grind [Span.Mem]
    simp only [covers_cons s]
    grind
  | case2 s left t right hpass hpass' ih =>
    have hbehind : ∀ k n, Covers (s :: left) k n → ¬ t.Mem k n := by
      intro k n hs ht
      have := first_starts hleft hs
      grind [Span.Mem]
    simp only [covers_cons t]
    grind
  | case3 s left t right hpass hpass' =>
    have hkey : s.key = t.key := by grind
    have hle := s.le
    have hle' := t.le
    refine iff_of_true rfl ⟨s.key, max s.lo t.lo, ?_, ?_⟩
    · exact (covers_cons _ _ _ _).mpr (.inl ⟨rfl, by omega, by grind⟩)
    · exact (covers_cons _ _ _ _).mpr (.inl ⟨hkey.symm, by omega, by grind⟩)
  | case4 left right hnone =>
    cases left with
    | nil => simp
    | cons s left =>
      cases right with
      | nil => simp
      | cons t right => exact (hnone s left t right rfl rfl).elim

/-- What the search inside a span has found out about the spans of the other set. -/
def SpanSearch.Sound (family : Family) (stop next : Nat) (right : Spans) : SpanSearch → Prop
  | .missing n => next ≤ n ∧ n ≤ stop ∧ ¬ Covers right family n ∧
      ∀ m, next ≤ m → m < n → Covers right family m
  | .covered rest => rest.Pairwise Span.Apart ∧ (∀ m, next ≤ m → m ≤ stop → Covers right family m) ∧
      ∀ k m, family < k ∨ (family = k ∧ stop < m) → (Covers rest k m ↔ Covers right k m)
  | .overflow => False

/-- The search goes on from a later address, with the spans that lie there. -/
theorem SpanSearch.Sound.from_later {result : SpanSearch} {later : Nat} {rest : Spans}
    (h : result.Sound family stop later rest) (hle : next ≤ later) (hlater : later ≤ stop)
    (hbefore : ∀ m, next ≤ m → m < later → Covers right family m)
    (hafter : ∀ k m, family < k ∨ (family = k ∧ later ≤ m) → (Covers rest k m ↔ Covers right k m)) :
    result.Sound family stop next right := by
  cases result with
  | missing | covered => grind [SpanSearch.Sound]
  | overflow => exact h

lemma searchSpan_sound (hright : right.Pairwise Span.Apart) (hnext : next ≤ stop)
    (hstop : stop ≤ family.max) :
    (searchSpan family stop next right).Sound family stop next right := by
  have hv6 : family.max < 2 ^ 128 := by cases family <;> decide
  induction right generalizing next with
  | nil => exact ⟨le_refl _, hnext, not_covers_nil _ _, fun m hm hlt => by omega⟩
  | cons t right ih =>
    rw [searchSpan]
    split
    · next hpass =>
      refine (ih hright.of_cons hnext).from_later (le_refl _) hnext (fun m hm hlt => by omega) ?_
      grind [Span.Mem, covers_cons]
    next hpass =>
    split
    · next hgap =>
      refine ⟨le_refl _, hnext, fun hcovers => ?_, fun m hm hlt => by omega⟩
      have := first_starts hright hcovers
      grind
    · next hgap =>
      split
      · exact ⟨hright, by grind [Span.Mem, covers_cons], fun k m _ => Iff.rfl⟩
      rw [if_pos (by omega)]
      refine (ih hright.of_cons (by omega)).from_later (by grind) (by omega) ?_ ?_
      · grind [Span.Mem, covers_cons]
      · grind [Span.Mem, covers_cons]

/-- The first address of the spans, in the order of the source, that the other spans lack. -/
theorem firstNotInLoop_spec (hleft : left.Pairwise Span.Apart) (hright : right.Pairwise Span.Apart)
    (hbound : ∀ s ∈ left, s.hi ≤ s.key.max) :
    ∃ found, firstNotInLoop left right = some found ∧
      (found = none ↔ ∀ k n, Covers left k n → Covers right k n) ∧
      ∀ k n, found = some (k, n) → Covers left k n ∧ ¬ Covers right k n ∧
        ∀ k' n', Covers left k' n' → ¬ Covers right k' n' → k < k' ∨ (k = k' ∧ n ≤ n') := by
  induction left generalizing right with
  | nil => exact ⟨none, rfl, by simp, by simp⟩
  | cons s left ih =>
    have hsearch := searchSpan_sound hright s.le (hbound s (by simp))
    rw [firstNotInLoop]
    cases hresult : searchSpan s.key s.hi s.lo right with
    | overflow => exact (hresult ▸ hsearch).elim
    | missing n =>
      rw [hresult] at hsearch
      rcases hsearch with ⟨hle, hstop, hmissing, hbefore⟩
      have hmem : s.Mem s.key n := ⟨rfl, hle, hstop⟩
      refine ⟨some (s.key, n), rfl, ?_, ?_⟩
      · simp only [reduceCtorEq, false_iff, not_forall]
        exact ⟨s.key, n, (covers_cons _ _ _ _).mpr (.inl hmem), hmissing⟩
      · rintro k m ⟨⟩
        refine ⟨(covers_cons _ _ _ _).mpr (.inl hmem), hmissing, fun k' n' hin hout => ?_⟩
        -- an address of the list is not before its first span, and those before `n` are covered
        have := first_starts hleft hin
        grind
    | covered rest =>
      rw [hresult] at hsearch
      rcases hsearch with ⟨hrest, hcovered, hafter⟩
      obtain ⟨found, heq, hnone, hsome⟩ := ih hleft.of_cons hrest fun t ht => hbound t (by simp [ht])
      have hapart := (List.pairwise_cons.mp hleft).1
      -- what is left lies behind the span, where the two lists agree
      have hbehind : ∀ k n, Covers left k n → (Covers rest k n ↔ Covers right k n) := by
        rintro k n ⟨t, ht, rfl, hlo, -⟩
        exact hafter _ _ (by grind [Span.Apart])
      have hspan : ∀ k n, s.Mem k n → Covers right k n := by
        rintro k n ⟨rfl, hlo, hhi⟩
        exact hcovered n hlo hhi
      refine ⟨found, heq, ?_, fun k n hfound => ?_⟩
      · grind [covers_cons]
      · grind [covers_cons]

end Sweep

namespace IpSet

variable {set : IpSet} {k : Family} {n : Nat}

/-- Every number a set covers is the value of an address. -/
theorem exists_addr_of_covers (h : Covers set.spans k n) :
    ∃ ip : IpAddr, ip.family = k ∧ ip.value = n := by
  rcases h with ⟨s, hs, rfl, -, hhi⟩
  have hrange := set.inRange s hs
  have hlt : n < 2 ^ s.key.bits := by
    rw [← Family.max_eq]
    omega
  exact ⟨IpAddr.ofNat s.key n, IpAddr.family_ofNat _ _, IpAddr.value_ofNat hlt⟩

/-- One sweep tells whether two sets share an address, and the other finds the first address that one
set has and the other lacks. -/
theorem sweeps_compare_the_sets (a b : IpSet) :
    (a.intersects b = true ↔ ∃ ip, a.Mem ip ∧ b.Mem ip) ∧
      ∃ result, a.firstNotIn b = some result ∧
        (result = none ↔ ∀ ip, a.Mem ip → b.Mem ip) ∧
        ∀ text, result = some text → ∃ ip : IpAddr, text = ip.toString ∧ a.Mem ip ∧ ¬ b.Mem ip ∧
          ∀ other : IpAddr, a.Mem other → ¬ b.Mem other →
            ip.family < other.family ∨ (ip.family = other.family ∧ ip.value ≤ other.value) := by
  constructor
  · rw [intersects, intersectsLoop_iff a.apart b.apart]
    constructor
    · rintro ⟨k, n, ha, hb⟩
      obtain ⟨ip, rfl, rfl⟩ := exists_addr_of_covers ha
      exact ⟨ip, ha, hb⟩
    · rintro ⟨ip, ha, hb⟩
      exact ⟨ip.family, ip.value, ha, hb⟩
  · obtain ⟨found, heq, hnone, hsome⟩ := firstNotInLoop_spec a.apart b.apart a.inRange
    refine ⟨found.map fun found => intervalAddrString found.2 found.1, by simp [firstNotIn, heq], ?_, ?_⟩
    · rw [Option.map_eq_none_iff, hnone]
      constructor
      · exact fun h ip => h ip.family ip.value
      · intro h k n ha
        obtain ⟨ip, rfl, rfl⟩ := exists_addr_of_covers ha
        exact h ip ha
    · intro text htext
      obtain ⟨⟨k, n⟩, rfl, rfl⟩ := Option.map_eq_some_iff.mp htext
      obtain ⟨ha, hb, hleast⟩ := hsome k n rfl
      obtain ⟨ip, rfl, rfl⟩ := exists_addr_of_covers ha
      refine ⟨ip, ?_, ha, hb, fun other => hleast other.family other.value⟩
      rw [intervalAddrString, IpAddr.ofNat_family_value]

end IpSet

end Headscale.Policy
