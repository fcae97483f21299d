import Mathlib.Data.List.Induction
import Headscale.Policy.Offers

/-!
# Coalesced filters

`coalesce_filter_rules` scans the rules once and adds the destinations of a rule to the first rule with
the same sources and protocols. The result is described without the scan: the first appearances of
the rules, each with all the destinations of the rules it stands for.
-/

namespace Headscale.Policy

open List

/-- The rules are merged: neither grants capabilities, and sources and protocols are the same. -/
def FilterRule.Merges (a b : FilterRule) : Prop :=
  a.capGrant = [] ∧ b.capGrant = [] ∧ a.srcIps = b.srcIps ∧ a.ipProto = b.ipProto

instance (a b : FilterRule) : Decidable (a.Merges b) := inferInstanceAs (Decidable (_ ∧ _))

/-- The rules that are not merged into an earlier one. -/
def firstAppearances (rules : List FilterRule) : List FilterRule :=
  rules.eraseDupsBy fun later earlier => earlier.Merges later

/-- A rule with the destinations of all the rules that it is merged with. -/
def gathered (rules : List FilterRule) (rule : FilterRule) : FilterRule :=
  if rule.capGrant = [] then
    let merged := rules.filter fun other => rule.Merges other
    { rule with dstPorts := merged.flatMap FilterRule.dstPorts }
  else rule

section Coalescing

variable {rules out : List FilterRule} {rule other : FilterRule}

lemma FilterRule.Merges.trans (h : rule.Merges other) {third : FilterRule}
    (h' : third.Merges other) : rule.Merges third := by
  obtain ⟨hrule, -, hsrc, hproto⟩ := h
  obtain ⟨hthird, -, hsrc', hproto'⟩ := h'
  exact ⟨hrule, hthird, hsrc.trans hsrc'.symm, hproto.trans hproto'.symm⟩

lemma eraseDupsBy_concat {α : Type} (r : α → α → Bool) (xs : List α) (x : α) :
    (xs ++ [x]).eraseDupsBy r =
      if (xs.eraseDupsBy r).any (r x) then xs.eraseDupsBy r else xs.eraseDupsBy r ++ [x] := by
  -- the loop of `eraseDupsBy` carries what it has kept, last one first
  have hloop : ∀ kept, List.eraseDupsBy.loop r (xs ++ [x]) kept =
      if (List.eraseDupsBy.loop r xs kept).any (r x) then List.eraseDupsBy.loop r xs kept
      else List.eraseDupsBy.loop r xs kept ++ [x] := by
    induction xs with
    | nil =>
      intro kept
      cases h : kept.any (r x) <;> simp [List.eraseDupsBy.loop, h]
    | cons y ys ih =>
      intro kept
      rw [cons_append, List.eraseDupsBy.loop, List.eraseDupsBy.loop]
      split
      · exact ih kept
      · exact ih (y :: kept)
  exact hloop []

/-- A rule of the list that merges with the given one. -/
def hasMerging (rules : List FilterRule) (rule : FilterRule) : Bool :=
  rules.any fun other => other.Merges rule

lemma firstAppearances_concat : firstAppearances (rules ++ [rule]) =
    if hasMerging (firstAppearances rules) rule then firstAppearances rules
    else firstAppearances rules ++ [rule] :=
  eraseDupsBy_concat _ rules rule

lemma hasMerging_eq_false : hasMerging rules rule = false ↔ ∀ other ∈ rules, ¬ other.Merges rule := by
  simp [hasMerging]

lemma pairwise_firstAppearances :
    (firstAppearances rules).Pairwise fun a b => ¬ a.Merges b := by
  induction rules using List.reverseRecOn with
  | nil => exact .nil
  | append_singleton rules rule ih =>
    rw [firstAppearances_concat]
    grind [hasMerging]

/-- A rule without grants merges with a first appearance, which may be itself. -/
theorem hasMerging_firstAppearances (h : other ∈ rules) (hcap : other.capGrant = []) :
    hasMerging (firstAppearances rules) other = true := by
  induction rules using List.reverseRecOn with
  | nil => cases h
  | append_singleton rules rule ih =>
    rw [firstAppearances_concat]
    grind [hasMerging, FilterRule.Merges]

/-! ## What the scan does with one more rule -/

/-- The rule with the destinations of another one, if the two are merged. -/
def FilterRule.extended (existing rule : FilterRule) : FilterRule :=
  if existing.Merges rule then { existing with dstPorts := existing.dstPorts ++ rule.dstPorts }
  else existing

/-- Of rules none of which merge, at most one takes the new rule. -/
theorem mergeInto_eq (hrule : rule.capGrant = []) (hout : out.Pairwise fun a b => ¬ a.Merges b) :
    mergeInto rule out =
      if hasMerging out rule then out.map fun existing => existing.extended rule
      else out ++ [rule] := by
  induction out with
  | nil => rfl
  | cons existing rest ih =>
    obtain ⟨hfirst, hrest⟩ := pairwise_cons.mp hout
    have hmerges : (existing.capGrant = [] ∧ existing.srcIps = rule.srcIps ∧
        existing.ipProto = rule.ipProto) ↔ existing.Merges rule := by
      simp [FilterRule.Merges, hrule]
    have hany : hasMerging (existing :: rest) rule =
        (decide (existing.Merges rule) || hasMerging rest rule) := rfl
    rw [mergeInto, hany, map_cons, FilterRule.extended]
    by_cases h : existing.Merges rule
    · have hothers : rest.map (fun later => later.extended rule) = rest := by
        refine (map_congr_left fun later hlater => ?_).trans (map_id rest)
        exact if_neg fun hlater' => hfirst later hlater (h.trans hlater')
      rw [if_pos (hmerges.mpr h), hothers]
      simp [h]
    · rw [if_neg (hmerges.not.mpr h), ih hrest]
      cases hasMerging rest rule <;> simp [h]

lemma merges_gathered : (gathered rules rule).Merges other ↔ rule.Merges other := by
  unfold gathered
  split <;> rfl

lemma gathered_concat :
    gathered (rules ++ [rule]) other = (gathered rules other).extended rule := by
  simp only [FilterRule.extended, merges_gathered]
  rw [gathered, gathered]
  by_cases hcap : other.capGrant = []
  · by_cases h : other.Merges rule <;> simp [hcap, h]
  · simp [hcap, FilterRule.Merges]

lemma pairwise_gathered :
    ((firstAppearances rules).map (gathered rules)).Pairwise fun a b => ¬ a.Merges b := by
  have hright : ∀ a b : FilterRule, a.Merges (gathered rules b) ↔ a.Merges b := by
    intro a b
    unfold gathered
    split <;> rfl
  exact pairwise_map.mpr (pairwise_firstAppearances.imp fun hab h =>
    hab ((hright _ _).mp (merges_gathered.mp h)))

/-- A rule that appears for the first time stands for itself only. -/
theorem map_gathered_concat (hnone : hasMerging (firstAppearances rules) rule = false) :
    (firstAppearances rules ++ [rule]).map (gathered (rules ++ [rule])) =
      (firstAppearances rules).map (gathered rules) ++ [rule] := by
  have hself : gathered (rules ++ [rule]) rule = rule := by
    rw [gathered]
    split
    · next hcap =>
      have hothers : rules.filter (fun other => rule.Merges other) = [] := by
        refine filter_eq_nil_iff.mpr fun other hother hmerges => ?_
        obtain ⟨-, hcap', hsrc, hproto⟩ := of_decide_eq_true hmerges
        have hfirst := hasMerging_firstAppearances hother hcap'
        obtain ⟨first, hmem, hfirst⟩ := any_eq_true.mp hfirst
        refine hasMerging_eq_false.mp hnone first hmem ?_
        exact (of_decide_eq_true hfirst).trans ⟨hcap, hcap', hsrc, hproto⟩
      have hown : rule.Merges rule := ⟨hcap, hcap, rfl, rfl⟩
      simp [hothers, hown]
    · rfl
  rw [map_append, map_singleton, hself]
  congr 1
  refine map_congr_left fun first hfirst => ?_
  rw [gathered_concat, FilterRule.extended, if_neg]
  rw [merges_gathered]
  exact hasMerging_eq_false.mp hnone first hfirst

lemma coalesceFilterRules_concat : coalesceFilterRules (rules ++ [rule]) =
    appendCoalescedFilterRule (coalesceFilterRules rules) rule := by
  simp [coalesceFilterRules]

/-- The scan finds the first appearances and gathers their destinations. -/
theorem coalesceFilterRules_eq (rules : List FilterRule) :
    coalesceFilterRules rules = (firstAppearances rules).map (gathered rules) := by
  induction rules using List.reverseRecOn with
  | nil => rfl
  | append_singleton rules rule ih =>
    have hold : ∀ firsts : List FilterRule, firsts.map (gathered (rules ++ [rule])) =
        (firsts.map (gathered rules)).map fun existing => existing.extended rule := by
      simp [gathered_concat]
    have hany : hasMerging ((firstAppearances rules).map (gathered rules)) rule =
        hasMerging (firstAppearances rules) rule := by
      simp [hasMerging, merges_gathered, Function.comp_def]
    rw [coalesceFilterRules_concat, ih, appendCoalescedFilterRule, firstAppearances_concat]
    by_cases hcap : rule.capGrant = []
    · rw [if_neg (not_not.mpr hcap), mergeInto_eq hcap pairwise_gathered, hany]
      cases hmerging : hasMerging (firstAppearances rules) rule with
      | true => exact (hold _).symm
      | false => exact (map_gathered_concat hmerging).symm
    · have hnone : hasMerging (firstAppearances rules) rule = false :=
        hasMerging_eq_false.mpr fun _ _ hmerges => hcap hmerges.2.1
      rw [if_pos hcap, hnone]
      exact (map_gathered_concat hnone).symm

lemma coalesceFilterRules_of_pairwise (h : rules.Pairwise fun a b => ¬ a.Merges b) :
    coalesceFilterRules rules = rules := by
  induction rules using List.reverseRecOn with
  | nil => rfl
  | append_singleton rules rule ih =>
    obtain ⟨hrules, -, hnew⟩ := pairwise_append.mp h
    rw [coalesceFilterRules_concat, ih hrules, appendCoalescedFilterRule]
    split
    · rfl
    next hcap =>
    have hnone : hasMerging rules rule = false :=
      hasMerging_eq_false.mpr fun other hother => hnew other hother rule (by simp)
    rw [mergeInto_eq (not_not.mp hcap) hrules, hnone]
    rfl

/-! ## Capability grants -/

lemma filter_mergeInto (hcap : rule.capGrant = []) :
    (mergeInto rule out).filter (·.capGrant ≠ []) = out.filter (·.capGrant ≠ []) := by
  induction out with
  | nil => simp [mergeInto, hcap]
  | cons existing rest ih =>
    rw [mergeInto]
    split
    · next hsame => simp [hsame.1]
    · rw [filter_cons, filter_cons, ih]

lemma filter_coalesceFilterRules :
    (coalesceFilterRules rules).filter (·.capGrant ≠ []) = rules.filter (·.capGrant ≠ []) := by
  induction rules using List.reverseRecOn with
  | nil => rfl
  | append_singleton rules rule ih =>
    rw [coalesceFilterRules_concat, appendCoalescedFilterRule, filter_append, ← ih]
    split
    · rw [filter_append]
    · next hcap => 
      rw [filter_mergeInto (not_not.mp hcap)]
      simp [not_not.mp hcap]

end Coalescing

/-- Coalescing keeps what a filter accepts and its capability rules; no two of the other rules have the
same sources and protocols; the rules are the first appearances, with the destinations of all the rules
they stand for in their order; and doing it again changes nothing. -/
theorem coalesced_filter_is_canonical (rules : List FilterRule) :
    (∀ packet, Accepts (coalesceFilterRules rules) packet ↔ Accepts rules packet) ∧
    (coalesceFilterRules rules).filter (·.capGrant ≠ []) = rules.filter (·.capGrant ≠ []) ∧
    ((coalesceFilterRules rules).filter (·.capGrant = [])).Pairwise
      (fun a b => ¬ (a.srcIps = b.srcIps ∧ a.ipProto = b.ipProto)) ∧
    coalesceFilterRules rules = (firstAppearances rules).map (gathered rules) ∧
    coalesceFilterRules (coalesceFilterRules rules) = coalesceFilterRules rules := by
  have hpairwise : (coalesceFilterRules rules).Pairwise fun a b => ¬ a.Merges b :=
    coalesceFilterRules_eq rules ▸ pairwise_gathered
  refine ⟨fun packet => ?_, filter_coalesceFilterRules, ?_, coalesceFilterRules_eq rules,
    coalesceFilterRules_of_pairwise hpairwise⟩
  · exact SameOffers.accepts_iff (fun _ _ => offers_coalesceFilterRules rules) packet
  · refine pairwise_filter.mpr (hpairwise.imp fun hab ha hb hsame => hab ?_)
    exact ⟨of_decide_eq_true ha, of_decide_eq_true hb, hsame⟩

end Headscale.Policy
