import Headscale.Lib.Result
import Headscale.Policy.Store

/-!
# Flattened tag owners

`flatten_tag_owners` walks from every tag along the tags that own it. It does not go back to a tag of
the current path, so it walks along every path without repetition, and what it collects is listed by
the tags that can be reached at all.
-/

namespace Headscale.Policy

open Collection Relation List

/-- The owner is a tag. -/
def isOwningTag (owner : String) : Bool :=
  !Text.containsChar '@' owner && Text.startsWith "tag:" owner

section Walk

variable (tagOwners : List (String × List String))

/-- What a tag lists as its owners. -/
def listedOwners (tag : String) : List String := (tagOwners.lookup tag).getD []

/-- The tag lists another tag, which is not one of the given ones. -/
def OwnedOutside (visiting : List String) (tag owner : String) : Prop :=
  (owner ∈ listedOwners tagOwners tag ∧ isOwningTag owner = true) ∧ owner ∉ visiting

/-- A tag that can be reached without the given ones lists the owner, which is not a tag. -/
def OwnedThrough (visiting : List String) (tag owner : String) : Prop :=
  ∃ reached, ReflTransGen (OwnedOutside tagOwners visiting) tag reached ∧
    owner ∈ listedOwners tagOwners reached ∧ isOwningTag owner = false

variable {tagOwners} {visiting : List String} {tag owner : String}

/-- A path either stays where it starts, or leaves and does not come back. -/
theorem reach_cases {reached : String}
    (h : ReflTransGen (OwnedOutside tagOwners visiting) tag reached) :
    reached = tag ∨ ∃ next, OwnedOutside tagOwners (tag :: visiting) tag next ∧
      ReflTransGen (OwnedOutside tagOwners (tag :: visiting)) next reached := by
  induction h with
  | refl => exact .inl rfl
  | @tail middle last _ hlast ih =>
    by_cases hback : last = tag
    · exact .inl hback
    have hlast' : OwnedOutside tagOwners (tag :: visiting) middle last :=
      ⟨hlast.1, by simp [hback, hlast.2]⟩
    rcases ih with rfl | ⟨next, hnext, hpath⟩
    · exact .inr ⟨last, hlast', .refl⟩
    · exact .inr ⟨next, hnext, hpath.tail hlast'⟩

variable (tagOwners) in
/-- What is collected at one of the owners that a tag lists. -/
def CollectedAt (visiting : List String) (tag next owner : String) : Prop :=
  if isOwningTag next = true then
    next ∉ tag :: visiting ∧ OwnedThrough tagOwners (tag :: visiting) next owner
  else owner = next

lemma ownedThrough_iff : OwnedThrough tagOwners visiting tag owner ↔
    ∃ next ∈ listedOwners tagOwners tag, CollectedAt tagOwners visiting tag next owner := by
  constructor
  · rintro ⟨reached, hpath, hlisted, howner⟩
    rcases reach_cases hpath with rfl | ⟨next, ⟨⟨hnext, htag⟩, hout⟩, hpath'⟩
    · exact ⟨owner, hlisted, by simp [CollectedAt, howner]⟩
    · exact ⟨next, hnext, by rw [CollectedAt, if_pos htag]; exact ⟨hout, reached, hpath', hlisted, howner⟩⟩
  · rintro ⟨next, hnext, hcollected⟩
    unfold CollectedAt at hcollected
    split at hcollected
    · next htag =>
      obtain ⟨hout, reached, hpath, hlisted, howner⟩ := hcollected
      have hsteps : ReflTransGen (OwnedOutside tagOwners visiting) next reached :=
        ReflTransGen.mono (fun a b hab => ⟨hab.1, fun hb => hab.2 (mem_cons_of_mem _ hb)⟩) _ _ hpath
      exact ⟨reached, hsteps.head ⟨⟨hnext, htag⟩, fun h => hout (mem_cons_of_mem _ h)⟩, hlisted, howner⟩
    · next htag =>
      subst hcollected
      exact ⟨tag, .refl, hnext, Bool.not_eq_true _ ▸ htag⟩

end Walk

/-! ## The loop over the owners of a tag -/

/-- A loop that appends what it finds at each element. -/
theorem foldlM_append_spec {ε : Type} {step : List String → String → Except ε (List String)}
    {P : String → String → Prop} {owners : List String}
    (hstep : ∀ next ∈ owners, ∃ piece, (∀ result, step result next = .ok (result ++ piece)) ∧
      ∀ owner, owner ∈ piece ↔ P next owner) (init : List String) :
    ∃ result, owners.foldlM step init = .ok result ∧
      ∀ owner, owner ∈ result ↔ owner ∈ init ∨ ∃ next ∈ owners, P next owner := by
  induction owners generalizing init with
  | nil => exact ⟨init, rfl, by simp⟩
  | cons next owners ih =>
    obtain ⟨piece, hpiece, hmem⟩ := hstep next (by simp)
    obtain ⟨result, hresult, howner⟩ := ih (fun n hn => hstep n (mem_cons_of_mem _ hn)) (init ++ piece)
    refine ⟨result, ?_, fun owner => ?_⟩
    · rw [foldlM_cons, hpiece]
      exact hresult
    · rw [howner, mem_append, hmem, exists_mem_cons_iff, or_assoc]

section Flattening

variable {tagOwners : List (String × List String)}

/-- A tag lists a tag that is not defined. -/
def ListsUndefined (tagOwners : List (String × List String)) : Prop :=
  ∃ tag owners owner, tagOwners.lookup tag = some owners ∧ owner ∈ owners ∧
    isOwningTag owner = true ∧ tagOwners.lookup owner = none

/-- With enough levels for the tags that are not being expanded yet, the walk collects everything. -/
theorem flattenOwners_spec (hdefined : ¬ ListsUndefined tagOwners) (depth : Nat) (visiting : List String)
    (hnodup : visiting.Nodup) (hsub : ∀ tag ∈ visiting, tag ∈ tagOwners.map Prod.fst)
    (hdepth : tagOwners.length + 1 ≤ depth + visiting.length) (tag : String) :
    ∃ result, flattenOwners tagOwners depth visiting tag = .ok result ∧
      ∀ owner, owner ∈ result ↔ tag ∉ visiting ∧ OwnedThrough tagOwners visiting tag owner := by
  induction depth generalizing visiting tag with
  | zero =>
    have hle := (subperm_of_subset hnodup hsub).length_le
    rw [length_map] at hle
    omega
  | succ depth ih =>
    rw [flattenOwners]
    by_cases hvisiting : tag ∈ visiting
    · exact ⟨[], if_pos hvisiting, by simp [hvisiting]⟩
    simp only [hvisiting, ownedThrough_iff]
    refine (foldlM_append_spec (P := CollectedAt tagOwners visiting tag) (fun next hnext => ?_) []).imp
      fun result h => ⟨h.1, fun owner => (h.2 owner).trans (by simp [listedOwners])⟩
    obtain ⟨owners, howners⟩ : ∃ owners, tagOwners.lookup tag = some owners :=
      Option.ne_none_iff_exists'.mp fun hnone => by simp [hnone] at hnext
    have htagKey : tag ∈ tagOwners.map Prod.fst := mem_map.mpr ⟨_, mem_of_lookup howners, rfl⟩
    cases htag : isOwningTag next with
    | false => exact ⟨[next], fun result => if_neg (by simpa [isOwningTag] using htag),
        fun owner => by simp [CollectedAt, htag]⟩
    | true =>
      obtain ⟨listed, hlisted⟩ := Option.ne_none_iff_exists'.mp fun hnone => hdefined
        ⟨tag, owners, next, howners, by simpa [howners] using hnext, htag, hnone⟩
      obtain ⟨piece, hpiece, hmem⟩ := ih (tag :: visiting) (nodup_cons.mpr ⟨hvisiting, hnodup⟩)
        (forall_mem_cons.mpr ⟨htagKey, hsub⟩) (by simp only [length_cons]; omega) next
      refine ⟨piece, fun result => ?_, fun owner => ?_⟩
      · rw [if_pos (by simpa [isOwningTag] using htag), hlisted, hpiece]
        rfl
      · rw [hmem, CollectedAt, if_pos htag]

lemma defined_of_flattenTagOwners {doc : PolicyDoc} {flat : List (String × List String)}
    (h : flattenTagOwners doc = .ok flat) : ¬ ListsUndefined doc.tagOwners := by
  rintro ⟨tag, owners, owner, htag, howner, htagged, hundefined⟩
  obtain ⟨y, hy⟩ := Result.exists_ok_of_mapM h _ (mem_of_lookup htag)
  cases hwalk : flattenOwners doc.tagOwners (doc.tagOwners.length + 1) [] tag with
  | error e => simp [hwalk, Except.map] at hy
  | ok result =>
    rw [flattenOwners, if_neg (by simp), htag] at hwalk
    obtain ⟨b, b', hstep⟩ := Result.exists_ok_of_foldlM hwalk owner howner
    rw [if_pos (by simpa [isOwningTag] using htagged), hundefined] at hstep
    cases hstep

/-- What a tag is flattened to. -/
def FlattensTo (tagOwners : List (String × List String)) (entry owned : String × List String) : Prop :=
  owned.1 = entry.1 ∧ owned.2.Pairwise (· < ·) ∧
    ∀ owner, owner ∈ owned.2 ↔ OwnedThrough tagOwners [] entry.1 owner

lemma flattenTagOwners_spec {doc : PolicyDoc} (h : ¬ ListsUndefined doc.tagOwners) :
    ∃ flat, flattenTagOwners doc = .ok flat ∧
      List.Forall₂ (FlattensTo doc.tagOwners) doc.tagOwners flat := by
  refine Result.mapM_spec fun entry _ => ?_
  obtain ⟨result, hresult, howner⟩ := flattenOwners_spec h (doc.tagOwners.length + 1) [] .nil (by simp)
    (by simp) entry.1
  exact ⟨(entry.1, sortDedup result), by rw [hresult]; rfl, rfl, pairwise_sortDedup result, by simp [howner]⟩

end Flattening

/-- Flattening comes to an end; it fails exactly if a tag lists an undefined tag; and otherwise a tag is
mapped, in order and without repetition, to the owners that are no tags and are listed by a tag that it
reaches through owning tags. -/
theorem flattened_owners_are_those_reached (doc : PolicyDoc) :
    (∀ extra tag, flattenOwners doc.tagOwners (doc.tagOwners.length + 1 + extra) [] tag =
      flattenOwners doc.tagOwners (doc.tagOwners.length + 1) [] tag) ∧
    ((∃ e, flattenTagOwners doc = .error e) ↔ ListsUndefined doc.tagOwners) ∧
    ∀ flat, flattenTagOwners doc = .ok flat →
      List.Forall₂ (FlattensTo doc.tagOwners) doc.tagOwners flat := by
  refine ⟨fun extra tag => flattenOwners_depth doc.tagOwners extra tag, ⟨?_, ?_⟩, fun flat hflat => ?_⟩
  · rintro ⟨e, he⟩
    by_contra hdefined
    obtain ⟨flat, hflat, -⟩ := flattenTagOwners_spec hdefined
    cases he.symm.trans hflat
  · intro hundefined
    cases hflat : flattenTagOwners doc with
    | error e => exact ⟨e, rfl⟩
    | ok flat => exact absurd hundefined (defined_of_flattenTagOwners hflat)
  · obtain ⟨flat', hflat', hflattens⟩ := flattenTagOwners_spec (defined_of_flattenTagOwners hflat)
    cases hflat.symm.trans hflat'
    exact hflattens

end Headscale.Policy
