import Headscale.Hujson.Standardize

/-!
# What `standardize` writes

The standard form of a document is a JSON text, it differs from the document only in comments and in
commas before closing brackets, and `standardize` leaves it alone.
-/

namespace Headscale.Hujson

open JsonText GoJson List

/-! ## Spaces -/

variable (text : Bytes)

lemma gap_blanked : plainLayout.Gap (blanked text) := by
  intro b hb
  obtain ⟨c, -, rfl⟩ := mem_map.mp hb
  split
  · assumption
  · decide

variable {gap : Bytes}

lemma blanked_of_gap (h : plainLayout.Gap gap) : blanked gap = gap := by
  nth_rewrite 2 [← map_id gap]
  exact map_congr_left fun b hb => if_pos (h b hb)

lemma isExtra_of_gap (h : plainLayout.Gap gap) : IsExtra gap := by
  induction gap with
  | nil => exact .nil
  | cons b gap ih =>
    have hb : IsPiece [b] := .inl ⟨b, h b (by simp), rfl⟩
    exact .cons hb (ih fun c hc => h c (by simp [hc]))

/-! ## Standard trees are JSON -/

variable {bracket : Bracket}

lemma keyFits_standard {key : Option Key} (h : KeyFits relaxedLayout bracket key) :
    KeyFits plainLayout bracket (key.map standardKey) := by
  cases bracket <;> cases key <;> first | exact h.elim | trivial | exact ⟨gap_blanked _, h.2.1, gap_blanked _⟩

lemma entryBefore_fits {key : Option Key} {before : Bytes} {value : Tree} {after : Bytes}
    {rest : Body} (hkey : KeyFits plainLayout bracket key) (hbefore : plainLayout.Gap before)
    (hvalue : value.Fits plainLayout) (hafter : plainLayout.Gap after)
    (hrest : rest.Fits plainLayout bracket True) :
    (entryBefore key before value after rest).Fits plainLayout bracket True := by
  cases rest with
  | close gap =>
    refine ⟨hkey, hbefore, hvalue, ?_⟩
    intro b hb
    rcases mem_append.mp hb with hb | hb
    · exact hafter b hb
    · rcases mem_cons.mp hb with rfl | hb
      · decide
      · exact hrest.1 b hb
  | last | more => exact ⟨hkey, hbefore, hvalue, hafter, hrest⟩

mutual

lemma standardTree_fits {value : Tree} (h : value.Fits relaxedLayout) :
    (standardTree value).Fits plainLayout := by
  cases value with
  | scalar text => exact h
  | node bracket body => exact standardBody_fits h

lemma standardBody_fits {bracket : Bracket} {first : Prop} {body : Body}
    (h : body.Fits relaxedLayout bracket first) : (standardBody body).Fits plainLayout bracket True := by
  cases body with
  | close gap => exact ⟨gap_blanked gap, .inl trivial⟩
  | last key before value after =>
    obtain ⟨hkey, -, hvalue, -⟩ := h
    exact ⟨keyFits_standard hkey, gap_blanked _, standardTree_fits hvalue, gap_blanked _⟩
  | more key before value after rest =>
    obtain ⟨hkey, -, hvalue, -, hrest⟩ := h
    exact entryBefore_fits (keyFits_standard hkey) (gap_blanked _) (standardTree_fits hvalue)
      (gap_blanked _) (standardBody_fits hrest)

end

/-! ## JSON is standard -/

lemma keyFits_relaxed {key : Option Key} (h : KeyFits plainLayout bracket key) :
    KeyFits relaxedLayout bracket key ∧ key.map standardKey = key := by
  cases bracket with
  | array =>
    cases key with
    | none => exact ⟨trivial, rfl⟩
    | some key => exact h.elim
  | object =>
    cases key with
    | none => exact h.elim
    | some key =>
      obtain ⟨hbefore, hname, hafter⟩ := h
      refine ⟨⟨isExtra_of_gap hbefore, hname, isExtra_of_gap hafter⟩, ?_⟩
      simp [standardKey, blanked_of_gap hbefore, blanked_of_gap hafter]

mutual

lemma standardTree_of_plain {value : Tree} (h : value.Fits plainLayout) :
    value.Fits relaxedLayout ∧ standardTree value = value := by
  cases value with
  | scalar text => exact ⟨h, rfl⟩
  | node bracket body =>
    obtain ⟨hfits, hbody⟩ := standardBody_of_plain h
    exact ⟨hfits, by rw [standardTree, hbody]⟩

lemma standardBody_of_plain {bracket : Bracket} {first : Prop} {body : Body}
    (h : body.Fits plainLayout bracket first) :
    body.Fits relaxedLayout bracket first ∧ standardBody body = body := by
  cases body with
  | close gap =>
    obtain ⟨hgap, -⟩ := h
    exact ⟨⟨isExtra_of_gap hgap, .inr trivial⟩, by rw [standardBody, blanked_of_gap hgap]⟩
  | last key before value after =>
    obtain ⟨hkey, hbefore, hvalue, hafter⟩ := h
    obtain ⟨hkey', heq⟩ := keyFits_relaxed hkey
    obtain ⟨hvalue', hvalueEq⟩ := standardTree_of_plain hvalue
    refine ⟨⟨hkey', isExtra_of_gap hbefore, hvalue', isExtra_of_gap hafter⟩, ?_⟩
    rw [standardBody, heq, blanked_of_gap hbefore, hvalueEq, blanked_of_gap hafter]
  | more key before value after rest =>
    obtain ⟨hkey, hbefore, hvalue, hafter, hrest⟩ := h
    obtain ⟨hkey', heq⟩ := keyFits_relaxed hkey
    obtain ⟨hvalue', hvalueEq⟩ := standardTree_of_plain hvalue
    obtain ⟨hrest', hrestEq⟩ := standardBody_of_plain hrest
    refine ⟨⟨hkey', isExtra_of_gap hbefore, hvalue', isExtra_of_gap hafter, hrest'⟩, ?_⟩
    rw [standardBody, heq, blanked_of_gap hbefore, hvalueEq, blanked_of_gap hafter, hrestEq]
    -- a container of plain JSON does not end after a comma
    cases rest with
    | close gap => exact hrest.2.elim False.elim False.elim
    | last | more => rfl

end

/-! ## What changes -/

/-- The second text is the first with blanks over comments and over commas before closing brackets; the
spaces in comments stay, and so do literals as a whole. -/
inductive Rewrites : Bytes → Bytes → Prop where
  | nil : Rewrites [] []
  | space {b : UInt8} {raw out : Bytes} (hb : isSpace b = true) (h : Rewrites raw out) :
      Rewrites (b :: raw) (b :: out)
  | comment {text raw out : Bytes} (htext : IsComment text) (h : Rewrites raw out) :
      Rewrites (text ++ raw) (blanked text ++ out)
  | literal {token raw out : Bytes} (htoken : IsScalar token) (h : Rewrites raw out) :
      Rewrites (token ++ raw) (token ++ out)
  | punctuation {b : UInt8} {raw out : Bytes}
      (hb : b ∈ [openBracket, closeBracket, openBrace, closeBrace, comma, colon])
      (h : Rewrites raw out) : Rewrites (b :: raw) (b :: out)
  | lastComma {bracket : Bracket} {gap raw out : Bytes} (hgap : IsExtra gap)
      (h : Rewrites (gap ++ bracket.closing :: raw) out) :
      Rewrites (comma :: (gap ++ bracket.closing :: raw)) (blank :: out)

variable {raw out : Bytes}

lemma Rewrites.length (h : Rewrites raw out) : out.length = raw.length := by
  induction h with
  | nil => rfl
  | comment _ _ ih => simp [blanked, ih]
  | literal _ _ ih | space _ _ ih | punctuation _ _ ih => simp [ih]
  | lastComma _ _ ih => simp_all

lemma Rewrites.extra (hgap : IsExtra gap) (h : Rewrites raw out) :
    Rewrites (gap ++ raw) (blanked gap ++ out) := by
  induction hgap with
  | nil => exact h
  | @cons first gap hpiece _ ih =>
    rw [blanked, map_append, append_assoc, append_assoc]
    rcases hpiece with ⟨b, hb, rfl⟩ | hcomment
    · simpa [hb] using .space hb ih
    · exact .comment hcomment ih

lemma Rewrites.closing (bracket : Bracket) (h : Rewrites raw out) :
    Rewrites (bracket.closing :: raw) (bracket.closing :: out) :=
  .punctuation (by cases bracket <;> decide) h

lemma Rewrites.key {key : Option Key} (hkey : KeyFits relaxedLayout bracket key)
    (h : Rewrites raw out) :
    Rewrites (keyText key ++ raw) (keyText (key.map standardKey) ++ out) := by
  cases key with
  | none => exact h
  | some key =>
    cases bracket with
    | array => exact hkey.elim
    | object =>
      obtain ⟨hbefore, hname, hafter⟩ := hkey
      have hcolon : Rewrites (colon :: raw) (colon :: out) := .punctuation (by decide) h
      have := Rewrites.extra hbefore (.literal (.inl hname) (Rewrites.extra hafter hcolon))
      simpa [keyText, Key.text, standardKey] using this

mutual

lemma rewrites_tree {value : Tree} (hvalue : value.Fits relaxedLayout) {raw out : Bytes}
    (h : Rewrites raw out) : Rewrites (value.text ++ raw) ((standardTree value).text ++ out) := by
  cases value with
  | scalar text => exact .literal hvalue h
  | node bracket body =>
    exact .punctuation (by cases bracket <;> decide) (rewrites_body hvalue h)

lemma rewrites_body {bracket : Bracket} {first : Prop} {body : Body}
    (hbody : body.Fits relaxedLayout bracket first) {raw out : Bytes} (h : Rewrites raw out) :
    Rewrites (body.text bracket ++ raw) ((standardBody body).text bracket ++ out) := by
  have hclosing := Rewrites.closing bracket h
  cases body with
  | close gap =>
    have := Rewrites.extra hbody.1 hclosing
    simpa [Body.text, standardBody] using this
  | last key before value after =>
    obtain ⟨hkey, hbefore, hvalue, hafter⟩ := hbody
    have := Rewrites.key hkey (Rewrites.extra hbefore (rewrites_tree hvalue
      (Rewrites.extra hafter hclosing)))
    simpa [Body.text, standardBody] using this
  | more key before value after rest =>
    obtain ⟨hkey, hbefore, hvalue, hafter, hrest⟩ := hbody
    have hrest' := rewrites_body hrest h
    have hcomma : Rewrites (comma :: (rest.text bracket ++ raw))
        (afterText bracket (standardBody rest) ++ out) := by
      have hentry (hentry : IsEntry rest) : Rewrites (comma :: (rest.text bracket ++ raw))
          (afterText bracket (standardBody rest) ++ out) := by
        rw [afterText_entry (isEntry_standardBody hentry)]
        exact .punctuation (by decide) hrest'
      cases rest with
      | close gap =>
        simp only [Body.text, afterText, append_assoc, cons_append] at hrest' ⊢
        exact .lastComma hrest.1 hrest'
      | last | more => exact hentry trivial
    have := Rewrites.key hkey (Rewrites.extra hbefore (rewrites_tree hvalue
      (Rewrites.extra hafter hcomma)))
    simpa [Body.text, standardBody, text_entryBefore] using this

end

/-! ## The standard text -/

theorem standardize_writes_standard_text {raw out : Bytes} (h : standardize raw = .ok out) :
    out.length = raw.length ∧ Rewrites raw out ∧ (∃ depth, IsJson depth out) ∧
      standardize out = .ok out := by
  obtain ⟨⟨before, tree, after, hbefore, hfits, hafter⟩, rfl, rfl⟩ := standardize_eq_ok.mp h
  have hplain := standardTree_fits hfits
  obtain ⟨hrelaxed, hagain⟩ := standardTree_of_plain hplain
  have hrewrites : Rewrites (before ++ (tree.text ++ after))
      (blanked before ++ ((standardTree tree).text ++ blanked after)) := by
    have hend : Rewrites after (blanked after) := by simpa using Rewrites.extra hafter .nil
    exact Rewrites.extra hbefore (rewrites_tree hfits hend)
  refine ⟨hrewrites.length, hrewrites, ⟨_, isJson_iff.mpr ⟨_, _, _, gap_blanked _,
    ⟨_, hplain, le_refl _, rfl⟩, gap_blanked _, rfl⟩⟩, ?_⟩
  -- the standard text is the text of a document, whose standard form is itself
  refine standardize_eq_ok.mpr ⟨⟨blanked before, standardTree tree, blanked after,
    isExtra_of_gap (gap_blanked _), hrelaxed, isExtra_of_gap (gap_blanked _)⟩, rfl, ?_⟩
  simp only [hagain, blanked_of_gap (gap_blanked _)]

/-- `[1, // x⏎]` loses its comma and its comment. -/
theorem commented_list_is_standardized :
    let raw : Bytes := [openBracket, 0x31, comma, blank, slash, slash, 0x78, lineFeed, closeBracket]
    let out : Bytes := [openBracket, 0x31, blank, blank, blank, blank, blank, lineFeed, closeBracket]
    standardize raw = .ok out ∧ out.length = raw.length ∧ Rewrites raw out ∧
      (∃ depth, IsJson depth out) ∧ standardize out = .ok out := by
  intro raw out
  have hrun : standardize raw = .ok out := by rfl
  exact ⟨hrun, standardize_writes_standard_text hrun⟩

end Headscale.Hujson
