import Mathlib.Data.List.DropRight
import Headscale.GoJson.Tokens
import Headscale.Lib.Loop

/-!
# The cursor

`Cursor::value_with_depth` reads one value with a stack of frames instead of recursion, and `validate`
asks that nothing but spaces surrounds it. What each frame still wants of the text is the rest of a
container, so the loop accepts exactly the JSON texts whose nesting stays within the limit.
-/

namespace Headscale.GoJson

open JsonText List Bracket

/-! ## The loop -/

inductive Frame where
  | arrayFirst
  | arrayComma
  | objectFirst
  | objectKey
  | objectColon
  | objectComma
deriving DecidableEq, Repr

/-- The only error of a cursor. -/
def invalid : String := "invalid JSON"

/-- The state between turns: whether a value comes next, the open containers, innermost first, and
the text that is left. -/
structure CursorState where
  value : Bool
  frames : List Frame
  rest : Bytes
deriving DecidableEq, Repr

/-- The first half of a turn reads a scalar or opens a container. -/
def valueTurn (maxDepth : Option Nat) (frames : List Frame) (text : Bytes) : Option CursorState :=
  match text with
  | [] => none
  | b :: rest =>
    if b = openBracket ∨ b = openBrace then
      if maxDepth.any fun limit => frames.length ≥ limit then none
      else some ⟨false, (if b = openBracket then .arrayFirst else .objectFirst) :: frames, rest⟩
    else (scalar text).map fun rest => ⟨false, frames, rest⟩

/-- The second half of a turn does what the innermost frame waits for. -/
def frameTurn (frame : Frame) (frames : List Frame) (text : Bytes) : Option CursorState :=
  match frame with
  | .arrayFirst =>
    match text with
    | b :: rest =>
      if b = closeBracket then some ⟨false, frames, rest⟩
      else some ⟨true, .arrayComma :: frames, b :: rest⟩
    | [] => some ⟨true, .arrayComma :: frames, []⟩
  | .arrayComma =>
    match text with
    | b :: rest =>
      if b = comma then some ⟨true, .arrayComma :: frames, rest⟩
      else if b = closeBracket then some ⟨false, frames, rest⟩
      else none
    | [] => none
  | .objectFirst =>
    match text with
    | b :: rest =>
      if b = closeBrace then some ⟨false, frames, rest⟩
      else (quoted (b :: rest)).map fun rest => ⟨false, .objectColon :: frames, rest⟩
    | [] => none
  | .objectKey => (quoted text).map fun rest => ⟨false, .objectColon :: frames, rest⟩
  | .objectColon => (take colon text).map fun rest => ⟨true, .objectComma :: frames, rest⟩
  | .objectComma =>
    match text with
    | b :: rest =>
      if b = comma then some ⟨false, .objectKey :: frames, rest⟩
      else if b = closeBrace then some ⟨false, frames, rest⟩
      else none
    | [] => none

/-- Half a turn of the loop: the two halves of a turn of the source follow each other. -/
def cursorStep (maxDepth : Option Nat) (s : CursorState) : Except String (CursorState ⊕ Bytes) :=
  if s.value then
    match valueTurn maxDepth s.frames (dropSpace s.rest) with
    | some s' => .ok (.inl s')
    | none => .error invalid
  else
    match s.frames with
    | [] => .ok (.inr s.rest)
    | frame :: frames =>
      match frameTurn frame frames (dropSpace s.rest) with
      | some s' => .ok (.inl s')
      | none => .error invalid

/-! ## The text gets shorter -/

lemma length_dropSpace_le (text : Bytes) : (dropSpace text).length ≤ text.length :=
  length_dropWhile_le _ _

lemma length_scalar {text rest : Bytes} (h : scalar text = some rest) :
    rest.length < text.length := by
  obtain ⟨token, htoken, rfl⟩ := scalar_eq_some h
  obtain ⟨b, tail, rfl, -⟩ := htoken.head
  simp only [length_append, length_cons]
  omega

lemma length_quoted {text rest : Bytes} (h : quoted text = some rest) :
    rest.length < text.length := by
  obtain ⟨_, ⟨body, rfl, -⟩, rfl⟩ := quoted_iff.mp h
  simp only [length_append, length_cons]
  omega

/-- The bytes left, twice; opening the first entry of an array takes a half turn without any. -/
def CursorState.size (s : CursorState) : Nat := 2 * s.rest.length + if s.value then 0 else 1

variable {frame : Frame} {s : CursorState}

open CursorState

lemma size_valueTurn {maxDepth : Option Nat} {frames : List Frame} {text : Bytes}
    (h : valueTurn maxDepth frames text = some s) : s.size < 2 * text.length := by
  unfold valueTurn at h
  split at h
  · cases h
  split at h
  · split at h <;> cases h
    simp only [size, length_cons]
    split <;> omega
  · obtain ⟨rest, hscalar, rfl⟩ := Option.map_eq_some_iff.mp h
    have := length_scalar hscalar
    simp only [size]
    split <;> omega

/-- A frame takes one byte, or the name of a member, or leaves the text to a value. -/
theorem frameTurn_rest {frames : List Frame} {text : Bytes}
    (h : frameTurn frame frames text = some s) :
    (∃ b, text = b :: s.rest) ∨ quoted text = some s.rest ∨ (s.rest = text ∧ s.value = true) := by
  unfold frameTurn at h
  cases frame <;> cases text <;> simp only [take] at h <;> grind [Option.map_eq_some_iff]

lemma size_frameTurn {frames : List Frame} {text : Bytes}
    (h : frameTurn frame frames text = some s) : s.size < 2 * text.length + 1 := by
  have hflag : ∀ flag : Bool, (if flag then 0 else 1) ≤ 1 := by decide
  have := hflag s.value
  unfold size
  rcases frameTurn_rest h with ⟨b, rfl⟩ | hquoted | ⟨hrest, hvalue⟩
  · simp only [length_cons]
    omega
  · have := length_quoted hquoted
    omega
  · simp only [hrest, hvalue, if_true]
    omega

/-- The loop of `value_with_depth`, which ends with the text after the value. -/
def cursorLoop (maxDepth : Option Nat) : Loop CursorState String Bytes where
  step := cursorStep maxDepth
  size := size
  decreases := by
    intro s s' h
    have hspace := length_dropSpace_le s.rest
    unfold cursorStep at h
    split at h
    · rename_i hvalue
      split at h <;> cases h
      rename_i next hturn
      have := size_valueTurn hturn
      simp only [size, hvalue, if_true] at this ⊢
      omega
    · rename_i hvalue
      split at h
      · cases h
      split at h <;> cases h
      rename_i next hturn
      have := size_frameTurn hturn
      simp only [size, hvalue, Bool.false_eq_true, if_false] at this ⊢
      omega

/-- `value_with_depth`: the text after the value. -/
def valueWithDepth (maxDepth : Option Nat) (text : Bytes) : Except String Bytes :=
  (cursorLoop maxDepth).run ⟨true, [], dropSpace text⟩

/-- `Cursor::done`. -/
def done (text : Bytes) : Except String Unit :=
  if dropSpace text = [] then .ok () else .error invalid

def validateWithDepth (bytes : Bytes) (maxDepth : Nat) : Except String Unit := do
  let rest ← valueWithDepth (some maxDepth) bytes
  done rest

def maxDepth : Nat := 10000

def validate (bytes : Bytes) : Except String Unit := validateWithDepth bytes maxDepth

/-! ## What the frames want -/

/-- What a frame wants of the text, up to its closing bracket, with `n` levels left inside it. -/
def FrameText (n : Nat) : Frame → Bytes → Prop
  | .arrayFirst, text => BodyText plainLayout n .array True text
  | .arrayComma, text => TailText plainLayout n .array text
  | .objectFirst, text => BodyText plainLayout n .object True text
  | .objectKey, text => BodyText plainLayout n .object False text
  | .objectColon, text => ∃ gap before value tail, plainLayout.Gap gap ∧ plainLayout.Gap before ∧
      ValueText plainLayout n value ∧ TailText plainLayout n .object tail ∧
      text = gap ++ colon :: (before ++ (value ++ tail))
  | .objectComma, text => TailText plainLayout n .object text

/-- The text starts with bytes of the first kind, and bytes of the second kind follow. -/
def Then (P Q : Bytes → Prop) (text : Bytes) : Prop := ∃ inner rest, P inner ∧ text = inner ++ rest ∧ Q rest

/-- The text ends the open containers one after the other, and then has only spaces. -/
def Completes (limit : Nat) : List Frame → Bytes → Prop
  | [] => plainLayout.Gap
  | frame :: frames => Then (FrameText (limit - (frames.length + 1)) frame) (Completes limit frames)

/-- The text is what the state of the loop waits for. -/
def Accepts (limit : Nat) (s : CursorState) : Prop :=
  if s.value then
    ∃ before text, plainLayout.Gap before ∧ s.rest = before ++ text ∧
      Then (ValueText plainLayout (limit - s.frames.length)) (Completes limit s.frames) text
  else Completes limit s.frames s.rest

def Frame.IsComma (frame : Frame) : Prop := frame = .arrayComma ∨ frame = .objectComma

/-- Below the innermost frame every frame waits for a comma, and so does the innermost one while a
value is read. -/
def CursorState.Nested (s : CursorState) : Prop :=
  ∀ frame ∈ if s.value then s.frames else s.frames.tail, frame.IsComma

/-! ## Spaces and what follows a value -/

lemma dropSpace_append {gap text : Bytes} (hgap : plainLayout.Gap gap) (htext : Stops isSpace text) :
    dropSpace (gap ++ text) = text := dropWhile_append hgap htext

lemma dropSpace_append_cons {gap : Bytes} (hgap : plainLayout.Gap gap) {b : UInt8}
    (hb : isSpace b = false) (text : Bytes) : dropSpace (gap ++ b :: text) = b :: text :=
  dropSpace_append hgap (stops_cons.mpr hb)

lemma exists_of_dropSpace {text rest : Bytes} (h : dropSpace text = rest) :
    ∃ gap, plainLayout.Gap gap ∧ text = gap ++ rest := by
  obtain ⟨gap, htext, hgap⟩ := exists_dropWhile isSpace text
  exact ⟨gap, hgap, h ▸ htext⟩

lemma dropSpace_eq_nil {text : Bytes} : dropSpace text = [] ↔ plainLayout.Gap text :=
  dropWhile_eq_nil_iff

lemma stops_value {n : Nat} {value : Bytes} (h : ValueText plainLayout n value) (rest : Bytes) :
    Stops isSpace (value ++ rest) := by
  obtain ⟨b, tail, rfl, hb⟩ := h.head
  exact stops_cons.mpr (isValueStart_spec hb).1

lemma stops_isNumberByte_gap {gap text : Bytes} (hgap : plainLayout.Gap gap)
    (htext : Stops isNumberByte text) : Stops isNumberByte (gap ++ text) := by
  cases gap with
  | nil => exact htext
  | cons b gap =>
    refine stops_cons.mpr ?_
    exact Text.forall_byte (P := fun b => isSpace b = true → isNumberByte b = false)
      (by decide +kernel) b (hgap b (by simp))

lemma stops_isNumberByte_tail {n : Nat} {bracket : Bracket} {tail : Bytes}
    (h : TailText plainLayout n bracket tail) (rest : Bytes) : Stops isNumberByte (tail ++ rest) := by
  obtain ⟨gap, hgap, rfl | ⟨body, -, rfl⟩⟩ := h
  · rw [append_assoc]
    refine stops_isNumberByte_gap hgap (stops_cons.mpr ?_)
    cases bracket <;> decide
  · rw [append_assoc]
    exact stops_isNumberByte_gap hgap (stops_cons.mpr (by decide))

section Turns

variable {limit : Nat} {frames : List Frame} {text : Bytes}

/-- What follows a value cannot prolong a number. -/
theorem stops_completes (hframes : ∀ frame ∈ frames, frame.IsComma)
    (h : Completes limit frames text) : Stops isNumberByte text := by
  cases frames with
  | nil => simpa using stops_isNumberByte_gap h (stops_nil _)
  | cons frame frames =>
    obtain ⟨inner, rest, hinner, rfl, -⟩ := h
    rcases hframes frame (by simp) with rfl | rfl
    · exact stops_isNumberByte_tail hinner rest
    · exact stops_isNumberByte_tail hinner rest

/-! ## The turns

A turn leaves the text that is wanted: each lemma says so of one half of a turn, in both directions. -/

lemma accepts_value : Accepts limit ⟨true, frames, text⟩ ↔
    Then (ValueText plainLayout (limit - frames.length)) (Completes limit frames) (dropSpace text) := by
  constructor
  · rintro ⟨before, _, hbefore, rfl, value, rest, hvalue, rfl, hrest⟩
    rw [dropSpace_append hbefore (stops_value hvalue rest)]
    exact ⟨value, rest, hvalue, rfl, hrest⟩
  · intro h
    obtain ⟨gap, hgap, htext⟩ := exists_of_dropSpace (rfl : dropSpace text = _)
    exact ⟨gap, dropSpace text, hgap, htext, h⟩

@[simp] lemma accepts_frames :
    Accepts limit ⟨false, frames, text⟩ ↔ Completes limit frames text := Iff.rfl

lemma completes_objectKey : Completes limit (.objectKey :: frames) text ↔
    Then (BodyText plainLayout (limit - (frames.length + 1)) .object False) (Completes limit frames)
      text := Iff.rfl

variable {bracket : Bracket}

/-- The state after an opening bracket. -/
theorem accepts_opened :
    Accepts limit ⟨false, (if bracket.opening = openBracket then .arrayFirst else .objectFirst) ::
        frames, text⟩ ↔
      Then (BodyText plainLayout (limit - (frames.length + 1)) bracket True) (Completes limit frames)
        text := by
  cases bracket with
  | array | object => exact Iff.rfl

lemma valueTurn_iff (hframes : ∀ frame ∈ frames, frame.IsComma) :
    (∃ s, valueTurn (some limit) frames text = some s ∧ Accepts limit s) ↔
      Then (ValueText plainLayout (limit - frames.length)) (Completes limit frames) text := by
  constructor
  · rintro ⟨s, hturn, haccepts⟩
    cases text with
    | nil => cases hturn
    | cons b text =>
      rw [valueTurn] at hturn
      by_cases hopen : b = openBracket ∨ b = openBrace
      · rw [if_pos hopen] at hturn
        obtain ⟨bracket, rfl⟩ : ∃ bracket : Bracket, b = bracket.opening := by
          rcases hopen with rfl | rfl
          · exact ⟨.array, rfl⟩
          · exact ⟨.object, rfl⟩
        obtain ⟨hlimit, hs⟩ := Option.ite_none_left_eq_some.mp hturn
        cases hs
        have hlevel : limit - frames.length = limit - (frames.length + 1) + 1 := by
          simp at hlimit
          omega
        obtain ⟨body, rest, hbody, rfl, hrest⟩ := accepts_opened.mp haccepts
        exact ⟨bracket.opening :: body, rest,
          valueText_iff.mpr (.inr ⟨_, bracket, body, hlevel, hbody, rfl⟩), rfl, hrest⟩
      · rw [if_neg hopen] at hturn
        obtain ⟨rest, hscalar, rfl⟩ := Option.map_eq_some_iff.mp hturn
        obtain ⟨token, htoken, heq⟩ := scalar_eq_some hscalar
        exact ⟨token, rest, valueText_iff.mpr (.inl htoken), heq, haccepts⟩
  · rintro ⟨value, rest, hvalue, rfl, hrest⟩
    rcases valueText_iff.mp hvalue with hscalar | ⟨m, bracket, body, hlevel, hbody, rfl⟩
    · have hread := scalar_append hscalar (stops_completes hframes hrest)
      obtain ⟨b, tail, rfl, -, hbracket, hbrace⟩ := hscalar.head
      refine ⟨⟨false, frames, rest⟩, ?_, hrest⟩
      rw [cons_append] at hread ⊢
      rw [valueTurn, if_neg (by simp [hbracket, hbrace]), hread, Option.map_some]
    · have hopen : bracket.opening = openBracket ∨ bracket.opening = openBrace := by
        cases bracket
        · exact .inl rfl
        · exact .inr rfl
      have hlevel' : limit - (frames.length + 1) = m := by omega
      refine ⟨_, ?_, accepts_opened.mpr ⟨body, rest, hlevel'.symm ▸ hbody, rfl, hrest⟩⟩
      rw [cons_append, valueTurn, if_pos hopen, if_neg (by simp; omega)]

/-- After an entry: the closing bracket, or a comma and the next entry. -/
theorem tailText_then {n : Nat} {Q : Bytes → Prop} :
    Then (TailText plainLayout n bracket) Q text ↔
      (∃ rest, dropSpace text = bracket.closing :: rest ∧ Q rest) ∨
      ∃ rest, dropSpace text = comma :: rest ∧ Then (BodyText plainLayout n bracket False) Q rest := by
  constructor
  · rintro ⟨_, rest, ⟨gap, hgap, rfl | ⟨body, hbody, rfl⟩⟩, rfl, hrest⟩
    · refine .inl ⟨rest, ?_, hrest⟩
      rw [append_assoc]
      exact dropSpace_append_cons hgap (by cases bracket <;> decide) _
    · refine .inr ⟨body ++ rest, ?_, body, rest, hbody, rfl, hrest⟩
      rw [append_assoc]
      exact dropSpace_append_cons hgap (by decide) _
  · rintro (⟨rest, hdrop, hrest⟩ | ⟨_, hdrop, body, rest, hbody, rfl, hrest⟩)
    · obtain ⟨gap, hgap, rfl⟩ := exists_of_dropSpace hdrop
      exact ⟨gap ++ [bracket.closing], rest, ⟨gap, hgap, .inl rfl⟩, by simp, hrest⟩
    · obtain ⟨gap, hgap, rfl⟩ := exists_of_dropSpace hdrop
      exact ⟨gap ++ comma :: body, rest, ⟨gap, hgap, .inr ⟨body, hbody, rfl⟩⟩, by simp, hrest⟩

/-- After the opening bracket: the closing bracket, or an entry. -/
theorem bodyText_then {n : Nat} {Q : Bytes → Prop} :
    Then (BodyText plainLayout n bracket True) Q text ↔
      (∃ rest, dropSpace text = bracket.closing :: rest ∧ Q rest) ∨
      Then (BodyText plainLayout n bracket False) Q text := by
  constructor
  · rintro ⟨body, rest, hbody, rfl, hrest⟩
    rcases bodyText_iff.mp hbody with ⟨gap, hgap, -, rfl⟩ | hentry
    · refine .inl ⟨rest, ?_, hrest⟩
      rw [append_assoc]
      exact dropSpace_append_cons hgap (by cases bracket <;> decide) _
    · exact .inr ⟨body, rest, bodyText_iff.mpr (.inr hentry), rfl, hrest⟩
  · rintro (⟨rest, hdrop, hrest⟩ | ⟨body, rest, hbody, rfl, hrest⟩)
    · obtain ⟨gap, hgap, rfl⟩ := exists_of_dropSpace hdrop
      exact ⟨gap ++ [bracket.closing], rest,
        bodyText_iff.mpr (.inl ⟨gap, hgap, .inl trivial, rfl⟩), by simp, hrest⟩
    · refine ⟨body, rest, ?_, rfl, hrest⟩
      rcases bodyText_iff.mp hbody with ⟨_, _, hfalse | hfalse, _⟩ | hentry
      · exact hfalse.elim
      · exact hfalse.elim
      · exact bodyText_iff.mpr (.inr hentry)

/-- An entry of an array is a value. -/
theorem bodyText_array_then :
    Then (BodyText plainLayout (limit - (frames.length + 1)) .array False) (Completes limit frames)
      text ↔ Accepts limit ⟨true, .arrayComma :: frames, text⟩ := by
  constructor
  · rintro ⟨body, rest, hbody, rfl, hrest⟩
    rcases bodyText_iff.mp hbody with ⟨_, _, hfalse | hfalse, _⟩ |
      ⟨_ | _, before, value, tail, hkey, hbefore, hvalue, htail, rfl⟩
    · exact hfalse.elim
    · exact hfalse.elim
    · exact ⟨before, value ++ (tail ++ rest), hbefore, by simp [keyText], value, tail ++ rest, hvalue,
        rfl, tail, rest, htail, rfl, hrest⟩
    · exact hkey.elim
  · rintro ⟨before, _, hbefore, rfl, value, _, hvalue, rfl, tail, rest, htail, rfl, hrest⟩
    exact ⟨before ++ (value ++ tail), rest,
      bodyText_iff.mpr (.inr ⟨none, before, value, tail, trivial, hbefore, hvalue, htail, rfl⟩),
      by simp, hrest⟩

/-- A member of an object starts with its name. -/
theorem bodyText_object_then :
    Then (BodyText plainLayout (limit - (frames.length + 1)) .object False) (Completes limit frames)
      text ↔ ∃ rest, quoted (dropSpace text) = some rest ∧
        Accepts limit ⟨false, .objectColon :: frames, rest⟩ := by
  constructor
  · rintro ⟨body, rest, hbody, rfl, hrest⟩
    rcases bodyText_iff.mp hbody with ⟨_, _, hfalse | hfalse, _⟩ |
      ⟨_ | key, before, value, tail, hkey, hbefore, hvalue, htail, rfl⟩
    · exact hfalse.elim
    · exact hfalse.elim
    · exact hkey.elim
    · obtain ⟨hgap, hname, hafter⟩ := hkey
      refine ⟨key.after ++ colon :: (before ++ (value ++ tail)) ++ rest, ?_, _, rest,
        ⟨key.after, before, value, tail, hafter, hbefore, hvalue, htail, rfl⟩, rfl, hrest⟩
      have htext : keyText (some key) ++ (before ++ (value ++ tail)) ++ rest =
          key.before ++ (key.name ++ (key.after ++ colon :: (before ++ (value ++ tail)) ++ rest)) := by
        simp [keyText, Key.text]
      rw [htext, dropSpace_append hgap]
      · exact quoted_iff.mpr ⟨key.name, hname, rfl⟩
      · obtain ⟨tail, hquote, -⟩ := hname
        rw [hquote]
        exact stops_cons.mpr (by decide)
  · rintro ⟨_, hquoted, _, rest, ⟨after, before, value, tail, hafter, hbefore, hvalue, htail, rfl⟩,
      rfl, hrest⟩
    obtain ⟨name, hname, hdrop⟩ := quoted_iff.mp hquoted
    obtain ⟨gap, hgap, rfl⟩ := exists_of_dropSpace hdrop
    refine ⟨keyText (some ⟨gap, name, after⟩) ++ (before ++ (value ++ tail)), rest,
      bodyText_iff.mpr (.inr ⟨some ⟨gap, name, after⟩, before, value, tail, ⟨hgap, hname, hafter⟩,
        hbefore, hvalue, htail, rfl⟩), ?_, hrest⟩
    simp [keyText, Key.text]

lemma objectColon_then : Completes limit (.objectColon :: frames) text ↔
    ∃ rest, dropSpace text = colon :: rest ∧ Accepts limit ⟨true, .objectComma :: frames, rest⟩ := by
  constructor
  · rintro ⟨_, rest, ⟨gap, before, value, tail, hgap, hbefore, hvalue, htail, rfl⟩, rfl, hrest⟩
    refine ⟨before ++ (value ++ (tail ++ rest)), ?_, before, _, hbefore, rfl, value, _, hvalue, rfl,
      tail, rest, htail, rfl, hrest⟩
    rw [append_assoc, cons_append, append_assoc, append_assoc]
    exact dropSpace_append_cons hgap (by decide) _
  · rintro ⟨_, hdrop, before, _, hbefore, rfl, value, _, hvalue, rfl, tail, rest, htail, rfl, hrest⟩
    obtain ⟨gap, hgap, rfl⟩ := exists_of_dropSpace hdrop
    exact ⟨gap ++ colon :: (before ++ (value ++ tail)), rest,
      ⟨gap, before, value, tail, hgap, hbefore, hvalue, htail, rfl⟩, by simp, hrest⟩

lemma then_value_head {n : Nat} {Q : Bytes → Prop} {b : UInt8}
    (h : Then (ValueText plainLayout n) Q (b :: text)) : isValueStart b = true := by
  obtain ⟨value, rest, hvalue, heq, -⟩ := h
  obtain ⟨c, tail, rfl, hc⟩ := hvalue.head
  obtain ⟨rfl, -⟩ := List.cons.inj heq
  exact hc

lemma frameTurn_arrayFirst : (∃ s, frameTurn .arrayFirst frames (dropSpace text) = some s ∧
    Accepts limit s) ↔ Completes limit (.arrayFirst :: frames) text := by
  change _ ↔ Then (BodyText plainLayout _ .array True) _ text
  have hagain : dropSpace (dropSpace text) = dropSpace text := dropWhile_idempotent _ _
  rw [bodyText_then, bodyText_array_then, accepts_value]
  cases hdrop : dropSpace text with
  | nil =>
    rw [hdrop] at hagain
    simp [frameTurn, accepts_value, hagain]
  | cons b rest =>
    rw [hdrop] at hagain
    by_cases hb : b = closeBracket
    · subst hb
      have hvalue {n : Nat} {Q : Bytes → Prop} :
          ¬ Then (ValueText plainLayout n) Q (closeBracket :: rest) :=
        fun h => absurd (then_value_head h) (by decide)
      simp [frameTurn, hvalue, closing]
    · simp [frameTurn, hb, accepts_value, hagain, closing]

lemma frameTurn_objectFirst : (∃ s, frameTurn .objectFirst frames (dropSpace text) = some s ∧
    Accepts limit s) ↔ Completes limit (.objectFirst :: frames) text := by
  change _ ↔ Then (BodyText plainLayout _ .object True) _ text
  rw [bodyText_then, bodyText_object_then]
  cases hdrop : dropSpace text with
  | nil => simp [frameTurn, quoted, take]
  | cons b rest =>
    by_cases hb : b = closeBrace
    · subst hb
      have hquoted : quoted (closeBrace :: rest) = none := by
        rw [quoted, take, if_neg (by decide), Option.bind_none]
      simp [frameTurn, hquoted, closing]
    · simp [frameTurn, hb, closing]

lemma frameTurn_iff {frame : Frame} :
    (∃ s, frameTurn frame frames (dropSpace text) = some s ∧ Accepts limit s) ↔
      Completes limit (frame :: frames) text := by
  have hcomma : comma ≠ closeBracket ∧ comma ≠ closeBrace := by decide
  cases frame with
  | arrayFirst => exact frameTurn_arrayFirst
  | arrayComma =>
    change _ ↔ Then (TailText plainLayout _ .array) _ text
    simp only [tailText_then, bodyText_array_then]
    cases hdrop : dropSpace text with
    | nil => simp [frameTurn]
    | cons b rest =>
      by_cases hb : b = comma
      · subst hb
        simp [frameTurn, closing, hcomma]
      · by_cases hclose : b = closeBracket
        · simp [frameTurn, closing, hb]
        · simp [frameTurn, closing, hb]
  | objectFirst => exact frameTurn_objectFirst
  | objectKey =>
    rw [completes_objectKey, bodyText_object_then]
    simp [frameTurn]
  | objectColon =>
    rw [objectColon_then]
    cases hdrop : dropSpace text with
    | nil => simp [frameTurn, take]
    | cons b rest =>
      simp [frameTurn, take]
  | objectComma =>
    change _ ↔ Then (TailText plainLayout _ .object) _ text
    simp only [tailText_then]
    cases hdrop : dropSpace text with
    | nil => simp [frameTurn]
    | cons b rest =>
      by_cases hb : b = comma
      · subst hb
        simp [frameTurn, closing, hcomma, completes_objectKey]
      · by_cases hclose : b = closeBrace
        · simp [frameTurn, closing, hb]
        · simp [frameTurn, closing, hb]

end Turns

/-! ## The loop accepts the grammar -/

/-- A turn changes or closes the innermost frame, or opens one. -/
theorem valueTurn_frames {maxDepth : Option Nat} {frames : List Frame} {text : Bytes}
    (h : valueTurn maxDepth frames text = some s) :
    s.value = false ∧ (s.frames = frames ∨ ∃ frame, s.frames = frame :: frames) := by
  unfold valueTurn at h
  cases text <;> grind [Option.map_eq_some_iff]

lemma frameTurn_frames {frames : List Frame} {text : Bytes}
    (h : frameTurn frame frames text = some s) :
    (s.value = false ∧ s.frames = frames) ∨
      ∃ frame, s.frames = frame :: frames ∧ (s.value = true → frame.IsComma) := by
  unfold frameTurn at h
  cases frame <;> cases text <;> simp only [take] at h <;>
    grind [Option.map_eq_some_iff, Frame.IsComma]

lemma cursorLoop_next {maxDepth : Option Nat} {s s' : CursorState}
    (h : (cursorLoop maxDepth).step s = .ok (.inl s')) :
    (s.value = true ∧ valueTurn maxDepth s.frames (dropSpace s.rest) = some s') ∨
      (s.value = false ∧ ∃ frame frames, s.frames = frame :: frames ∧
        frameTurn frame frames (dropSpace s.rest) = some s') := by
  change cursorStep maxDepth s = _ at h
  unfold cursorStep at h
  grind

lemma nested_step {maxDepth : Option Nat} {s s' : CursorState} (hs : s.Nested)
    (h : (cursorLoop maxDepth).step s = .ok (.inl s')) : s'.Nested := by
  rcases cursorLoop_next h with ⟨hvalue, hturn⟩ | ⟨hvalue, frame, frames, hframes, hturn⟩
  · rw [CursorState.Nested, if_pos hvalue] at hs
    obtain ⟨hvalue', hframes | ⟨frame, hframes⟩⟩ := valueTurn_frames hturn
    · simpa [CursorState.Nested, hvalue', hframes] using fun f hf => hs f (mem_of_mem_tail hf)
    · simpa [CursorState.Nested, hvalue', hframes] using hs
  · rw [CursorState.Nested, if_neg (by simp [hvalue]), hframes, tail_cons] at hs
    rcases frameTurn_frames hturn with ⟨hvalue', hframes'⟩ | ⟨frame', hframes', hcomma⟩
    · simpa [CursorState.Nested, hvalue', hframes'] using fun f hf => hs f (mem_of_mem_tail hf)
    · cases hvalue' : s'.value with
      | true => simpa [CursorState.Nested, hvalue', hframes'] using ⟨hcomma hvalue', hs⟩
      | false => simpa [CursorState.Nested, hvalue', hframes'] using hs

section Follows

variable {maxDepth : Option Nat} {P : CursorState → Prop} {Q : Bytes → Prop} {frames : List Frame}
  {text : Bytes}

lemma follows_value : (cursorLoop maxDepth).Follows P Q ⟨true, frames, text⟩ ↔
    ∃ s, valueTurn maxDepth frames (dropSpace text) = some s ∧ P s := by
  cases hturn : valueTurn maxDepth frames (dropSpace text) with
  | none | some => simp [Loop.Follows, cursorLoop, cursorStep, hturn]

lemma follows_frame {frame : Frame} :
    (cursorLoop maxDepth).Follows P Q ⟨false, frame :: frames, text⟩ ↔
      ∃ s, frameTurn frame frames (dropSpace text) = some s ∧ P s := by
  cases hturn : frameTurn frame frames (dropSpace text) with
  | none | some => simp [Loop.Follows, cursorLoop, cursorStep, hturn]

lemma follows_end : (cursorLoop maxDepth).Follows P Q ⟨false, [], text⟩ ↔ Q text :=
  Loop.follows_done rfl

end Follows

lemma accepts_step {limit : Nat} (hs : s.Nested) :
    Accepts limit s ↔ (cursorLoop (some limit)).Follows (Accepts limit) plainLayout.Gap s := by
  obtain ⟨value, frames, text⟩ := s
  cases value with
  | true =>
    have hframes : ∀ frame ∈ frames, frame.IsComma := hs
    rw [follows_value, valueTurn_iff hframes, accepts_value]
  | false =>
    cases frames with
    | nil => rw [follows_end, accepts_frames, Completes]
    | cons frame frames => rw [follows_frame, frameTurn_iff, accepts_frames]

lemma nested_start (text : Bytes) : (⟨true, [], text⟩ : CursorState).Nested := by
  simp [CursorState.Nested]

/-- A text is valid when the loop leaves only spaces. -/
theorem validateWithDepth_eq_ok {bytes : Bytes} {depth : Nat} :
    validateWithDepth bytes depth = .ok () ↔
      ∃ rest, (cursorLoop (some depth)).run ⟨true, [], dropSpace bytes⟩ = .ok rest ∧
        plainLayout.Gap rest := by
  unfold validateWithDepth valueWithDepth
  cases (cursorLoop (some depth)).run ⟨true, [], dropSpace bytes⟩ with
  | error e => simp [bind, Except.bind]
  | ok rest => simp [bind, Except.bind, done, dropSpace_eq_nil]

lemma validateWithDepth_iff {bytes : Bytes} {depth : Nat} :
    validateWithDepth bytes depth = .ok () ↔ IsJson depth bytes := by
  have hagain : dropSpace (dropSpace bytes) = dropSpace bytes := dropWhile_idempotent _ _
  rw [validateWithDepth_eq_ok, Loop.run_ok_iff (fun _ _ => nested_step) (fun _ => accepts_step)
    (nested_start _), accepts_value, hagain, ← accepts_value, isJson_iff]
  constructor
  · rintro ⟨before, _, hbefore, rfl, value, after, hvalue, rfl, hafter⟩
    exact ⟨before, value, after, hbefore, hvalue, hafter, rfl⟩
  · rintro ⟨before, value, after, hbefore, hvalue, hafter, rfl⟩
    exact ⟨before, _, hbefore, rfl, value, after, hvalue, rfl, hafter⟩

end Headscale.GoJson
