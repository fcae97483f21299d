import Headscale.GoJson.Scanner

/-!
# The validators agree

The cursor and the scanner accept the same texts. Where the cursor stands between two tokens the machine
is in one state, and it passes the text that is left when the rest of the loop accepts it. That
predicate satisfies the equation of the loop, so it is what the loop computes.
-/

namespace Headscale.GoJson

open JsonText

/-! ## The cursor between two tokens -/

/-- The frame of the machine for a frame of the cursor. -/
def Frame.scan : Frame → ScanFrame
  | .arrayFirst | .arrayComma => .arrayValue
  | .objectFirst | .objectKey | .objectColon => .objectKey
  | .objectComma => .objectValue

/-- The state of the machine when the cursor is to do what the frame waits for. -/
def Frame.scanState : Frame → ScanState
  | .arrayFirst => .beginValueOrEmpty
  | .objectFirst => .beginStringOrEmpty
  | .objectKey => .beginString
  | .arrayComma | .objectColon | .objectComma => .endValue

def CursorState.scanState (s : CursorState) : ScanState :=
  if s.value then .beginValue
  else
    match s.frames with
    | [] => .endValue
    | frame :: _ => frame.scanState

open Headscale.GoJson.Frame

def CursorState.scan (s : CursorState) : Scanner := ⟨s.scanState, s.frames.map Frame.scan, false⟩

namespace Scanner

section Turns

variable {frames : List Frame} {text : Bytes}

lemma passes_endTop : Passes ⟨.endTop, [], true⟩ text ↔ plainLayout.Gap text := by
  induction text with
  | nil => simp [Passes, plainLayout]
  | cons b text ih =>
    cases hb : isSpace b with
    | true =>
      rw [passes_done (by simp only [turn, hb]; rfl), ih]
      simp [plainLayout, hb]
    | false =>
      have hrefused : ¬ Passes ⟨.endTop, [], true⟩ (b :: text) :=
        not_passes_of_refused (by simp) (by simp [turn, hb])
      simp [hrefused, plainLayout, hb]

lemma passes_end : Passes ⟨.endValue, [], false⟩ text ↔ plainLayout.Gap text := by
  cases text with
  | nil =>
    have hstep : step ⟨.endValue, [], false⟩ blank = .ok ⟨.endTop, [], true⟩ :=
      (Loop.run_next rfl).trans (Loop.run_done rfl)
    simp [Passes, hstep, plainLayout]
  | cons b text =>
    rw [passes_cons_next rfl, passes_endTop]

/-- After a value the machine is where the cursor is. -/
theorem scan_endValue (hframes : ∀ frame ∈ frames, frame.IsComma) :
    (⟨false, frames, text⟩ : CursorState).scan = ⟨.endValue, frames.map Frame.scan, false⟩ := by
  cases frames with
  | nil => rfl
  | cons frame frames =>
    rcases hframes frame (by simp) with rfl | rfl
    · rfl
    · rfl

lemma passes_pop (hframes : ∀ frame ∈ frames, frame.IsComma) (state : ScanState) (frame : ScanFrame) :
    (pop ⟨state, frame :: frames.map Frame.scan, false⟩).Passes text ↔
      (⟨false, frames, text⟩ : CursorState).scan.Passes text := by
  rw [scan_endValue hframes]
  cases frames with
  | nil => exact passes_endTop.trans passes_end.symm
  | cons frame' frames => rfl

lemma stays_beginValue {scanFrames : List ScanFrame} (b : UInt8) (hb : isSpace b = true) :
    turn b ⟨.beginValue, scanFrames, false⟩ = .ok (.inr ⟨.beginValue, scanFrames, false⟩) := by
  simp only [turn, hb, if_true]

variable {b : UInt8}

lemma turn_opening (hopen : b = openBracket ∨ b = openBrace) (text : Bytes) :
    turn b ⟨.beginValue, frames.map scan, false⟩ =
      if frames.length ≥ maxDepth then .error (.invalidCharacter b "exceeded max depth")
      else .ok (.inr (⟨false, (if b = openBracket then .arrayFirst else .objectFirst) :: frames, text⟩ :
        CursorState).scan) := by
  have hpush (frame : ScanFrame) : push ⟨.beginValue, frames.map scan, false⟩ b frame =
      if frames.length ≥ maxDepth then .error (.invalidCharacter b "exceeded max depth")
      else .ok ⟨.beginValue, frame :: frames.map scan, false⟩ := by
    have hdeep : frames.length + 1 > 10000 ↔ frames.length ≥ maxDepth := by
      unfold maxDepth
      omega
    simp only [push, List.length_cons, List.length_map, hdeep]
  rcases hopen with rfl | rfl
  · change ((push _ openBracket .arrayValue).map _).map _ = _
    rw [hpush]
    split <;> rfl
  · change ((push _ openBrace .objectKey).map _).map _ = _
    rw [hpush]
    split <;> rfl

lemma passes_value (hframes : ∀ frame ∈ frames, frame.IsComma) :
    Passes ⟨.beginValue, frames.map Frame.scan, false⟩ text ↔
      ∃ s, valueTurn (some maxDepth) frames (dropSpace text) = some s ∧ s.scan.Passes s.rest := by
  have hstops := stops_dropWhile isSpace text
  rw [passes_dropWhile isSpace stays_beginValue]
  change _ ↔ ∃ s, valueTurn (some maxDepth) frames (text.dropWhile isSpace) = some s ∧ _
  cases hdrop : text.dropWhile isSpace with
  | nil =>
    have hnil : ¬ Passes ⟨.beginValue, frames.map scan, false⟩ [] := not_passes_nil rfl rfl rfl
    simp [hnil, valueTurn]
  | cons b rest =>
    have hspace : isSpace b = false := by simpa [hdrop] using hstops
    by_cases hopen : b = openBracket ∨ b = openBrace
    · rw [valueTurn, if_pos hopen]
      by_cases hdeep : frames.length ≥ maxDepth
      · have hrefused : ¬ Passes ⟨.beginValue, frames.map scan, false⟩ (b :: rest) := by
          apply not_passes_of_refused (fun _ => rfl)
          rw [seen_cons, turn_opening hopen rest, if_pos hdeep]
          simp
        simp [hrefused, hdeep]
      · rw [passes_done ((turn_opening hopen rest).trans (if_neg hdeep))]
        simp [hdeep]
    · obtain ⟨hbracket, hbrace⟩ := not_or.mp hopen
      rw [valueTurn, if_neg hopen, passes_scalar hspace hbracket hbrace]
      simp [scan_endValue hframes]

/-! ## What the frames wait for -/

/-- The cursor can do what the frame waits for, and the machine passes what is left then. -/
def Waits (frame : Frame) (frames : List Frame) (text : Bytes) : Prop :=
  ∃ s, frameTurn frame frames text = some s ∧ s.scan.Passes s.rest

section Frames

variable (hspace : isSpace b = false)

include hspace

lemma passes_objectKey :
    Passes ⟨.beginString, .objectKey :: frames.map scan, false⟩ (b :: text) ↔
      Waits .objectKey frames (b :: text) := by
  by_cases hquote : b = quote
  · subst hquote
    rw [passes_done rfl, passes_inString]
    simp [Waits, frameTurn]
    rfl
  have hrefused : ¬ Passes ⟨.beginString, .objectKey :: frames.map Frame.scan, false⟩ (b :: text) :=
    not_passes_of_refused (fun _ => rfl) (by simp [turn, hspace, hquote])
  simp [Waits, frameTurn, quoted, take, hquote, hrefused]

lemma passes_objectColon :
    Passes ⟨.endValue, .objectKey :: frames.map scan, false⟩ (b :: text) ↔
      Waits .objectColon frames (b :: text) := by
  by_cases hcolon : b = colon
  · subst hcolon
    rw [passes_done rfl]
    simp [Waits, frameTurn, take]
    rfl
  have hrefused : ¬ Passes ⟨.endValue, .objectKey :: frames.map Frame.scan, false⟩ (b :: text) :=
    not_passes_of_refused (fun _ => rfl) (by simp [turn, hspace, hcolon])
  simp [Waits, frameTurn, take, hcolon, hrefused]

variable (hframes : ∀ frame ∈ frames, frame.IsComma)

include hframes

lemma passes_arrayFirst :
    Passes ⟨.beginValueOrEmpty, .arrayValue :: frames.map scan, false⟩ (b :: text) ↔
      Waits .arrayFirst frames (b :: text) := by
  by_cases hclose : b = closeBracket
  · subst hclose
    have hnext : turn closeBracket ⟨.beginValueOrEmpty, .arrayValue :: frames.map scan, false⟩ =
      .ok (.inl ⟨.endValue, .arrayValue :: frames.map scan, false⟩) := rfl
    rw [passes_cons_next hnext, passes_done rfl, passes_pop hframes]
    simp [Waits, frameTurn]
  · have hnext : turn b ⟨.beginValueOrEmpty, .arrayValue :: frames.map Frame.scan, false⟩ =
        .ok (.inl ⟨.beginValue, .arrayValue :: frames.map Frame.scan, false⟩) := by
      simp [turn, hspace, hclose]
    rw [passes_cons_next hnext]
    simp only [Waits, frameTurn, if_neg hclose, Option.some.injEq, exists_eq_left']
    rfl

lemma passes_arrayComma :
    Passes ⟨.endValue, .arrayValue :: frames.map Frame.scan, false⟩ (b :: text) ↔
      Waits .arrayComma frames (b :: text) := by
  by_cases hcomma : b = comma
  · subst hcomma
    rw [passes_done rfl]
    simp only [Waits, frameTurn, if_true, Option.some.injEq, exists_eq_left']
    rfl
  by_cases hclose : b = closeBracket
  · subst hclose
    rw [passes_done rfl, passes_pop hframes]
    simp [Waits, frameTurn, hcomma]
  have hrefused : ¬ Passes ⟨.endValue, .arrayValue :: frames.map Frame.scan, false⟩ (b :: text) :=
    not_passes_of_refused (fun _ => rfl) (by simp [turn, hspace, hcomma, hclose])
  simp [Waits, frameTurn, hcomma, hclose, hrefused]

lemma passes_objectFirst :
    Passes ⟨.beginStringOrEmpty, .objectKey :: frames.map scan, false⟩ (b :: text) ↔
      Waits .objectFirst frames (b :: text) := by
  by_cases hclose : b = closeBrace
  · subst hclose
    have hnext : turn closeBrace ⟨.beginStringOrEmpty, .objectKey :: frames.map scan, false⟩ =
      .ok (.inl ⟨.endValue, .objectValue :: frames.map scan, false⟩) := rfl
    rw [passes_cons_next hnext, passes_done rfl, passes_pop hframes]
    simp [Waits, frameTurn]
  · have hnext : turn b ⟨.beginStringOrEmpty, .objectKey :: frames.map scan, false⟩ =
        .ok (.inl ⟨.beginString, .objectKey :: frames.map scan, false⟩) := by
      simp [turn, hspace, hclose]
    rw [passes_cons_next hnext, passes_objectKey hspace, Waits]
    simp only [Waits, frameTurn, if_neg hclose]

lemma passes_objectComma :
    Passes ⟨.endValue, .objectValue :: frames.map Frame.scan, false⟩ (b :: text) ↔
      Waits .objectComma frames (b :: text) := by
  by_cases hcomma : b = comma
  · subst hcomma
    rw [passes_done rfl]
    simp only [Waits, frameTurn, if_true, Option.some.injEq, exists_eq_left']
    rfl
  by_cases hclose : b = closeBrace
  · subst hclose
    rw [passes_done rfl, passes_pop hframes]
    simp [Waits, frameTurn, hcomma]
  have hrefused : ¬ Passes ⟨.endValue, .objectValue :: frames.map Frame.scan, false⟩ (b :: text) :=
    not_passes_of_refused (fun _ => rfl) (by simp [turn, hspace, hcomma, hclose])
  simp [Waits, frameTurn, hcomma, hclose, hrefused]

end Frames

lemma passes_frame (hframes : ∀ frame ∈ frames, frame.IsComma) {frame : Frame} :
    Passes ⟨frame.scanState, (frame :: frames).map scan, false⟩ text ↔
      Waits frame frames (dropSpace text) := by
  have hstays (b : UInt8) (hb : isSpace b = true) :
      turn b ⟨frame.scanState, (frame :: frames).map scan, false⟩ =
        .ok (.inr ⟨frame.scanState, (frame :: frames).map scan, false⟩) := by
    cases frame <;> simp only [turn, scanState, List.map_cons, hb, if_true]
  have hstops := stops_dropWhile isSpace text
  rw [passes_dropWhile isSpace hstays]
  change _ ↔ Waits frame frames (text.dropWhile isSpace)
  cases hdrop : text.dropWhile isSpace with
  | nil =>
    have hframe : ¬ Passes ⟨frame.scanState, (frame :: frames).map Frame.scan, false⟩ [] :=
      not_passes_nil rfl (hstays blank rfl) rfl
    have hvalue : ¬ (⟨true, .arrayComma :: frames, []⟩ : CursorState).scan.Passes [] :=
      not_passes_nil rfl rfl rfl
    simp only [Waits, hframe, false_iff, not_exists, not_and]
    intro s hturn
    cases frame <;> simp [frameTurn, quoted, take] at hturn
    exact hturn ▸ hvalue
  | cons b rest =>
    have hspace : isSpace b = false := by simpa [hdrop] using hstops
    cases frame with
    | arrayFirst => exact passes_arrayFirst hspace hframes
    | arrayComma => exact passes_arrayComma hspace hframes
    | objectFirst => exact passes_objectFirst hspace hframes
    | objectKey => exact passes_objectKey hspace
    | objectColon => exact passes_objectColon hspace
    | objectComma => exact passes_objectComma hspace hframes

end Turns

end Scanner

lemma passes_step {s : CursorState} (hs : s.Nested) : s.scan.Passes s.rest ↔
    (cursorLoop (some maxDepth)).Follows (fun s => s.scan.Passes s.rest) plainLayout.Gap s := by
  obtain ⟨value, frames, text⟩ := s
  cases value with
  | true =>
    have hframes : ∀ frame ∈ frames, frame.IsComma := hs
    rw [follows_value]
    exact Scanner.passes_value hframes
  | false =>
    cases frames with
    | nil =>
      exact Scanner.passes_end
    | cons frame frames =>
      have hframes : ∀ frame ∈ frames, frame.IsComma := hs
      rw [follows_frame]
      exact Scanner.passes_frame hframes

lemma checkValid_iff_validate {bytes : Bytes} : checkValid bytes = .ok () ↔ validate bytes = .ok () := by
  rw [validate, validateWithDepth_eq_ok, Loop.run_ok_iff (fun _ _ => nested_step) (fun _ => passes_step)
    (nested_start _), checkValid_eq_ok]
  exact Scanner.passes_dropWhile isSpace Scanner.stays_beginValue

lemma checkValid_iff {bytes : Bytes} : checkValid bytes = .ok () ↔ IsJson maxDepth bytes :=
  checkValid_iff_validate.trans validateWithDepth_iff

theorem validators_agree (bytes : Bytes) :
    (validate bytes = .ok () ↔ checkValid bytes = .ok ()) ∧
      (validate bytes = .ok () ↔ IsJson 10000 bytes) ∧
      (checkValid bytes = .ok () ↔ IsJson 10000 bytes) := by
  exact ⟨checkValid_iff_validate.symm, validateWithDepth_iff, checkValid_iff⟩

end Headscale.GoJson
