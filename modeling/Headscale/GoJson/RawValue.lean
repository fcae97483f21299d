import Headscale.GoJson.Validators

/-!
# The first value of a text

`first_raw_value` feeds the machine of `check_valid` until a value has ended. A container ends with
its own last byte. A scalar has ended only when the byte behind it is seen, which is not read.
-/

namespace Headscale.GoJson

open JsonText

inductive RawValueError where
  | scan (error : ScanError)
  | unexpectedEof
deriving DecidableEq, Repr

def RawValueError.text (quote : String → String) : RawValueError → String
  | .scan error => error.text quote
  | .unexpectedEof => "unexpected EOF"

namespace Scanner

/-- `step` with the flag `end_top` that it leaves where it fails: at the byte behind a scalar the
machine notes the end before it refuses the byte. -/
def notedStep (s : Scanner) (byte : UInt8) : Except (ScanError × Bool) Scanner :=
  ((stepLoop byte).noting Scanner.endTop).run s

/-- The value has ended, whether the byte was taken or not. -/
def ended : Except (ScanError × Bool) Scanner → Bool
  | .ok s => s.endTop
  | .error (_, endTop) => endTop

/-- The loop of `first_raw_value`: the length of the value at the start of the text. -/
def rawValueLength (s : Scanner) : Bytes → Except RawValueError Nat
  | [] => if ended (s.notedStep blank) then .ok 0 else .error .unexpectedEof
  | b :: text =>
    if ended (s.notedStep b) then .ok (if s.frames = [] then 0 else 1)
    else
      match s.notedStep b with
      | .ok s' => (rawValueLength s' text).map (· + 1)
      | .error (error, _) => .error (.scan error)

end Scanner

def firstRawValue (bytes : Bytes) : Except RawValueError (Option Bytes) :=
  match bytes.dropWhile isSpace with
  | [] => .ok none
  | text => (Scanner.rawValueLength {} text).map fun length => some (text.take length)

/-- Outside of containers the value has ended, unless the byte continues it. -/
def ScanState.endsBefore (b : UInt8) : ScanState → Bool
  | .endValue => true
  | .zero => !(b = JsonText.dot ∨ b = lowerE ∨ b = upperE)
  | .integer => !(isDigit b ∨ b = JsonText.dot ∨ b = lowerE ∨ b = upperE)
  | .fraction => !(isDigit b ∨ b = lowerE ∨ b = upperE)
  | .exponentDigits => !isDigit b
  | _ => false

namespace Scanner

/-- No value has ended, and in front of a first element the machine is inside a container. -/
structure Open (s : Scanner) : Prop where
  endTop : s.endTop = false
  first : s.state = .beginValueOrEmpty ∨ s.state = .beginStringOrEmpty → s.frames ≠ []

/-- What a step of an open machine comes to. -/
structure Stepped (s : Scanner) (b : UInt8) (result : Except (ScanError × Bool) Scanner) :
    Prop where
  scalar : s.frames = [] → ended result = s.state.endsBefore b
  container : s.frames ≠ [] → ended result = true → ∃ s', result = .ok s' ∧ s'.endTop = true
  goes : ∀ s', result = .ok s' → s'.endTop = false → s'.Open
  ends : ∀ s', result = .ok s' → s'.endTop = true →
    s' = ⟨.endTop, [], true⟩ ∧ (s.frames = [] ↔ isSpace b = true)

variable {s s' : Scanner} {b : UInt8}

lemma turn_error {e : ScanError} (h : s.turn b = .error e) (hframes : s.frames = []) :
    s.state.endsBefore b = false := by
  unfold turn at h
  split at h <;> rename_i hstate <;> rw [hstate]
  all_goals grind [ScanState.endsBefore]

lemma turn_inl (hs : s.Open) (h : s.turn b = .ok (.inl s')) :
    (s.state = .endValue ∧ s.frames = [] ∧ s' = ⟨.endTop, [], true⟩) ∨
      (s'.Open ∧ (s'.frames = [] ↔ s.frames = []) ∧
        (s.frames = [] → s'.state.endsBefore b = s.state.endsBefore b)) := by
  have hstart : (s.startValue b).map Sum.inr ≠ .ok (.inl s') := by
    cases s.startValue b <;> simp [Except.map]
  unfold turn at h
  split at h <;> rename_i hstate
  all_goals grind [ScanState.endsBefore, Open]

lemma startValue_ok (h : (s.startValue b).map (.inr : _ → Scanner ⊕ _) = .ok (.inr s')) :
    s'.endTop = s.endTop ∧
    (s'.state = .beginValueOrEmpty ∨ s'.state = .beginStringOrEmpty → s'.frames ≠ []) := by
  unfold startValue push at h
  repeat' split at h
  all_goals grind [Except.map]

lemma turn_inr (hs : s.Open) (h : s.turn b = .ok (.inr s')) :
    (s'.endTop = false → s'.Open) ∧
      (s'.endTop = true → s' = ⟨.endTop, [], true⟩ ∧ isSpace b = false) ∧
      (s.frames = [] → s.state.endsBefore b = false ∧ s'.endTop = false) := by
  unfold turn at h
  split at h <;> rename_i hstate
  all_goals grind [ScanState.endsBefore, Open, → startValue_ok, pop]

lemma notedStep_ok : s.notedStep b = .ok s' ↔ s.step b = .ok s' := by
  have hrun : (s.notedStep b).mapError Prod.fst = s.step b := Loop.run_noting _
  rw [← hrun]
  cases s.notedStep b <;> simp [Except.mapError]

lemma stepped (hs : s.Open) (b : UInt8) : Stepped s b (s.notedStep b) := by
  induction hrank : s.state.rank using Nat.strongRecOn generalizing s with
  | _ rank ih =>
    have hnoting : ((stepLoop b).noting Scanner.endTop).step s =
        (s.turn b).mapError fun e => (e, s.endTop) := rfl
    cases hturn : s.turn b with
    | error e =>
      rw [hturn, hs.endTop] at hnoting
      rw [notedStep, Loop.run_error hnoting]
      exact ⟨fun hframes => (turn_error hturn hframes).symm, by simp [ended], by simp, by simp⟩
    | ok next =>
      rw [hturn] at hnoting
      cases next with
      | inr next =>
        obtain ⟨hopen, hends, hscalar⟩ := turn_inr hs hturn
        rw [notedStep, Loop.run_done hnoting]
        refine ⟨fun hframes => ?_, fun _ htop => ⟨_, rfl, htop⟩, ?_, ?_⟩
        · rw [ended, (hscalar hframes).1, (hscalar hframes).2]
        · rintro _ ⟨⟩
          exact hopen
        · rintro _ ⟨⟩ htop
          have hframes : s.frames ≠ [] := fun hframes => by simp [(hscalar hframes).2] at htop
          simp [hends htop, hframes]
      | inl next =>
        have hresult : s.notedStep b = next.notedStep b := Loop.run_next hnoting
        rw [hresult]
        obtain ⟨hstate, hframes, rfl⟩ | ⟨hopen, hframes, hsame⟩ := turn_inl hs hturn
        · -- the value has ended, and the byte is taken if it is a space
          rw [notedStep]
          by_cases hspace : isSpace b = true
          · rw [Loop.run_done (r := ⟨.endTop, [], true⟩)
              (by simp [Loop.noting, stepLoop, turn, hspace, Except.mapError])]
            exact ⟨fun _ => by simp [ended, hstate, ScanState.endsBefore], (absurd hframes ·),
              by simp, by simp [hframes, hspace]⟩
          · rw [Loop.run_error (e := (.invalidCharacter b "after top-level value", true))
              (by simp [Loop.noting, stepLoop, turn, hspace, Except.mapError])]
            exact ⟨fun _ => by simp [ended, hstate, ScanState.endsBefore], (absurd hframes ·),
              by simp, by simp⟩
        · obtain ⟨hscalar, hcontainer, hgoes, hends⟩ := ih _ (hrank ▸ rank_turn hturn) hopen rfl
          exact ⟨fun h => (hscalar (hframes.mpr h)).trans (hsame h),
            hcontainer ∘ mt hframes.mp, hgoes,
            fun s' hok htop => (hends s' hok htop).imp_right hframes.symm.trans⟩

/-! ## What is returned is a value -/

/-- A scalar that ends before some byte ends before a space. -/
theorem passes_nil_of_ended (hs : s.Open) (hframes : s.frames = [])
    (h : ended (s.notedStep b) = true) : s.Passes [] := by
  rw [(stepped hs b).scalar hframes] at h
  obtain ⟨state, frames, endTop⟩ := s
  obtain rfl : frames = [] := hframes
  cases state with
  | endValue | zero | integer | fraction | exponentDigits => exact .inr ⟨_, rfl, rfl⟩
  | _ => cases h

lemma passes_rawValue (hs : s.Open) {text : Bytes} {n : Nat} (h : s.rawValueLength text = .ok n) :
    s.Passes (text.take n) := by
  induction text generalizing s n with
  | nil =>
    rw [rawValueLength] at h
    rw [List.take_nil]
    split at h
    · next hended =>
      by_cases hframes : s.frames = []
      · exact passes_nil_of_ended hs hframes hended
      · obtain ⟨s', hok, htop⟩ := (stepped hs _).container hframes hended
        exact .inr ⟨s', notedStep_ok.mp hok, htop⟩
    · cases h
  | cons c text ih =>
    rw [rawValueLength] at h
    split at h
    · next hended =>
      cases h
      by_cases hframes : s.frames = []
      · rw [if_pos hframes]
        exact passes_nil_of_ended hs hframes hended
      · obtain ⟨s', hok, htop⟩ := (stepped hs _).container hframes hended
        rw [if_neg hframes]
        exact ⟨s', notedStep_ok.mp hok, .inl htop⟩
    · next hended =>
      split at h
      · next s' hok =>
        cases hlength : s'.rawValueLength text with
        | error e => simp [hlength, Except.map] at h
        | ok m =>
          rw [hlength] at h
          cases h
          rw [hok] at hended
          refine ⟨s', notedStep_ok.mp hok, ih ((stepped hs c).goes s' hok ?_) hlength⟩
          simpa [ended] using hended
      · cases h

/-! ## A value is returned -/

/-- A number that does not end before a byte goes on with it. -/
theorem passes_continued (hs : s.Open) (hframes : s.frames = [])
    (hends : s.state.endsBefore blank = true) (hb : s.state.endsBefore b = false) :
    s.Passes [b, zero] := by
  obtain ⟨state, frames, endTop⟩ := s
  obtain rfl : endTop = false := hs.endTop
  obtain rfl : frames = [] := hframes
  have hdigits : ∀ {state}, turn b ⟨state, [], false⟩ = .ok (.inr ⟨state, [], false⟩) →
      Passes ⟨state, [], false⟩ [zero] → Passes ⟨state, [], false⟩ [b, zero] :=
    fun h => (passes_done h).mpr
  cases state with
  | endValue => cases hb
  | zero =>
    simp only [ScanState.endsBefore, Bool.not_eq_false', decide_eq_true_eq] at hb
    obtain rfl | rfl | rfl := hb <;> exact ⟨_, rfl, _, rfl, .inr ⟨_, rfl, rfl⟩⟩
  | integer =>
    simp only [ScanState.endsBefore, Bool.not_eq_false', decide_eq_true_eq] at hb
    obtain hdigit | rfl | rfl | rfl := hb
    · exact hdigits (by simp [turn, hdigit]) ⟨_, rfl, .inr ⟨_, rfl, rfl⟩⟩
    all_goals exact ⟨_, rfl, _, rfl, .inr ⟨_, rfl, rfl⟩⟩
  | fraction =>
    simp only [ScanState.endsBefore, Bool.not_eq_false', decide_eq_true_eq] at hb
    obtain hdigit | rfl | rfl := hb
    · exact hdigits (by simp [turn, hdigit]) ⟨_, rfl, .inr ⟨_, rfl, rfl⟩⟩
    all_goals exact ⟨_, rfl, _, rfl, .inr ⟨_, rfl, rfl⟩⟩
  | exponentDigits =>
    exact hdigits (by simp_all [turn, ScanState.endsBefore]) ⟨_, rfl, .inr ⟨_, rfl, rfl⟩⟩
  | _ => cases hends

lemma rawValueLength_of_passes (hs : s.Open) {value : Bytes} (h : s.Passes value)
    (hlast : ∀ c ∈ value.getLast?, isSpace c = false) (hb : ¬ s.Passes (value ++ [b, zero]))
    (rest : Bytes) : s.rawValueLength (value ++ b :: rest) = .ok value.length := by
  induction value generalizing s with
  | nil =>
    obtain htop | ⟨s', hstep, htop⟩ := h
    · simp [hs.endTop] at htop
    have hstepped := stepped hs blank
    have hok := notedStep_ok.mpr hstep
    have hframes : s.frames = [] := (hstepped.ends s' hok htop).2.mpr rfl
    have hblank : s.state.endsBefore blank = true := by
      rw [← hstepped.scalar hframes, hok, ended, htop]
    cases hends : s.state.endsBefore b with
    | true => simp [rawValueLength, (stepped hs b).scalar hframes, hends, hframes]
    | false => exact absurd (passes_continued hs hframes hblank hends) hb
  | cons c value ih =>
    obtain ⟨s', hstep, hpasses⟩ := h
    have hok := notedStep_ok.mpr hstep
    rw [List.cons_append, rawValueLength, hok]
    cases htop : s'.endTop with
    | true =>
      obtain ⟨rfl, hspace⟩ := (stepped hs c).ends s' hok htop
      have hgap := passes_endTop.mp hpasses
      obtain rfl : value = [] := by
        by_contra hne
        have hlast := hlast _ (by
          rw [List.getLast?_cons, List.getLast?_eq_getLast_of_ne_nil hne]
          rfl)
        simp [hgap _ (List.getLast_mem hne)] at hlast
      have hframes : s.frames ≠ [] := by simp [hspace, hlast c rfl]
      simp [ended, hframes]
    | false =>
      simp only [ended, htop]
      rw [ih ((stepped hs c).goes s' hok htop) hpasses ?_ ?_]
      · rfl
      · intro c' hc'
        exact hlast c' (by rw [List.getLast?_cons]; simp_all)
      · exact fun h => hb ⟨s', hstep, h⟩

end Scanner

/-- A complete value, without spaces around it. -/
structure IsValue (value : Bytes) : Prop where
  valid : checkValid value = .ok ()
  first : ∀ b ∈ value.head?, isSpace b = false
  last : ∀ b ∈ value.getLast?, isSpace b = false

/-- What `first_raw_value` returns stands behind spaces and is valid; and a complete value that the
byte behind it cannot continue is what it returns. -/
theorem first_raw_value_is_the_first_value (bytes : Bytes) :
    (∀ value, firstRawValue bytes = .ok (some value) →
      ∃ gap rest, bytes = gap ++ value ++ rest ∧ (∀ b ∈ gap, isSpace b = true) ∧
        checkValid value = .ok ()) ∧
    ∀ value b rest, bytes.dropWhile isSpace = value ++ b :: rest → IsValue value →
      (∀ more, ¬ IsValue (value ++ b :: more)) → firstRawValue bytes = .ok (some value) := by
  have hopen : Scanner.Open {} := ⟨rfl, by simp⟩
  constructor
  · intro value h
    rw [firstRawValue] at h
    split at h
    · cases h
    next htext =>
    cases hlength : Scanner.rawValueLength {} (bytes.dropWhile isSpace) with
    | error e => simp [hlength, Except.map] at h
    | ok n =>
      rw [hlength] at h
      cases h
      refine ⟨bytes.takeWhile isSpace, (bytes.dropWhile isSpace).drop n, ?_, ?_, ?_⟩
      · rw [List.append_assoc, List.take_append_drop, List.takeWhile_append_dropWhile]
      · exact fun b hb => List.mem_takeWhile_imp hb
      · exact checkValid_eq_ok.mpr (Scanner.passes_rawValue hopen hlength)
  · intro value b rest htext hvalue hmore
    have hne : value ≠ [] := by
      rintro rfl
      exact absurd hvalue.valid (by decide)
    have hlength : Scanner.rawValueLength {} (value ++ b :: rest) = .ok value.length := by
      refine Scanner.rawValueLength_of_passes hopen (checkValid_eq_ok.mp hvalue.valid) hvalue.last
        (fun hpasses => ?_) rest
      refine hmore [zero] ⟨checkValid_eq_ok.mpr hpasses, ?_, ?_⟩
      · exact List.head?_append_of_ne_nil _ hne ▸ hvalue.first
      · simpa using (by decide : isSpace zero = false)
    rw [firstRawValue, htext]
    split
    · simp_all
    · simp [hlength, Except.map]

theorem first_raw_value_of_brackets :
    firstRawValue [blank, openBracket, closeBracket, zero] =
      .ok (some [openBracket, closeBracket]) :=
  (first_raw_value_is_the_first_value _).2 _ zero [] rfl
    ⟨rfl, by rintro _ ⟨⟩; rfl, by rintro _ ⟨⟩; rfl⟩ fun more h => nomatch h.valid

end Headscale.GoJson
