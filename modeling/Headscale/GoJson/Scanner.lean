import Headscale.GoJson.Cursor

/-!
# The scanner

`check_valid` feeds the bytes one by one to a state machine, and a space after the last one. A state
either takes its byte or hands it to the next state. The machine is followed through the cursor: where
the cursor stands between two tokens, the machine is in one state, and reading a token with the cursor
is what the machine does over its bytes. So the two accept the same texts.
-/

namespace Headscale.GoJson

open JsonText List

/-! ## The machine -/

inductive ScanState where
  | beginValue
  | beginValueOrEmpty
  | beginString
  | beginStringOrEmpty
  | inString
  | escape
  | unicode (remaining : Nat)
  | negative
  | zero
  | integer
  | dot
  | fraction
  | exponent
  | exponentSign
  | exponentDigits
  | literal (word : Bytes) (next : Nat)
  | endValue
  | endTop
deriving DecidableEq, Repr

inductive ScanFrame where
  | objectKey
  | objectValue
  | arrayValue
deriving DecidableEq, Repr

/-- The state of the machine, with the innermost frame first. -/
structure Scanner where
  state : ScanState := .beginValue
  frames : List ScanFrame := []
  endTop : Bool := false
deriving DecidableEq, Repr

inductive ScanError where
  | invalidCharacter (byte : UInt8) (context : String)
  | unexpectedEnd
deriving DecidableEq, Repr

/-- The text of an error; `quote` is Go's `strconv.Quote`. -/
def ScanError.text (quote : String → String) : ScanError → String
  | .invalidCharacter byte context =>
    let character :=
      if byte = 0x27 then "\\'"
      else if byte = JsonText.quote then "\\\""
      else String.ofList ((quote (String.singleton (Char.ofNat byte.toNat))).toList.tail.dropLast)
    "invalid character '" ++ character ++ "' " ++ context
  | .unexpectedEnd => "unexpected end of JSON input"

namespace Scanner

def push (s : Scanner) (byte : UInt8) (frame : ScanFrame) : Except ScanError Scanner :=
  if (frame :: s.frames).length > 10000 then .error (.invalidCharacter byte "exceeded max depth")
  else .ok { s with frames := frame :: s.frames }

def pop (s : Scanner) : Scanner :=
  match s.frames.tail with
  | [] => { s with frames := [], state := .endTop, endTop := true }
  | frames => { s with frames := frames, state := .endValue }

/-- The arm of `BeginValue` after spaces: each first byte leads to a state. -/
def startValue (s : Scanner) (byte : UInt8) : Except ScanError Scanner :=
  if byte = openBrace then
    (s.push byte .objectKey).map fun s => { s with state := .beginStringOrEmpty }
  else if byte = openBracket then
    (s.push byte .arrayValue).map fun s => { s with state := .beginValueOrEmpty }
  else if byte = quote then .ok { s with state := .inString }
  else if byte = minus then .ok { s with state := .negative }
  else if byte = zero then .ok { s with state := .zero }
  else if isDigit byte then .ok { s with state := .integer }
  else if byte = lowerT then .ok { s with state := .literal trueText 1 }
  else if byte = lowerF then .ok { s with state := .literal falseText 1 }
  else if byte = lowerN then .ok { s with state := .literal nullText 1 }
  else .error (.invalidCharacter byte "looking for beginning of value")

def literalContext (word : Bytes) (expected : UInt8) : String :=
  "in literal " ++ String.ofList (word.map fun b => Char.ofNat b.toNat) ++ " (expecting '" ++
    String.singleton (Char.ofNat expected.toNat) ++ "')"

/-- One round of the loop in `step`: on the left the byte goes to another state, on the right it has
been taken. -/
def turn (byte : UInt8) (s : Scanner) : Except ScanError (Scanner ⊕ Scanner) :=
  match s.state with
  | .beginValueOrEmpty =>
    if isSpace byte then .ok (.inr s)
    else if byte = closeBracket then .ok (.inl { s with state := .endValue })
    else .ok (.inl { s with state := .beginValue })
  | .beginValue => if isSpace byte then .ok (.inr s) else (s.startValue byte).map .inr
  | .beginStringOrEmpty =>
    if isSpace byte then .ok (.inr s)
    else if byte = closeBrace then
      .ok (.inl { s with frames := .objectValue :: s.frames.tail, state := .endValue })
    else .ok (.inl { s with state := .beginString })
  | .beginString =>
    if isSpace byte then .ok (.inr s)
    else if byte ≠ quote then
      .error (.invalidCharacter byte "looking for beginning of object key string")
    else .ok (.inr { s with state := .inString })
  | .inString =>
    if byte = quote then .ok (.inr { s with state := .endValue })
    else if byte = backslash then .ok (.inr { s with state := .escape })
    else if byte < 0x20 then .error (.invalidCharacter byte "in string literal")
    else .ok (.inr s)
  | .escape =>
    if isShortEscape byte then .ok (.inr { s with state := .inString })
    else if byte = lowerU then .ok (.inr { s with state := .unicode 4 })
    else .error (.invalidCharacter byte "in string escape code")
  | .unicode remaining =>
    if !isHexDigit byte then .error (.invalidCharacter byte "in \\u hexadecimal character escape")
    else if remaining = 1 then .ok (.inr { s with state := .inString })
    else .ok (.inr { s with state := .unicode (remaining - 1) })
  | .negative =>
    if byte = zero then .ok (.inr { s with state := .zero })
    else if isDigit byte then .ok (.inr { s with state := .integer })
    else .error (.invalidCharacter byte "in numeric literal")
  | .integer =>
    if isDigit byte then .ok (.inr s) else .ok (.inl { s with state := .zero })
  | .zero =>
    if byte = dot then .ok (.inr { s with state := .dot })
    else if byte = lowerE ∨ byte = upperE then .ok (.inr { s with state := .exponent })
    else .ok (.inl { s with state := .endValue })
  | .dot =>
    if !isDigit byte then .error (.invalidCharacter byte "after decimal point in numeric literal")
    else .ok (.inr { s with state := .fraction })
  | .fraction =>
    if isDigit byte then .ok (.inr s)
    else if byte = lowerE ∨ byte = upperE then .ok (.inr { s with state := .exponent })
    else .ok (.inl { s with state := .endValue })
  | .exponent =>
    if byte = plus ∨ byte = minus then .ok (.inr { s with state := .exponentSign })
    else .ok (.inl { s with state := .exponentSign })
  | .exponentSign =>
    if !isDigit byte then .error (.invalidCharacter byte "in exponent of numeric literal")
    else .ok (.inr { s with state := .exponentDigits })
  | .exponentDigits =>
    if isDigit byte then .ok (.inr s) else .ok (.inl { s with state := .endValue })
  | .literal word next =>
    let expected := word[next]?.getD 0
    if byte ≠ expected then .error (.invalidCharacter byte (literalContext word expected))
    else if next + 1 = word.length then .ok (.inr { s with state := .endValue })
    else .ok (.inr { s with state := .literal word (next + 1) })
  | .endValue =>
    match s.frames with
    | [] => .ok (.inl { s with state := .endTop, endTop := true })
    | frame :: frames =>
      if isSpace byte then .ok (.inr s)
      else
        match frame with
        | .objectKey =>
          if byte = colon then
            .ok (.inr { s with frames := .objectValue :: frames, state := .beginValue })
          else .error (.invalidCharacter byte "after object key")
        | .objectValue =>
          if byte = comma then
            .ok (.inr { s with frames := .objectKey :: frames, state := .beginString })
          else if byte = closeBrace then .ok (.inr s.pop)
          else .error (.invalidCharacter byte "after object key:value pair")
        | .arrayValue =>
          if byte = comma then .ok (.inr { s with state := .beginValue })
          else if byte = closeBracket then .ok (.inr s.pop)
          else .error (.invalidCharacter byte "after array element")
  | .endTop =>
    if isSpace byte then .ok (.inr s)
    else .error (.invalidCharacter byte "after top-level value")

end Scanner

/-- How often a byte can be handed on from the state. -/
def ScanState.rank : ScanState → Nat
  | .integer => 3
  | .zero | .fraction | .exponentDigits | .beginValueOrEmpty | .beginStringOrEmpty => 2
  | .endValue | .exponent => 1
  | _ => 0

namespace Scanner

lemma rank_turn {byte : UInt8} {s s' : Scanner} (h : s.turn byte = .ok (.inl s')) :
    s'.state.rank < s.state.rank := by
  have hstart : (s.startValue byte).map Sum.inr ≠ .ok (.inl s') := by
    cases s.startValue byte <;> simp [Except.map]
  unfold turn at h
  split at h <;> rename_i hstate <;> rw [hstate]
  all_goals grind [ScanState.rank]

def stepLoop (byte : UInt8) : Loop Scanner ScanError Scanner where
  step := turn byte
  size s := s.state.rank
  decreases := rank_turn

def step (s : Scanner) (byte : UInt8) : Except ScanError Scanner := (stepLoop byte).run s

end Scanner

def checkValid (bytes : Bytes) : Except ScanError Unit := do
  let s ← bytes.foldlM Scanner.step {}
  if !s.endTop then
    -- the machine decides at a space whether a last number has ended
    let s ← s.step blank
    if !s.endTop then
      .error .unexpectedEnd

/-! ## Feeding bytes -/

namespace Scanner

/-- The machine takes the text and then, unless the value has ended, ends it at a space. -/
def Passes (s : Scanner) : Bytes → Prop
  | [] => s.endTop = true ∨ ∃ s', s.step blank = .ok s' ∧ s'.endTop = true
  | b :: text => ∃ s', s.step b = .ok s' ∧ s'.Passes text

/-- The byte that the machine sees next. -/
def seen : Bytes → UInt8
  | [] => blank
  | b :: _ => b

@[simp] lemma seen_cons (b : UInt8) (text : Bytes) : seen (b :: text) = b := rfl

lemma foldlM_passes (s : Scanner) (bytes : Bytes) : s.Passes bytes ↔
    ∃ s', bytes.foldlM step s = .ok s' ∧ s'.Passes [] := by
  induction bytes generalizing s with
  | nil => simp [pure, Except.pure]
  | cons b bytes ih =>
    rw [Passes, foldlM_cons]
    cases s.step b with
    | error e => simp [bind, Except.bind]
    | ok s' => simpa [bind, Except.bind] using ih s'

end Scanner

lemma checkValid_eq_ok {bytes : Bytes} : checkValid bytes = .ok () ↔ Scanner.Passes {} bytes := by
  rw [Scanner.foldlM_passes, checkValid]
  cases bytes.foldlM Scanner.step {} with
  | error e => simp [bind, Except.bind]
  | ok s =>
    cases htop : s.endTop with
    | true => simp [bind, Except.bind, pure, Except.pure, Scanner.Passes, htop]
    | false =>
      cases hstep : s.step blank with
      | error e => simp [bind, Except.bind, Scanner.Passes, htop, hstep]
      | ok s' =>
        cases htop' : s'.endTop <;>
          simp [bind, Except.bind, pure, Except.pure, Scanner.Passes, htop, hstep]

namespace Scanner

section Bytes

variable {s s' : Scanner} {b : UInt8} {text : Bytes}

lemma passes_done (h : s.turn b = .ok (.inr s')) : s.Passes (b :: text) ↔ s'.Passes text := by
  have hstep : s.step b = .ok s' := Loop.run_done h
  simp [Passes, hstep]

/-- A byte that is handed on, or the space at the end, is seen by the next state. -/
theorem passes_next (h : s.turn (seen text) = .ok (.inl s')) (htop : text = [] → s'.endTop = s.endTop) :
    s.Passes text ↔ s'.Passes text := by
  have hstep : s.step (seen text) = s'.step (seen text) := Loop.run_next h
  cases text with
  | nil => rw [Passes, Passes, htop rfl, show s.step blank = s'.step blank from hstep]
  | cons b text => rw [Passes, Passes, show s.step b = s'.step b from hstep]

lemma passes_cons_next (h : s.turn b = .ok (.inl s')) : s.Passes (b :: text) ↔ s'.Passes (b :: text) :=
  passes_next h (by simp)

lemma not_passes_of_refused (htop : text = [] → s.endTop = false)
    (h : ∀ next, s.turn (seen text) ≠ .ok next) : ¬ s.Passes text := by
  cases hturn : s.turn (seen text) with
  | ok next => exact absurd hturn (h next)
  | error e =>
    have hstep : s.step (seen text) = .error e := Loop.run_error hturn
    cases text with
    | nil => simp [Passes, htop rfl, show s.step blank = .error e from hstep]
    | cons b text => simp [Passes, show s.step b = .error e from hstep]

lemma not_passes_nil (htop : s.endTop = false) (h : s.turn blank = .ok (.inr s'))
    (htop' : s'.endTop = false) : ¬ s.Passes [] := by
  have hstep : s.step blank = .ok s' := Loop.run_done h
  simp [Passes, htop, hstep, htop']

/-- A state that wants a byte of one kind next, which a space is not. -/
theorem passes_takes (kind : UInt8 → Bool) (next : UInt8 → Scanner) (htop : s.endTop = false)
    (hblank : kind blank = false) (htakes : ∀ b, kind b = true → s.turn b = .ok (.inr (next b)))
    (hrefuses : ∀ b, kind b = false → ∀ next, s.turn b ≠ .ok next) :
    s.Passes text ↔ ∃ b rest, text = b :: rest ∧ kind b = true ∧ (next b).Passes rest := by
  cases text with
  | nil =>
    have hnil : ¬ s.Passes [] := not_passes_of_refused (fun _ => htop) (hrefuses blank hblank)
    simp [hnil]
  | cons b text =>
    cases hb : kind b with
    | true => simp [passes_done (htakes b hb), hb]
    | false =>
      have hcons : ¬ s.Passes (b :: text) := not_passes_of_refused (fun _ => htop) (hrefuses b hb)
      simp [hcons, hb]

/-- A state that takes bytes of a kind and stays does not see them. -/
theorem passes_dropWhile (kind : UInt8 → Bool)
    (hs : ∀ b, kind b = true → s.turn b = .ok (.inr s)) :
    s.Passes text ↔ s.Passes (text.dropWhile kind) := by
  induction text with
  | nil => rfl
  | cons b text ih =>
    by_cases hb : kind b = true
    · rw [dropWhile_cons_of_pos hb, passes_done (hs b hb), ih]
    · rw [dropWhile_cons_of_neg hb]

end Bytes

/-! ## Strings -/

section Tokens

variable {frames : List ScanFrame} {text : Bytes}

lemma passes_unicode {remaining : Nat} : Passes ⟨.unicode remaining, frames, false⟩ text ↔
    ∃ d rest, text = d :: rest ∧ isHexDigit d = true ∧
      Passes ⟨if remaining = 1 then .inString else .unicode (remaining - 1), frames, false⟩ rest := by
  apply passes_takes isHexDigit _ rfl (by decide)
  · intro d hd
    simp only [turn, hd, Bool.not_true, Bool.false_eq_true, if_false]
    split <;> rfl
  · intro d hd
    simp [turn, hd]

lemma passes_escape : Passes ⟨.escape, frames, false⟩ text ↔
    ∃ c rest, text = c :: rest ∧ (isShortEscape c || c = lowerU) = true ∧
      Passes ⟨if isShortEscape c then .inString else .unicode 4, frames, false⟩ rest := by
  apply passes_takes (fun c => isShortEscape c || c = lowerU) _ rfl (by decide)
  · intro c hc
    by_cases hshort : isShortEscape c = true
    · simp only [turn, hshort, if_true]
    · have hunicode : c = lowerU := by simpa [hshort] using hc
      simp only [turn, hshort, if_pos hunicode, Bool.false_eq_true, if_false]
  · intro c hc
    simp only [Bool.or_eq_false_iff, decide_eq_false_iff_not] at hc
    simp [turn, hc]

/-- The hexadecimal digits of an escape. -/
theorem passes_escape_unicode : Passes ⟨.escape, frames, false⟩ (lowerU :: text) ↔
    ∃ h₁ h₂ h₃ h₄ rest, text = h₁ :: h₂ :: h₃ :: h₄ :: rest ∧
      [h₁, h₂, h₃, h₄].all isHexDigit = true ∧ Passes ⟨.inString, frames, false⟩ rest := by
  have hshort : isShortEscape lowerU = false := by decide
  simp [passes_escape, hshort, passes_unicode]
  grind

lemma passes_inString : Passes ⟨.inString, frames, false⟩ text ↔
    ∃ rest, quotedTail text = some rest ∧ Passes ⟨.endValue, frames, false⟩ rest := by
  have hbackslash (rest : Bytes) : Passes ⟨.inString, frames, false⟩ (backslash :: rest) ↔
    Passes ⟨.escape, frames, false⟩ rest := passes_done rfl
  fun_induction quotedTail text with
  | case1 =>
    have hnil : ¬ Passes ⟨.inString, frames, false⟩ [] := not_passes_nil rfl rfl rfl
    simp [hnil]
  | case2 rest' =>
    rw [passes_done rfl]
    simp
  | case3 => simp [hbackslash, passes_escape]
  | case4 c rest' hc _ ih => simp [hbackslash, passes_escape, hc, ih]
  | case5 h₁ h₂ h₃ h₄ rest' hdigits _ _ ih =>
    refine Iff.trans ?_ ih
    rw [hbackslash, passes_escape_unicode]
    grind
  | case6 h₁ h₂ h₃ h₄ rest' hdigits =>
    rw [hbackslash, passes_escape_unicode]
    grind
  | case7 rest' hshort =>
    rw [hbackslash, passes_escape_unicode]
    grind
  | case8 c rest' hshort hunicode _ => simp [hbackslash, passes_escape, hshort, hunicode]
  | case9 b rest' hquote hescape hcontrol =>
    have hcons : ¬ Passes ⟨.inString, frames, false⟩ (b :: rest') := by
      apply not_passes_of_refused (fun _ => rfl)
      simp [turn, hquote, hescape, hcontrol]
    simp [hcons]
  | case10 b rest' hquote hescape hcontrol ih =>
    have htakes : turn b ⟨.inString, frames, false⟩ = .ok (.inr ⟨.inString, frames, false⟩) := by
      simp only [turn, if_neg hquote, if_neg hescape, if_neg hcontrol]
    rw [passes_done htakes]
    exact ih

/-! ## Numbers -/

lemma isDigit_head (text : Bytes) : isDigit (seen (text.dropWhile isDigit)) = false := by
  have hstops := stops_dropWhile isDigit text
  cases hdrop : text.dropWhile isDigit with
  | nil => decide
  | cons b rest => simpa [hdrop] using hstops

/-- A state that wants digits, and then what the state after a digit wants without them. -/
theorem passes_digits {s : Scanner} (next : Scanner) (P : Bytes → Prop) (htop : s.endTop = false)
    (htakes : ∀ b, isDigit b = true → s.turn b = .ok (.inr next))
    (hrefuses : ∀ b, isDigit b = false → ∀ next, s.turn b ≠ .ok next)
    (hnext : ∀ rest, next.Passes rest ↔ P (rest.dropWhile isDigit)) :
    s.Passes text ↔ ∃ rest, digits text = some rest ∧ P rest := by
  rw [passes_takes isDigit (fun _ => next) htop (by decide) htakes hrefuses]
  cases text with
  | nil => simp [digits]
  | cons b rest =>
    cases hb : isDigit b with
    | true => simp [digits_cons hb, hnext, hb]
    | false => simp [digits, hb]

lemma passes_exponentDigits : Passes ⟨.exponentDigits, frames, false⟩ text ↔
    Passes ⟨.endValue, frames, false⟩ (text.dropWhile isDigit) := by
  rw [passes_dropWhile isDigit]
  · exact passes_next (by simp [turn, isDigit_head]) (fun _ => rfl)
  · intro b hb
    simp [turn, hb]

lemma passes_exponentSign : Passes ⟨.exponentSign, frames, false⟩ text ↔
    ∃ rest, digits text = some rest ∧ Passes ⟨.endValue, frames, false⟩ rest := by
  apply passes_digits ⟨.exponentDigits, frames, false⟩ (Passes ⟨.endValue, frames, false⟩) rfl
  · intro b hb
    simp [turn, hb]
  · intro b hb
    simp [turn, hb]
  · intro rest
    exact passes_exponentDigits

lemma passes_exponent : Passes ⟨.exponent, frames, false⟩ text ↔
    ∃ rest, digits (exponentSign text) = some rest ∧ Passes ⟨.endValue, frames, false⟩ rest := by
  rw [← passes_exponentSign]
  cases text with
  | nil => exact passes_next rfl (fun _ => rfl)
  | cons b text =>
    by_cases hb : b = plus ∨ b = minus
    · rw [exponentSign, if_pos hb]
      exact passes_done (if_pos hb)
    · rw [exponentSign, if_neg hb]
      exact passes_next (if_neg hb) (fun _ => rfl)

/-- An exponent may follow where the state hands other bytes on. -/
theorem passes_numberExponent {s : Scanner} (htop : s.endTop = false)
    (hexponent : ∀ b, b = lowerE ∨ b = upperE → s.turn b = .ok (.inr ⟨.exponent, frames, false⟩))
    (hend : ¬ (seen text = lowerE ∨ seen text = upperE) →
      s.turn (seen text) = .ok (.inl ⟨.endValue, frames, false⟩)) :
    s.Passes text ↔ ∃ rest, numberExponent text = some rest ∧
      Passes ⟨.endValue, frames, false⟩ rest := by
  cases text with
  | nil => simp [numberExponent, passes_next (hend (by decide)) (fun _ => htop.symm)]
  | cons b text =>
    by_cases hb : b = lowerE ∨ b = upperE
    · rw [numberExponent, if_pos hb, passes_done (hexponent b hb), passes_exponent]
    · rw [numberExponent, if_neg hb, passes_next (hend hb) (fun _ => htop.symm)]
      simp

lemma passes_fraction : Passes ⟨.fraction, frames, false⟩ text ↔
    ∃ rest, numberExponent (text.dropWhile isDigit) = some rest ∧
      Passes ⟨.endValue, frames, false⟩ rest := by
  rw [passes_dropWhile isDigit]
  · apply passes_numberExponent rfl
    · rintro b (rfl | rfl) <;> rfl
    · intro hb
      simp only [turn, isDigit_head, if_neg hb, Bool.false_eq_true, if_false]
  · intro b hb
    simp [turn, hb]

lemma passes_dot : Passes ⟨.dot, frames, false⟩ text ↔
    ∃ rest, (digits text).bind numberExponent = some rest ∧
      Passes ⟨.endValue, frames, false⟩ rest := by
  rw [passes_digits ⟨.fraction, frames, false⟩ (fun text =>
    ∃ rest, numberExponent text = some rest ∧ Passes ⟨.endValue, frames, false⟩ rest) rfl]
  · simp [Option.bind_eq_some_iff]
    grind
  · intro b hb
    simp [turn, hb]
  · intro b hb
    simp [turn, hb]
  · intro rest
    exact passes_fraction

lemma passes_zero : Passes ⟨.zero, frames, false⟩ text ↔
    ∃ rest, (numberFraction text).bind numberExponent = some rest ∧
      Passes ⟨.endValue, frames, false⟩ rest := by
  by_cases hdot : seen text = dot
  · cases text with
    | nil => cases hdot
    | cons b text =>
      obtain rfl : b = dot := hdot
      rw [numberFraction, if_pos rfl, ← passes_dot]
      exact passes_done rfl
  · have hfraction : numberFraction text = some text := by
      cases text with
      | nil => rfl
      | cons b text => exact if_neg hdot
    rw [hfraction, Option.bind_some]
    apply passes_numberExponent rfl
    · rintro b (rfl | rfl) <;> rfl
    · intro hb
      simp only [turn, if_neg hb, if_neg hdot]

lemma passes_integer : Passes ⟨.integer, frames, false⟩ text ↔
    Passes ⟨.zero, frames, false⟩ (text.dropWhile isDigit) := by
  rw [passes_dropWhile isDigit]
  · exact passes_next (by simp [turn, isDigit_head]) (fun _ => rfl)
  · intro b hb
    simp [turn, hb]

lemma passes_negative : Passes ⟨.negative, frames, false⟩ text ↔
    ∃ rest, ((numberInteger text).bind numberFraction).bind numberExponent = some rest ∧
      Passes ⟨.endValue, frames, false⟩ rest := by
  rw [passes_takes isDigit (fun b =>
    ⟨if b = zero then .zero else .integer, frames, false⟩) rfl (by decide)]
  · cases text with
    | nil => simp [numberInteger]
    | cons b text =>
      by_cases hzero : b = zero
      · have hdigit : isDigit zero = true := by decide
        simp [numberInteger, hzero, hdigit, passes_zero]
      · cases hdigit : isDigit b with
        | true => simp [numberInteger, hzero, hdigit, digits_cons, passes_integer, passes_zero]
        | false => simp [numberInteger, hzero, hdigit]
  · intro b hb
    by_cases hzero : b = zero <;> simp [turn, hb, hzero]
  · intro b hb
    have hzero : b ≠ zero := by
      rintro rfl
      exact absurd hb (by decide)
    simp [turn, hb, hzero]

/-! ## Words -/

/-- The bytes of a word from the next one on. -/
theorem passes_literal {word tail : Bytes} {next : Nat} (hword : word.drop next = tail)
    (htail : tail ≠ []) (hblank : blank ∉ tail) : Passes ⟨.literal word next, frames, false⟩ text ↔
      ∃ rest, text = tail ++ rest ∧ Passes ⟨.endValue, frames, false⟩ rest := by
  induction tail generalizing next text with
  | nil => exact absurd rfl htail
  | cons b tail ih =>
    have hexpected : word[next]? = some b := by
      have hget : (word.drop next)[0]? = some b := by rw [hword, getElem?_cons_zero]
      rwa [getElem?_drop, Nat.add_zero] at hget
    have hrest : word.drop (next + 1) = tail := by
      rw [← drop_drop, hword, drop_one, tail_cons]
    have hlast : next + 1 = word.length ↔ tail = [] := by
      have hlength := congrArg List.length hword
      rw [length_drop, length_cons] at hlength
      rw [← length_eq_zero_iff]
      omega
    rw [passes_takes (fun c => c = b) (fun _ => ⟨if tail = [] then .endValue else
      .literal word (next + 1), frames, false⟩) rfl]
    · by_cases hnil : tail = []
      · simp [hnil]
      · simp only [hnil, if_false, ih hrest hnil (by simp_all)]
        simp
    · simpa using fun h => hblank (by simp [h])
    · intro c hc
      simp only [decide_eq_true_eq] at hc
      by_cases hnil : tail = [] <;> simp [turn, hexpected, hc, hlast, hnil]
    · intro c hc
      simp only [decide_eq_false_iff_not] at hc
      simp [turn, hexpected, hc]

/-! ## Values -/

/-- A word that its first byte announces. -/
theorem passes_word {word tail : Bytes} {b : UInt8} (hword : word = b :: tail) (htail : tail ≠ [])
    (hblank : blank ∉ tail)
    (hturn : turn b ⟨.beginValue, frames, false⟩ = .ok (.inr ⟨.literal word 1, frames, false⟩)) :
    Passes ⟨.beginValue, frames, false⟩ (b :: text) ↔
      ∃ rest, literal word (b :: text) = some rest ∧ Passes ⟨.endValue, frames, false⟩ rest := by
  have hdrop : word.drop 1 = tail := by rw [hword, drop_one, tail_cons]
  rw [passes_done hturn, passes_literal hdrop htail hblank]
  simp [literal_iff, hword]

/-- A value that is not a container. -/
theorem passes_scalar {b : UInt8} (hspace : isSpace b = false) (hbracket : b ≠ openBracket)
    (hbrace : b ≠ openBrace) : Passes ⟨.beginValue, frames, false⟩ (b :: text) ↔
      ∃ rest, scalar (b :: text) = some rest ∧ Passes ⟨.endValue, frames, false⟩ rest := by
  have hturn : turn b ⟨.beginValue, frames, false⟩ =
      (startValue ⟨.beginValue, frames, false⟩ b).map .inr := by simp [turn, hspace]
  by_cases hquote : b = quote
  · subst hquote
    rw [passes_done rfl, passes_inString]
    rfl
  by_cases hminus : b = minus
  · subst hminus
    rw [passes_done rfl, passes_negative]
    rfl
  by_cases hdigit : isDigit b = true
  · -- a digit starts a number as it does after a sign
    obtain ⟨next, hstart, hnegative⟩ : ∃ next, turn b ⟨.beginValue, frames, false⟩ = .ok (.inr next) ∧
        turn b ⟨.negative, frames, false⟩ = .ok (.inr next) := by
      by_cases hzero : b = zero
      · subst hzero
        exact ⟨_, rfl, rfl⟩
      · refine ⟨⟨.integer, frames, false⟩, ?_, (if_neg hzero).trans (if_pos hdigit)⟩
        simp [hturn, startValue, Except.map, hbracket, hbrace, hquote, hminus, hdigit, hzero]
    have hnumber : scalar (b :: text) =
        ((numberInteger (b :: text)).bind numberFraction).bind numberExponent := by
      simp [scalar, number, numberSign, hquote, hminus, hdigit]
    rw [hnumber, ← passes_negative, passes_done hstart, passes_done hnegative]
  by_cases htrue : b = lowerT
  · subst htrue
    exact passes_word rfl (by simp) (by decide) rfl
  by_cases hfalse : b = lowerF
  · subst hfalse
    exact passes_word rfl (by simp) (by decide) rfl
  by_cases hnull : b = lowerN
  · subst hnull
    exact passes_word rfl (by simp) (by decide) rfl
  have hrefused : ¬ Passes ⟨.beginValue, frames, false⟩ (b :: text) := by
    apply not_passes_of_refused (fun _ => rfl)
    have hzero : b ≠ zero := by
      rintro rfl
      exact hdigit (by decide)
    simp [hturn, startValue, Except.map, hbracket, hbrace, hquote, hminus, hdigit, hzero, htrue, hfalse,
      hnull]
  simp [hrefused, scalar, hquote, hminus, hdigit, htrue, hfalse, hnull]

end Tokens

end Scanner

end Headscale.GoJson
