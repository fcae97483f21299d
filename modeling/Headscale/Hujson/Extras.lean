import Headscale.GoJson.Validators
import Headscale.Lib.Transduction
import Headscale.Lib.Utf8

/-!
# Extras and literals

What the HuJSON parser reads between punctuation: extras, that is, spaces and comments, and literals,
which the JSON scanner checks. An extra is written with blanks for its comments, and a literal is
written as it is.
-/

namespace Headscale.Hujson

open JsonText GoJson List

/-! ## Errors -/

/-- What is wrong at an offset. -/
inductive Problem where
  | message (text : String)
  | invalidCharacter (context : String)
  | invalidLiteral (token : Bytes)
deriving DecidableEq, Repr

structure ParseError where
  offset : Nat
  problem : Problem
deriving DecidableEq, Repr

/-- `Parser::error`: an error with its line and column; `character` quotes the first character of the
bytes, and `literal` shows a literal. -/
def ParseError.text (character literal : Bytes → String) (raw : Bytes) (e : ParseError) : String :=
  let before := raw.take e.offset
  let line := 1 + before.count lineFeed
  let column := (before.reverse.takeWhile (· ≠ lineFeed)).length + 1
  let message :=
    match e.problem with
    | .message text => text
    | .invalidCharacter context =>
      "invalid character " ++ character (raw.drop e.offset) ++ " " ++ context
    | .invalidLiteral token => "invalid literal: " ++ literal token
  "hujson: line " ++ toString line ++ ", column " ++ toString column ++ ": " ++ message

/-! ## Comments -/

/-- The mark stands at the end of the text and nowhere else. -/
def EndsAt (mark text : Bytes) : Prop :=
  mark <:+ text ∧ ∀ before after, text = before ++ (mark ++ after) → after = []

/-- The text up to the first mark and with it, and what follows. -/
def splitAfter (mark : Bytes) : Bytes → Option (Bytes × Bytes)
  | [] => none
  | b :: rest =>
    if mark.isPrefixOf (b :: rest) then some (mark, (b :: rest).drop mark.length)
    else (splitAfter mark rest).map fun parts => (b :: parts.1, parts.2)

lemma splitAfter_iff {mark : Bytes} (hmark : mark ≠ []) {text inner rest : Bytes} :
    splitAfter mark text = some (inner, rest) ↔ text = inner ++ rest ∧ EndsAt mark inner := by
  induction text generalizing inner with
  | nil =>
    simp only [splitAfter, reduceCtorEq, false_iff, not_and]
    rintro hnil ⟨hend, -⟩
    rw [(append_eq_nil_iff.mp hnil.symm).1, suffix_nil] at hend
    exact hmark hend
  | cons b text ih =>
    rw [splitAfter]
    split
    · rename_i hstart
      obtain ⟨after, hafter⟩ := isPrefixOf_iff_prefix.mp hstart
      have hmarkEnds : EndsAt mark mark := ⟨suffix_refl _, fun before after h => by
        have hlength := congrArg List.length h
        simp only [length_append] at hlength
        exact length_eq_zero_iff.mp (by omega)⟩
      rw [← hafter, drop_left]
      constructor
      · intro h
        cases h
        exact ⟨rfl, hmarkEnds⟩
      · rintro ⟨heq, hends, honly⟩
        -- the mark at the start of the text lies in the inner part, so it is all of it
        obtain ⟨tail, htail⟩ : mark <+: inner :=
          prefix_of_prefix_length_le ⟨after, heq⟩ ⟨rest, rfl⟩ hends.length_le
        obtain rfl := honly [] tail htail.symm
        rw [append_nil] at htail
        subst htail
        rw [append_cancel_left heq]
    · rename_i hstart
      have hnot : ¬ mark <+: b :: text := fun h => hstart (List.isPrefixOf_iff_prefix.mpr h)
      constructor
      · intro h
        obtain ⟨⟨inner', rest'⟩, hparts, heq⟩ := Option.map_eq_some_iff.mp h
        cases heq
        obtain ⟨rfl, hends, honly⟩ := ih.mp hparts
        refine ⟨rfl, hends.trans (suffix_cons _ _), fun before after hbefore => ?_⟩
        cases before with
        | nil => exact absurd ⟨after ++ rest', by simpa using congrArg (· ++ rest') hbefore.symm⟩ hnot
        | cons c before => exact honly before after (List.cons.inj hbefore).2
      · rintro ⟨heq, hends, honly⟩
        cases inner with
        | nil => exact absurd (suffix_nil.mp hends) hmark
        | cons c inner =>
          rw [cons_append] at heq
          obtain ⟨rfl, rfl⟩ := List.cons.inj heq
          have hends' : mark <:+ inner := by
            rcases suffix_cons_iff.mp hends with hall | hinner
            · exact absurd ⟨rest, by simp [hall]⟩ hnot
            · exact hinner
          have hinner : splitAfter mark (inner ++ rest) = some (inner, rest) :=
            ih.mpr ⟨rfl, hends', fun before after h => honly (b :: before) after (by simp [h])⟩
          rw [hinner, Option.map_some]

/-- What ends a comment, by the byte after its first slash. -/
def commentEnd (kind : UInt8) : Bytes := if kind = slash then [lineFeed] else [star, slash]

/-- The bytes are one comment, up to its end. -/
def IsComment (text : Bytes) : Prop :=
  ∃ kind inner, (kind = slash ∨ kind = star) ∧ text = slash :: kind :: inner ∧
    EndsAt (commentEnd kind) inner ∧ Utf8.valid text = true

/-- One space or one comment. -/
def IsPiece (text : Bytes) : Prop := (∃ b, isSpace b = true ∧ text = [b]) ∨ IsComment text

/-- Spaces and comments. -/
inductive IsExtra : Bytes → Prop where
  | nil : IsExtra []
  | cons {piece rest : Bytes} (hpiece : IsPiece piece) (h : IsExtra rest) : IsExtra (piece ++ rest)

/-- The bytes as spaces: those that are not become blanks. -/
def blanked (text : Bytes) : Bytes := text.map fun b => if isSpace b then b else blank

/-! ## Reading extras -/

/-- The body of the loop in `Parser::extra`: the piece at the start of the text, if there is one, and
what follows it. -/
def piece (offset : Nat) (text : Bytes) : Except ParseError (Option (Bytes × Bytes)) :=
  match text with
  | [] => .ok none
  | b :: after =>
    if isSpace b then .ok (some ([b], after))
    else if b = slash then
      match after with
      | [] => .ok none
      | kind :: body =>
        if kind = slash ∨ kind = star then
          match splitAfter (commentEnd kind) body with
          | none => .error ⟨offset, .message "parsing comment: unexpected EOF"⟩
          | some (inner, rest) =>
            if !Utf8.valid (slash :: kind :: inner) then
              .error ⟨offset, .message "invalid UTF-8 in comment"⟩
            else .ok (some (slash :: kind :: inner, rest))
        else .ok none
    else .ok none

lemma commentEnd_ne_nil (kind : UInt8) : commentEnd kind ≠ [] := by
  unfold commentEnd
  split <;> simp

variable {K : Transduction.Goal UInt8} {n : Nat} {first : Bytes}

lemma piece_eq_some {offset : Nat} {text rest : Bytes}
    (h : piece offset text = .ok (some (first, rest))) : IsPiece first ∧ text = first ++ rest := by
  unfold piece at h
  split at h
  · cases h
  rename_i b after
  split at h
  · rename_i hb
    cases Except.ok.inj h
    exact ⟨.inl ⟨b, hb, rfl⟩, rfl⟩
  split at h
  · rename_i hslash
    split at h
    · cases h
    rename_i kind body
    split at h
    · rename_i hkind
      split at h
      · cases h
      rename_i inner rest' hsplit
      split at h
      · cases h
      · rename_i hvalid
        cases Except.ok.inj h
        obtain ⟨rfl, hends⟩ := (splitAfter_iff (commentEnd_ne_nil kind)).mp hsplit
        exact ⟨.inr ⟨kind, inner, hkind, rfl, hends, by simpa using hvalid⟩, by simp [hslash]⟩
    · cases h
  · cases h

lemma IsPiece.ne_nil (h : IsPiece first) : first ≠ [] := by
  rcases h with ⟨b, -, rfl⟩ | ⟨kind, inner, -, rfl, -⟩
  · simp
  · simp

lemma piece_append (hfirst : IsPiece first) (rest : Bytes) (offset : Nat) :
    piece offset (first ++ rest) = .ok (some (first, rest)) := by
  rcases hfirst with ⟨b, hb, rfl⟩ | ⟨kind, inner, hkind, rfl, hends, hvalid⟩
  · simp [piece, hb]
  · have hsplit : splitAfter (commentEnd kind) (inner ++ rest) = some (inner, rest) :=
      (splitAfter_iff (commentEnd_ne_nil kind)).mpr ⟨rfl, hends⟩
    have hspace : isSpace slash = false := by decide
    simp [piece, hspace, hkind, hsplit, hvalid]

/-- The bytes that an extra can start with. -/
def isExtraStart (b : UInt8) : Bool := isSpace b || b = slash

lemma piece_stops {text : Bytes} (h : Stops isExtraStart text) (offset : Nat) :
    piece offset text = .ok none := by
  cases text with
  | nil => rfl
  | cons b text =>
    rw [stops_cons, isExtraStart, Bool.or_eq_false_iff, decide_eq_false_iff_not] at h
    simp [piece, h]

variable {gap : Bytes} (start : Nat)

/-- A turn of the loop, on the bytes it has passed and the text that is left. -/
def extraStep (s : Bytes × Bytes) : Except ParseError (Bytes × Bytes ⊕ Bytes × Bytes) :=
  match piece (start + s.1.length) s.2 with
  | .error e => .error e
  | .ok none => .ok (.inr s)
  | .ok (some (first, rest)) => .ok (.inl (s.1 ++ first, rest))

def extraLoop : Loop (Bytes × Bytes) ParseError (Bytes × Bytes) where
  step := extraStep start
  size s := s.2.length
  decreases := by
    intro s s' h
    unfold extraStep at h
    split at h
    · cases h
    · cases h
    rename_i first rest hpiece
    obtain ⟨hfirst, htext⟩ := piece_eq_some hpiece
    have hpos := length_pos_of_ne_nil hfirst.ne_nil
    cases h
    change rest.length < s.2.length
    rw [htext, length_append]
    omega

/-- `Parser::extra`: the extra at the start of the text, and what follows it. -/
def extra (text : Bytes) : Except ParseError (Bytes × Bytes) :=
  (extraLoop start).run ([], text)

lemma IsExtra.append {gap' : Bytes} (h : IsExtra gap) (h' : IsExtra gap') :
    IsExtra (gap ++ gap') := by
  induction h with
  | nil => exact h'
  | cons hpiece _ ih =>
    rw [append_assoc]
    exact .cons hpiece ih

/-- The loop reads the extras before a text that starts with none. -/
theorem extra_append {rest : Bytes} (hgap : IsExtra gap) (hrest : Stops isExtraStart rest)
    (start : Nat) : extra start (gap ++ rest) = .ok (gap, rest) := by
  have hrun (passed : Bytes) :
      (extraLoop start).run (passed, gap ++ rest) = .ok (passed ++ gap, rest) := by
    induction hgap generalizing passed with
    | nil =>
      exact Loop.run_done (by simp [extraLoop, extraStep, piece_stops hrest])
    | @cons first gap hfirst _ ih =>
      rw [append_assoc, ← append_assoc passed, ← ih]
      exact Loop.run_next (by simp [extraLoop, extraStep, piece_append hfirst])
  exact hrun []

lemma extra_eq_ok {start : Nat} {text rest : Bytes} (h : extra start text = .ok (gap, rest)) :
    IsExtra gap ∧ text = gap ++ rest := by
  let splits (s : Bytes × Bytes) : Prop := IsExtra s.1 ∧ text = s.1 ++ s.2
  have hsplits : splits (gap, rest) := by
    refine Loop.run_ok_of_invariant (I := splits) ?_ ?_ ⟨.nil, rfl⟩ h
    · intro s s' ⟨hgap, htext⟩ hstep
      change extraStep start s = _ at hstep
      unfold extraStep at hstep
      split at hstep
      · cases hstep
      · cases hstep
      rename_i first rest hpiece
      obtain ⟨hfirst, hrest⟩ := piece_eq_some hpiece
      cases hstep
      refine ⟨hgap.append (by simpa using IsExtra.cons hfirst .nil), ?_⟩
      rw [htext, hrest, append_assoc]
    · intro s r hs hstep
      change extraStep start s = _ at hstep
      unfold extraStep at hstep
      split at hstep
      · cases hstep
      · exact Sum.inr.inj (Except.ok.inj hstep) ▸ hs
      · cases hstep
  exact hsplits

/-! ## Extras as transductions -/

/-- An extra is written as spaces. -/
def Extra : Transduction UInt8 := fun raw out => IsExtra raw ∧ out = blanked raw

/-- The goal asks for a text that starts with none of the bytes. -/
def Refuses (kind : UInt8 → Bool) (K : Transduction.Goal UInt8) : Prop :=
  ∀ done rest, K done rest → Stops kind rest

variable {done : Bytes}

/-- Before a goal that no extra satisfies, an extra is what `Parser::extra` reads. -/
theorem on_extra (hK : Refuses isExtraStart K) {rest : Bytes} (start : Nat) :
    Transduction.On Extra K done rest ↔
      ∃ gap rest', extra start rest = .ok (gap, rest') ∧ K (done ++ blanked gap) rest' := by
  constructor
  · rintro ⟨gap, _, rest', ⟨hgap, rfl⟩, rfl, h⟩
    exact ⟨gap, rest', extra_append hgap (hK _ _ h) start, h⟩
  · rintro ⟨gap, rest', hextra, h⟩
    obtain ⟨hgap, rfl⟩ := extra_eq_ok hextra
    exact ⟨gap, _, rest', ⟨hgap, rfl⟩, rfl, h⟩

/-! ## Literals -/

/-- The bytes that numbers and words are made of, as the parser sees them. -/
def isLiteralByte (b : UInt8) : Bool :=
  isDigit b || (0x41 ≤ b && b ≤ 0x5a) || (0x61 ≤ b && b ≤ 0x7a) || b = minus || b = plus || b = dot

/-- The loop of `Parser::literal` over a string, after its opening quote: what it passes, up to the
first quote that is not escaped, and what follows. -/
def stringTail (escaped : Bool) : Bytes → Option (Bytes × Bytes)
  | [] => none
  | b :: rest =>
    let go (escaped : Bool) := (stringTail escaped rest).map fun parts => (b :: parts.1, parts.2)
    if escaped then go false
    else if b = backslash then go true
    else if b = quote then some ([b], rest)
    else go false

/-- The bytes that `Parser::literal` takes for one literal, before they are checked. -/
def literalSpan (text : Bytes) (string : Bool) : Except ParseError (Bytes × Bytes) :=
  if string then
    match stringTail false text.tail with
    | none => .error ⟨start + text.length, .message "parsing string: unexpected EOF"⟩
    | some (tail, rest) => .ok (text.take 1 ++ tail, rest)
  else
    let token := text.takeWhile isLiteralByte
    if token = [] then .error ⟨start, .invalidCharacter "at start of value"⟩
    else .ok (token, text.dropWhile isLiteralByte)

/-- `Parser::literal`: the literal at the start of the text, and what follows it. -/
def literal (text : Bytes) (string : Bool) : Except ParseError (Bytes × Bytes) :=
  match literalSpan start text string with
  | .error e => .error e
  | .ok (token, rest) =>
    match checkValid token with
    | .error _ => .error ⟨start, .invalidLiteral token⟩
    | .ok () => .ok (token, rest)

variable {token : Bytes} {b : UInt8} {text body rest : Bytes}

lemma stringTail_eq_some {escaped : Bool} (h : stringTail escaped text = some (body, rest)) :
    text = body ++ rest ∧ body.getLast? = some quote := by
  induction text generalizing escaped body with
  | nil => cases h
  | cons b text ih =>
    have hgo {escaped : Bool} (hparts : (stringTail escaped text).map
        (fun parts => (b :: parts.1, parts.2)) = some (body, rest)) :
        b :: text = body ++ rest ∧ body.getLast? = some quote := by
      obtain ⟨⟨body', rest'⟩, hbody, heq⟩ := Option.map_eq_some_iff.mp hparts
      cases heq
      obtain ⟨rfl, hlast⟩ := ih hbody
      refine ⟨rfl, ?_⟩
      rw [getLast?_cons, hlast]
      rfl
    rw [stringTail] at h
    split at h
    · exact hgo h
    split at h
    · exact hgo h
    split at h
    · rename_i hquote
      cases h
      exact ⟨rfl, by rw [hquote]; rfl⟩
    · exact hgo h

/-- A byte that is neither a quote nor a backslash is passed. -/
theorem stringTail_plain (hquote : b ≠ quote) (hescape : b ≠ backslash)
    (h : stringTail false text = some (body, rest)) :
    stringTail false (b :: text) = some (b :: body, rest) := by
  simp [stringTail, hquote, hescape, h]

/-- A backslash is passed with the byte after it. -/
theorem stringTail_escape (c : UInt8) (h : stringTail false text = some (body, rest)) :
    stringTail false (backslash :: c :: text) = some (backslash :: c :: body, rest) := by
  simp [stringTail, h]

lemma stringTail_of {text rest : Bytes} (h : StringTail text rest) :
    ∃ body, stringTail false text = some (body, rest) := by
  have hhex {d : UInt8} (hd : isHexDigit d = true) : d ≠ quote ∧ d ≠ backslash := by
    constructor <;> rintro rfl <;> exact absurd hd (by decide)
  induction h with
  | close => exact ⟨[quote], rfl⟩
  | plain hquote hescape _ _ ih =>
    obtain ⟨body, hbody⟩ := ih
    exact ⟨_, stringTail_plain hquote hescape hbody⟩
  | @escape c text rest _ _ ih =>
    obtain ⟨body, hbody⟩ := ih
    exact ⟨_, stringTail_escape c hbody⟩
  | @unicode h₁ h₂ h₃ h₄ text rest hdigits _ ih =>
    obtain ⟨body, hbody⟩ := ih
    have hpass {d : UInt8} (hd : d ∈ [h₁, h₂, h₃, h₄]) {text body : Bytes}
        (htext : stringTail false text = some (body, rest)) :
        stringTail false (d :: text) = some (d :: body, rest) :=
      stringTail_plain (hhex (hdigits d hd)).1 (hhex (hdigits d hd)).2 htext
    exact ⟨_, stringTail_escape lowerU (hpass (by simp) (hpass (by simp) (hpass (by simp)
      (hpass (by simp) hbody))))⟩

/-- A JSON text without brackets and without spaces around it is a scalar. -/
theorem isScalar_of_isJson (h : IsJson n token)
    (hhead : ∀ b ∈ token.head?, isSpace b = false ∧ b ≠ openBracket ∧ b ≠ openBrace)
    (hlast : ∀ b ∈ token.getLast?, isSpace b = false) : IsScalar token := by
  obtain ⟨before, value, after, hbefore, hvalue, hafter, rfl⟩ := isJson_iff.mp h
  obtain rfl : before = [] := by
    cases before with
    | nil => rfl
    | cons b before => simpa [hbefore b (by simp)] using (hhead b rfl).1
  obtain rfl : after = [] := by
    by_contra hne
    have hend := hlast (after.getLast hne) (by simp [getLast?_eq_some_getLast hne])
    simp [hafter _ (getLast_mem hne)] at hend
  rw [nil_append, append_nil] at hhead ⊢
  rcases valueText_iff.mp hvalue with hscalar | ⟨m, bracket, body, -, -, rfl⟩
  · exact hscalar
  · obtain ⟨-, hbracket, hbrace⟩ := hhead bracket.opening rfl
    cases bracket
    · exact absurd rfl hbracket
    · exact absurd rfl hbrace

lemma isJson_of_isScalar (h : IsScalar token) : IsJson n token :=
  isJson_iff.mpr ⟨[], token, [], by simp [plainLayout], valueText_iff.mpr (.inl h),
    by simp [plainLayout], by simp⟩

lemma isLiteralByte_spec (h : isLiteralByte b = true) :
    isSpace b = false ∧ b ≠ openBracket ∧ b ≠ openBrace ∧ b ≠ quote := by
  revert h
  exact Text.forall_byte (P := fun b => isLiteralByte b = true →
    isSpace b = false ∧ b ≠ openBracket ∧ b ≠ openBrace ∧ b ≠ quote) (by decide +kernel) b

lemma isLiteralByte_of_isNumber (h : IsNumber token) : ∀ b ∈ token, isLiteralByte b = true := by
  have hdigits {ds : Bytes} (hds : IsDigits ds) : ∀ d ∈ ds, isLiteralByte d = true := fun d hd => by
    simp [isLiteralByte, hds.2 d hd]
  obtain ⟨sign, integer, fraction, exponent, rfl, hsign, hinteger, hfraction, hexponent⟩ := h
  simp only [forall_mem_append]
  refine ⟨?_, ?_, ?_, ?_⟩
  · rcases hsign with rfl | rfl
    · simp
    · exact all_eq_true.mp rfl
  · rcases hinteger with rfl | ⟨hds, -⟩
    · exact all_eq_true.mp rfl
    · exact hdigits hds
  · rcases hfraction with rfl | ⟨ds, rfl, hds⟩
    · simp
    · exact forall_mem_cons.mpr ⟨by decide, hdigits hds⟩
  · rcases hexponent with rfl | ⟨e, sign, ds, rfl, he, hsign, hds⟩
    · simp
    · refine forall_mem_cons.mpr ⟨?_, forall_mem_append.mpr ⟨?_, hdigits hds⟩⟩
      · rcases he with rfl | rfl <;> decide
      · rcases hsign with rfl | rfl | rfl
        · simp
        · exact all_eq_true.mp rfl
        · exact all_eq_true.mp rfl

/-- A scalar is a string, or is made of literal bytes. -/
theorem isScalar_cases (h : IsScalar token) :
    IsString token ∨ (token ≠ [] ∧ ∀ b ∈ token, isLiteralByte b = true) := by
  rcases h with hstring | hnumber | rfl | rfl | rfl
  · exact .inl hstring
  · refine .inr ⟨?_, isLiteralByte_of_isNumber hnumber⟩
    obtain ⟨b, rest, rfl, -⟩ := hnumber.head
    simp
  · exact .inr ⟨cons_ne_nil _ _, all_eq_true.mp rfl⟩
  · exact .inr ⟨cons_ne_nil _ _, all_eq_true.mp rfl⟩
  · exact .inr ⟨cons_ne_nil _ _, all_eq_true.mp rfl⟩

lemma literal_ok_iff {start : Nat} {text token rest : Bytes} {string : Bool} :
    literal start text string = .ok (token, rest) ↔
      literalSpan start text string = .ok (token, rest) ∧ IsJson maxDepth token := by
  unfold literal
  cases literalSpan start text string with
  | error e => simp
  | ok parts =>
    obtain ⟨token', rest'⟩ := parts
    cases hcheck : checkValid token' with
    | error e =>
      have hnot : ¬ IsJson maxDepth token' := fun h => by simp [checkValid_iff.mpr h] at hcheck
      simp only [hcheck, reduceCtorEq, false_iff, not_and]
      rintro ⟨rfl, -⟩
      exact hnot
    | ok _ =>
      simp only [hcheck, iff_self_and]
      rintro ⟨rfl, -⟩
      exact checkValid_iff.mp hcheck

/-- The literal that a first byte announces is a scalar. -/
theorem literal_eq_ok {start : Nat} {text token rest : Bytes}
    (h : literal start (b :: text) (b = quote) = .ok (token, rest)) :
    IsScalar token ∧ b :: text = token ++ rest := by
  obtain ⟨hspan, hjson⟩ := literal_ok_iff.mp h
  unfold literalSpan at hspan
  by_cases hquote : b = quote
  · rw [if_pos (by simpa using hquote)] at hspan
    split at hspan <;> cases hspan
    rename_i tail rest' htail
    obtain ⟨htext, hlast⟩ := stringTail_eq_some htail
    rw [tail_cons] at htext
    have hstart : isSpace quote = false ∧ quote ≠ openBracket ∧ quote ≠ openBrace := by decide
    refine ⟨isScalar_of_isJson hjson ?_ ?_, by simp [htext]⟩
    · simpa [hquote] using hstart
    · simpa [getLast?_cons, hlast] using hstart.1
  · rw [if_neg (by simpa using hquote)] at hspan
    simp only at hspan
    split at hspan
    · cases hspan
    cases hspan
    have hbytes : ∀ c ∈ (b :: text).takeWhile isLiteralByte, isLiteralByte c = true :=
      fun c hc => mem_takeWhile_imp hc
    refine ⟨isScalar_of_isJson hjson ?_ ?_, takeWhile_append_dropWhile.symm⟩
    · intro c hc
      obtain ⟨hspace, hbracket, hbrace, -⟩ := isLiteralByte_spec (hbytes c (mem_of_mem_head? hc))
      exact ⟨hspace, hbracket, hbrace⟩
    · intro c hc
      exact (isLiteralByte_spec (hbytes c (mem_of_mem_getLast? hc))).1

/-- A scalar is read where no literal byte follows it. -/
theorem literal_append (htoken : IsScalar token) {rest : Bytes} (hrest : Stops isLiteralByte rest)
    (hb : token.head? = some b) (start : Nat) :
    literal start (token ++ rest) (b = quote) = .ok (token, rest) := by
  refine literal_ok_iff.mpr ⟨?_, isJson_of_isScalar htoken⟩
  unfold literalSpan
  rcases isScalar_cases htoken with ⟨text, rfl, htext⟩ | ⟨hne, hbytes⟩
  · obtain rfl : quote = b := by simpa using hb
    obtain ⟨body, hbody⟩ := stringTail_of (htext.append rest)
    obtain ⟨heq, -⟩ := stringTail_eq_some hbody
    obtain rfl := append_cancel_right heq
    simp [hbody]
  · have hquote : b ≠ quote := (isLiteralByte_spec (hbytes b (mem_of_mem_head? hb))).2.2.2
    have hdrop := dropWhile_append hbytes hrest
    have htake : (token ++ rest).takeWhile isLiteralByte = token := by
      have happend := takeWhile_append_dropWhile (p := isLiteralByte) (l := token ++ rest)
      rw [hdrop] at happend
      exact append_cancel_right happend
    simp only [hquote, decide_false, Bool.false_eq_true, if_false, htake, hne, hdrop]

def Scalar : Transduction UInt8 := fun raw out => IsScalar raw ∧ out = raw

/-- Before a goal that no literal byte satisfies, a scalar is what `Parser::literal` reads. -/
theorem on_scalar (hK : Refuses isLiteralByte K) {text : Bytes} (start : Nat) :
    Transduction.On Scalar K done (b :: text) ↔
      ∃ token rest, literal start (b :: text) (b = quote) = .ok (token, rest) ∧
        K (done ++ token) rest := by
  constructor
  · rintro ⟨_, token, rest, ⟨htoken, rfl⟩, htext, h⟩
    have hb : token.head? = some b := by
      obtain ⟨c, tail, rfl, -⟩ := htoken.head
      rw [head?_cons, (List.cons.inj htext).1]
    rw [htext]
    exact ⟨token, rest, literal_append htoken (hK _ _ h) hb start, h⟩
  · rintro ⟨token, rest, hliteral, h⟩
    obtain ⟨htoken, htext⟩ := literal_eq_ok hliteral
    exact ⟨token, token, rest, ⟨htoken, rfl⟩, htext, h⟩

end Headscale.Hujson
