import Mathlib.Data.List.TakeWhile
import Headscale.Lib.JsonText

/-!
# Reading tokens

The readers of `Cursor` for spaces, strings, numbers and words. A cursor is the text that is left, and
a reader returns what it leaves. Each reader takes a token of the grammar, and takes exactly the token
where what follows cannot prolong it.
-/

namespace Headscale.GoJson

open JsonText List

/-! ## Readers -/

/-- `Cursor::space`. -/
def dropSpace (text : Bytes) : Bytes := text.dropWhile isSpace

/-- `Cursor::take`. -/
def take (byte : UInt8) : Bytes → Option Bytes
  | [] => none
  | b :: rest => if b = byte then some rest else none

/-- The loop of `Cursor::quoted`, after the opening quote. -/
def quotedTail : Bytes → Option Bytes
  | [] => none
  | b :: rest =>
    if b = quote then some rest
    else if b = backslash then
      match rest with
      | [] => none
      | c :: rest =>
        if isShortEscape c then quotedTail rest
        else if c = lowerU then
          match rest with
          | h₁ :: h₂ :: h₃ :: h₄ :: rest =>
            if [h₁, h₂, h₃, h₄].all isHexDigit then quotedTail rest else none
          | _ => none
        else none
    else if b < 0x20 then none
    else quotedTail rest

def quoted (text : Bytes) : Option Bytes := (take quote text).bind quotedTail

/-- `Cursor::digits`. -/
def digits (text : Bytes) : Option Bytes :=
  let rest := text.dropWhile isDigit
  if rest.length = text.length then none else some rest

def numberSign : Bytes → Bytes
  | [] => []
  | b :: rest => if b = minus then rest else b :: rest

def numberInteger : Bytes → Option Bytes
  | [] => none
  | b :: rest => if b = zero then some rest else if isDigit b then digits (b :: rest) else none

def numberFraction : Bytes → Option Bytes
  | [] => some []
  | b :: rest => if b = dot then digits rest else some (b :: rest)

def exponentSign : Bytes → Bytes
  | [] => []
  | b :: rest => if b = plus ∨ b = minus then rest else b :: rest

def numberExponent : Bytes → Option Bytes
  | [] => some []
  | b :: rest =>
    if b = lowerE ∨ b = upperE then digits (exponentSign rest) else some (b :: rest)

/-- `Cursor::number`. -/
def number (text : Bytes) : Option Bytes :=
  ((numberInteger (numberSign text)).bind numberFraction).bind numberExponent

/-- `Cursor::literal`. -/
def literal (word text : Bytes) : Option Bytes :=
  if word.isPrefixOf text then some (text.drop word.length) else none

/-- The scalar that a first byte announces. -/
def scalar (text : Bytes) : Option Bytes :=
  match text with
  | [] => none
  | b :: _ =>
    if b = quote then quoted text
    else if b = minus ∨ isDigit b then number text
    else if b = lowerT then literal trueText text
    else if b = lowerF then literal falseText text
    else if b = lowerN then literal nullText text
    else none

/-! ## Spaces -/

/-- The text does not start with a byte of the kind. -/
def Stops (kind : UInt8 → Bool) (text : Bytes) : Prop := ∀ b ∈ text.head?, kind b = false

variable {text rest : Bytes} (kind : UInt8 → Bool)

@[simp] lemma stops_nil : Stops kind [] := by simp [Stops]

@[simp] lemma stops_cons {kind : UInt8 → Bool} {b : UInt8} {text : Bytes} :
    Stops kind (b :: text) ↔ kind b = false := by simp [Stops]

lemma stops_dropWhile (text : Bytes) : Stops kind (text.dropWhile kind) := by
  induction text with
  | nil => simp
  | cons b text ih =>
    rw [dropWhile_cons]
    split
    · exact ih
    · rename_i hb
      simpa using hb

/-- A run of bytes of one kind is dropped whole. -/
theorem dropWhile_append {kind : UInt8 → Bool} {run text : Bytes} (hrun : ∀ b ∈ run, kind b = true)
    (htext : Stops kind text) : (run ++ text).dropWhile kind = text := by
  rw [dropWhile_append_of_pos hrun]
  cases text with
  | nil => rfl
  | cons b text => rw [dropWhile_cons_of_neg (by simp_all)]

lemma exists_dropWhile (text : Bytes) :
    ∃ run, text = run ++ text.dropWhile kind ∧ ∀ b ∈ run, kind b = true :=
  ⟨text.takeWhile kind, (takeWhile_append_dropWhile).symm, fun _ hb => mem_takeWhile_imp hb⟩

/-! ## Strings -/

lemma stringTail_of_quotedTail (h : quotedTail text = some rest) : StringTail text rest := by
  fun_induction quotedTail text with
  | case2 rest' => exact Option.some.inj h ▸ .close
  | case4 c rest' hc _ ih => exact .escape hc (ih h)
  | case5 h₁ h₂ h₃ h₄ rest' hdigits _ _ ih => exact .unicode (by simpa using hdigits) (ih h)
  | case10 b rest' hquote hescape hcontrol ih =>
    exact .plain hquote hescape (UInt8.not_lt.mp hcontrol) (ih h)
  | _ => cases h

lemma quotedTail_iff : quotedTail text = some rest ↔ StringTail text rest := by
  refine ⟨stringTail_of_quotedTail, fun h => ?_⟩
  have hescape : backslash ≠ quote := by decide
  induction h with
  | close =>
    unfold quotedTail
    rw [if_pos rfl]
  | plain hquote hescape hcontrol _ ih =>
    unfold quotedTail
    rw [if_neg hquote, if_neg hescape, if_neg (UInt8.not_lt.mpr hcontrol), ih]
  | escape hc _ ih =>
    unfold quotedTail
    rw [if_neg hescape, if_pos rfl]
    simp only [hc, if_true, ih]
  | unicode hdigits _ ih =>
    have hall := all_eq_true.mpr hdigits
    have hshort : ¬ isShortEscape lowerU = true := by decide
    unfold quotedTail
    rw [if_neg hescape, if_pos rfl]
    simp only [hall, if_true, ih]
    rw [if_neg hshort]

lemma quoted_iff :
    quoted text = some rest ↔ ∃ literal, IsString literal ∧ text = literal ++ rest := by
  constructor
  · intro h
    obtain ⟨tail, htake, htail⟩ := Option.bind_eq_some_iff.mp h
    obtain ⟨body, rfl, hbody⟩ := (quotedTail_iff.mp htail).split
    cases text with
    | nil => cases htake
    | cons b text =>
      simp only [take, Option.ite_none_right_eq_some, Option.some.injEq] at htake
      obtain ⟨rfl, rfl⟩ := htake
      exact ⟨quote :: body, ⟨body, rfl, hbody⟩, rfl⟩
  · rintro ⟨_, ⟨body, rfl, hbody⟩, rfl⟩
    exact quotedTail_iff.mpr (hbody.append rest)

/-! ## Numbers -/

lemma digits_eq_some (h : digits text = some rest) : ∃ ds, IsDigits ds ∧ text = ds ++ rest := by
  obtain ⟨ds, hds, hdigit⟩ := exists_dropWhile isDigit text
  simp only [digits, Option.ite_none_left_eq_some, Option.some.injEq] at h
  obtain ⟨hlength, rfl⟩ := h
  refine ⟨ds, ⟨?_, hdigit⟩, hds⟩
  rintro rfl
  exact hlength (congrArg List.length hds).symm

lemma digits_cons {b : UInt8} {rest : Bytes} (hb : isDigit b = true) :
    digits (b :: rest) = some (rest.dropWhile isDigit) := by
  have hshorter := length_dropWhile_le isDigit rest
  simp only [digits, dropWhile_cons_of_pos hb, length_cons]
  rw [if_neg (by omega)]

lemma digits_append {ds rest : Bytes} (hds : IsDigits ds) (hrest : Stops isDigit rest) :
    digits (ds ++ rest) = some rest := by
  have hpos := length_pos_of_ne_nil hds.1
  simp only [digits, dropWhile_append hds.2 hrest, length_append]
  rw [if_neg (by omega)]

/-- The bytes that a number can go on with. -/
def isNumberByte (b : UInt8) : Bool :=
  isDigit b ∨ b = dot ∨ b = lowerE ∨ b = upperE ∨ b = plus ∨ b = minus

lemma stops_isDigit {rest : Bytes} (h : Stops isNumberByte rest) : Stops isDigit rest := by
  cases rest with
  | nil => simp
  | cons b rest =>
    simp_all [isNumberByte]

lemma numberSign_split (text : Bytes) : ∃ sign, IsSign sign ∧ text = sign ++ numberSign text := by
  cases text with
  | nil => exact ⟨[], .inl rfl, rfl⟩
  | cons b rest =>
    by_cases hb : b = minus
    · exact ⟨[minus], .inr rfl, by simp [numberSign, hb]⟩
    · exact ⟨[], .inl rfl, by simp [numberSign, hb]⟩

lemma numberInteger_eq_some (h : numberInteger text = some rest) :
    ∃ integer, IsInteger integer ∧ text = integer ++ rest := by
  cases text with
  | nil => cases h
  | cons b text =>
    rw [numberInteger] at h
    by_cases hzero : b = zero
    · rw [if_pos hzero] at h
      exact ⟨[zero], .inl rfl, by simp [hzero, Option.some.inj h]⟩
    rw [if_neg hzero] at h
    obtain ⟨-, hdigits⟩ := Option.ite_none_right_eq_some.mp h
    obtain ⟨ds, hds, htext⟩ := digits_eq_some hdigits
    refine ⟨ds, .inr ⟨hds, ?_⟩, htext⟩
    cases ds with
    | nil => exact absurd rfl hds.1
    | cons d ds => simpa [← (List.cons.inj htext).1] using hzero

lemma numberInteger_append {integer rest : Bytes} (h : IsInteger integer)
    (hrest : Stops isDigit rest) : numberInteger (integer ++ rest) = some rest := by
  rcases h with rfl | ⟨hds, hzero⟩
  · simp [numberInteger]
  · cases integer with
    | nil => exact absurd rfl hds.1
    | cons d ds =>
      rw [cons_append, numberInteger, if_neg (by simpa using hzero),
        if_pos (hds.2 d (by simp)), ← cons_append, digits_append hds hrest]

lemma numberFraction_eq_some (h : numberFraction text = some rest) :
    ∃ fraction, IsFraction fraction ∧ text = fraction ++ rest := by
  cases text with
  | nil => exact ⟨[], .inl rfl, Option.some.inj h⟩
  | cons b text =>
    rw [numberFraction] at h
    by_cases hb : b = dot
    · rw [if_pos hb] at h
      obtain ⟨ds, hds, rfl⟩ := digits_eq_some h
      exact ⟨dot :: ds, .inr ⟨ds, rfl, hds⟩, by simp [hb]⟩
    · rw [if_neg hb] at h
      exact ⟨[], .inl rfl, Option.some.inj h⟩

lemma numberFraction_append {fraction rest : Bytes} (h : IsFraction fraction)
    (hdigit : Stops isDigit rest) (hdot : Stops (· = dot) rest) :
    numberFraction (fraction ++ rest) = some rest := by
  rcases h with rfl | ⟨ds, rfl, hds⟩
  · cases rest with
    | nil => rfl
    | cons b rest => rw [nil_append, numberFraction, if_neg (by simpa using hdot)]
  · rw [cons_append, numberFraction, if_pos rfl, digits_append hds hdigit]

lemma exponentSign_split (text : Bytes) :
    ∃ sign, (sign = [] ∨ sign = [plus] ∨ sign = [minus]) ∧ text = sign ++ exponentSign text := by
  cases text with
  | nil => exact ⟨[], .inl rfl, rfl⟩
  | cons b rest =>
    by_cases hb : b = plus ∨ b = minus
    · refine ⟨[b], ?_, by simp [exponentSign, hb]⟩
      rcases hb with rfl | rfl
      · exact .inr (.inl rfl)
      · exact .inr (.inr rfl)
    · exact ⟨[], .inl rfl, by simp [exponentSign, hb]⟩

lemma exponentSign_append {sign ds : Bytes} (hsign : sign = [] ∨ sign = [plus] ∨ sign = [minus])
    (hds : IsDigits ds) (rest : Bytes) : exponentSign (sign ++ (ds ++ rest)) = ds ++ rest := by
  rcases hsign with rfl | rfl | rfl
  · cases ds with
    | nil => exact absurd rfl hds.1
    | cons d ds =>
      have hd := hds.2 d (by simp)
      have hplus : d ≠ plus := by
        rintro rfl
        exact absurd hd (by decide)
      have hminus : d ≠ minus := by
        rintro rfl
        exact absurd hd (by decide)
      simp [exponentSign, hplus, hminus]
  · simp [exponentSign]
  · simp [exponentSign]

lemma numberExponent_eq_some (h : numberExponent text = some rest) :
    ∃ exponent, IsExponent exponent ∧ text = exponent ++ rest := by
  cases text with
  | nil => exact ⟨[], .inl rfl, Option.some.inj h⟩
  | cons b text =>
    rw [numberExponent] at h
    by_cases hb : b = lowerE ∨ b = upperE
    · rw [if_pos hb] at h
      obtain ⟨sign, hsign, htext⟩ := exponentSign_split text
      obtain ⟨ds, hds, hdigits⟩ := digits_eq_some h
      refine ⟨b :: (sign ++ ds), .inr ⟨b, sign, ds, rfl, hb, hsign, hds⟩, ?_⟩
      rw [htext, hdigits]
      simp
    · rw [if_neg hb] at h
      exact ⟨[], .inl rfl, Option.some.inj h⟩

lemma numberExponent_append {exponent rest : Bytes} (h : IsExponent exponent)
    (hrest : Stops isNumberByte rest) : numberExponent (exponent ++ rest) = some rest := by
  rcases h with rfl | ⟨e, sign, ds, rfl, he, hsign, hds⟩
  · cases rest with
    | nil => rfl
    | cons b rest =>
      have hb := stops_cons.mp hrest
      have hexp : ¬ (b = lowerE ∨ b = upperE) := by
        rintro (rfl | rfl) <;> exact absurd hb (by decide)
      rw [nil_append, numberExponent, if_neg hexp]
  · rw [cons_append, numberExponent, if_pos he, append_assoc,
      exponentSign_append hsign hds, digits_append hds (stops_isDigit hrest)]

lemma number_eq_some (h : number text = some rest) :
    ∃ literal, IsNumber literal ∧ text = literal ++ rest := by
  obtain ⟨afterFraction, h, hexponent⟩ := Option.bind_eq_some_iff.mp h
  obtain ⟨afterInteger, h, hfraction⟩ := Option.bind_eq_some_iff.mp h
  obtain ⟨sign, hsign, htext⟩ := numberSign_split text
  obtain ⟨integer, hinteger, hsigned⟩ := numberInteger_eq_some h
  obtain ⟨fraction, hfrac, rfl⟩ := numberFraction_eq_some hfraction
  obtain ⟨exponent, hexp, rfl⟩ := numberExponent_eq_some hexponent
  refine ⟨sign ++ (integer ++ (fraction ++ exponent)),
    ⟨sign, integer, fraction, exponent, rfl, hsign, hinteger, hfrac, hexp⟩, ?_⟩
  rw [htext, hsigned]
  simp

lemma numberSign_append {sign integer : Bytes} (hsign : IsSign sign) (hinteger : IsInteger integer)
    (rest : Bytes) : numberSign (sign ++ (integer ++ rest)) = integer ++ rest := by
  obtain ⟨d, ds, rfl, hd⟩ := hinteger.head
  have hminus : d ≠ minus := by
    rintro rfl
    exact absurd hd (by decide)
  rcases hsign with rfl | rfl
  · simp [numberSign, hminus]
  · simp [numberSign]

lemma number_append {literal rest : Bytes} (hliteral : IsNumber literal)
    (hrest : Stops isNumberByte rest) : number (literal ++ rest) = some rest := by
  obtain ⟨sign, integer, fraction, exponent, rfl, hsign, hinteger, hfraction, hexponent⟩ := hliteral
  -- what follows the integer and the fraction cannot be read as a part of them
  have hexpStops : Stops isDigit (exponent ++ rest) ∧ Stops (· = dot) (exponent ++ rest) := by
    rcases hexponent with rfl | ⟨e, _, _, rfl, rfl | rfl, -⟩
    · refine ⟨stops_isDigit hrest, ?_⟩
      cases rest with
      | nil => simp
      | cons b rest =>
        have hb := stops_cons.mp hrest
        simp only [nil_append, stops_cons, decide_eq_false_iff_not]
        rintro rfl
        exact absurd hb (by decide)
    · exact ⟨stops_cons.mpr (by decide), stops_cons.mpr (by decide)⟩
    · exact ⟨stops_cons.mpr (by decide), stops_cons.mpr (by decide)⟩
  have hfracStops : Stops isDigit (fraction ++ (exponent ++ rest)) := by
    rcases hfraction with rfl | ⟨_, rfl, -⟩
    · exact hexpStops.1
    · exact stops_cons.mpr (by decide)
  simp only [number, append_assoc]
  rw [numberSign_append hsign hinteger, numberInteger_append hinteger hfracStops, Option.bind_some,
    numberFraction_append hfraction hexpStops.1 hexpStops.2, Option.bind_some,
    numberExponent_append hexponent hrest]

/-! ## Words and scalars -/

lemma literal_iff {word text rest : Bytes} : literal word text = some rest ↔ text = word ++ rest := by
  rw [literal, Option.ite_none_right_eq_some, isPrefixOf_iff_prefix]
  constructor
  · rintro ⟨⟨tail, rfl⟩, h⟩
    rw [drop_left] at h
    rw [Option.some.inj h]
  · rintro rfl
    exact ⟨prefix_append _ _, by rw [drop_left]⟩

lemma scalar_eq_some (h : scalar text = some rest) :
    ∃ token, IsScalar token ∧ text = token ++ rest := by
  cases text with
  | nil => cases h
  | cons b text =>
    simp only [scalar] at h
    split at h
    · obtain ⟨token, htoken, heq⟩ := quoted_iff.mp h
      exact ⟨token, .inl htoken, heq⟩
    split at h
    · obtain ⟨token, htoken, heq⟩ := number_eq_some h
      exact ⟨token, .inr (.inl htoken), heq⟩
    split at h
    · exact ⟨trueText, by simp [IsScalar], literal_iff.mp h⟩
    split at h
    · exact ⟨falseText, by simp [IsScalar], literal_iff.mp h⟩
    · obtain ⟨-, h⟩ := Option.ite_none_right_eq_some.mp h
      exact ⟨nullText, by simp [IsScalar], literal_iff.mp h⟩

lemma scalar_append {token rest : Bytes} (htoken : IsScalar token)
    (hrest : Stops isNumberByte rest) : scalar (token ++ rest) = some rest := by
  rcases htoken with hstring | hnumber | rfl | rfl | rfl
  · have hquoted : quoted (token ++ rest) = some rest := quoted_iff.mpr ⟨token, hstring, rfl⟩
    obtain ⟨body, rfl, -⟩ := hstring
    simpa [scalar] using hquoted
  · have hread := number_append hnumber hrest
    obtain ⟨b, tail, rfl, hb⟩ := hnumber.head
    have hquote : b ≠ quote := by
      rintro rfl
      exact absurd hb (by decide)
    simp only [cons_append, scalar] at hread ⊢
    rw [if_neg hquote, if_pos hb, hread]
  · exact (show scalar (trueText ++ rest) = literal trueText (trueText ++ rest) from rfl).trans
      (literal_iff.mpr rfl)
  · exact (show scalar (falseText ++ rest) = literal falseText (falseText ++ rest) from rfl).trans
      (literal_iff.mpr rfl)
  · exact (show scalar (nullText ++ rest) = literal nullText (nullText ++ rest) from rfl).trans
      (literal_iff.mpr rfl)

end Headscale.GoJson
