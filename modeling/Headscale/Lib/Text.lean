import Mathlib.Data.List.Basic
import Mathlib.Data.Nat.Digits.Defs

/-!
# Text as lists of characters

The string functions that parsers and printers of network text are written with: cutting at a
separator, stripping a fixed beginning, and reading and printing numbers in a base. They are
defined by structural recursion on the characters, so that a parse of a fixed text evaluates.
-/

namespace Text

open List

/-! ## Cutting at a separator -/

/-- The text before and after the first `sep`. -/
def splitOnce (sep : Char) : List Char → Option (List Char × List Char)
  | [] => none
  | c :: cs =>
    if c = sep then some ([], cs)
    else (splitOnce sep cs).map fun parts => (c :: parts.1, parts.2)

/-- The text before and after the last `sep`. -/
def rsplitOnce (sep : Char) : List Char → Option (List Char × List Char)
  | [] => none
  | c :: cs =>
    match rsplitOnce sep cs with
    | some parts => some (c :: parts.1, parts.2)
    | none => if c = sep then some ([], cs) else none

/-- What follows `start`, when the text begins with it. -/
def stripStart : List Char → List Char → Option (List Char)
  | [], cs => some cs
  | _ :: _, [] => none
  | p :: ps, c :: cs => if p = c then stripStart ps cs else none

/-- The pieces between separators; there is always at least one. -/
def splitAll (sep : Char) : List Char → List (List Char)
  | [] => [[]]
  | c :: cs =>
    if c = sep then [] :: splitAll sep cs
    else
      match splitAll sep cs with
      | [] => [[c]]
      | piece :: rest => (c :: piece) :: rest

variable (c : Char)

/-- What precedes the last character, when it is `c`. -/
def stripLast (cs : List Char) : Option (List Char) :=
  if cs.getLast? = some c then some cs.dropLast else none

/-- `str::starts_with`. -/
def startsWith (start text : String) : Bool := (stripStart start.toList text.toList).isSome

/-- `str::strip_prefix`. -/
def stripStartStr (start text : String) : Option String :=
  (stripStart start.toList text.toList).map String.ofList

variable {before : List Char} {d b : Nat} (text : String)

/-- `str::strip_suffix` of a character. -/
def stripLastStr : Option String :=
  (stripLast c text.toList).map String.ofList

/-- `str::strip_suffix`. -/
def stripEndStr (ending text : String) : Option String :=
  (stripStart ending.toList.reverse text.toList.reverse).map fun rest => String.ofList rest.reverse

/-- `str::contains` of a character. -/
def containsChar : Bool := c ∈ text.toList

lemma stripStart_eq {start text rest : List Char} (h : stripStart start text = some rest) :
    text = start ++ rest := by
  induction start generalizing text with
  | nil => simpa [stripStart] using h
  | cons p ps ih =>
    cases text with
    | nil => simp [stripStart] at h
    | cons c cs =>
      rw [stripStart] at h
      split at h
      · rename_i hpc
        rw [hpc, ih h]
        rfl
      · cases h

lemma stripStartStr_eq {start text rest : String} (h : stripStartStr start text = some rest) :
    text = start ++ rest := by
  obtain ⟨cs, hcs, rfl⟩ := Option.map_eq_some_iff.mp h
  rw [← String.toList_inj, stripStart_eq hcs]
  simp

variable {sep : Char} {cs : List Char}

lemma splitOnce_eq_none_iff : splitOnce sep cs = none ↔ sep ∉ cs := by
  induction cs with
  | nil => simp [splitOnce]
  | cons c cs ih =>
    by_cases hc : c = sep
    · simp [splitOnce, hc]
    · simp [splitOnce, hc, ih, Ne.symm hc]

variable {after : List Char}

lemma splitOnce_append (h : sep ∉ before) :
    splitOnce sep (before ++ sep :: after) = some (before, after) := by
  induction before with
  | nil => simp [splitOnce]
  | cons c cs ih =>
    simp only [mem_cons, not_or] at h
    simp [splitOnce, Ne.symm h.1, ih h.2]

lemma rsplitOnce_eq_none_iff : rsplitOnce sep cs = none ↔ sep ∉ cs := by
  induction cs with
  | nil => simp [rsplitOnce]
  | cons c cs ih =>
    cases hr : rsplitOnce sep cs with
    | some parts =>
      have hmem : sep ∈ cs := by
        by_contra hno
        rw [ih.mpr hno] at hr
        cases hr
      simp [rsplitOnce, hr, hmem]
    | none =>
      have hno := ih.mp hr
      by_cases hc : c = sep
      · simp [rsplitOnce, hr, hc]
      · simp [rsplitOnce, hr, hc, hno, Ne.symm hc]

lemma rsplitOnce_append (h : sep ∉ after) :
    rsplitOnce sep (before ++ sep :: after) = some (before, after) := by
  induction before with
  | nil => simp [rsplitOnce, rsplitOnce_eq_none_iff.mpr h]
  | cons c cs ih => simp [rsplitOnce, ih]

/-! ## Numbers -/

/-- The value of a character as a digit of base 16, lower or upper case. -/
def hexDigit : Option Nat :=
  if '0' ≤ c ∧ c ≤ '9' then some (c.toNat - '0'.toNat)
  else if 'a' ≤ c ∧ c ≤ 'f' then some (c.toNat - 'a'.toNat + 10)
  else if 'A' ≤ c ∧ c ≤ 'F' then some (c.toNat - 'A'.toNat + 10)
  else none

/-- The value of a character as a decimal digit. -/
def decDigit : Option Nat :=
  if '0' ≤ c ∧ c ≤ '9' then some (c.toNat - '0'.toNat) else none

/-- The number written in decimal. -/
def decimal (n : Nat) : List Char := Nat.toDigits 10 n

/-- The number written in lower-case hexadecimal. -/
def hex (n : Nat) : List Char := Nat.toDigits 16 n

/-- All characters read as one decimal number; no digits at all is not a number. -/
def readDecimal (cs : List Char) : Option Nat :=
  if cs = [] then none
  else cs.foldlM (fun value c => (decDigit c).map fun d => value * 10 + d) 0

/-- An integer of a machine type with values `lo` to `hi`: an optional sign, a minus only where the
type has negative values, and decimal digits. -/
def parseInt (lo hi : Int) (cs : List Char) : Option Int :=
  let value :=
    match cs with
    | '+' :: digits => (readDecimal digits).map Int.ofNat
    | '-' :: digits => if lo < 0 then (readDecimal digits).map fun n => -Int.ofNat n else none
    | digits => (readDecimal digits).map Int.ofNat
  value.filter fun n => lo ≤ n ∧ n ≤ hi

lemma hexDigit_digitChar (h : d < 16) : hexDigit d.digitChar = some d := by
  have all : ∀ k : Fin 16, hexDigit (k : Nat).digitChar = some (k : Nat) := by decide
  exact all ⟨d, h⟩

lemma decDigit_digitChar (h : d < 10) : decDigit d.digitChar = some d := by
  have all : ∀ k : Fin 10, decDigit (k : Nat).digitChar = some (k : Nat) := by decide
  exact all ⟨d, h⟩

/-- Every character of a printed number is one of the digits of its base. -/
theorem mem_toDigits {n : Nat} (hb : 1 < b) {c : Char} (hc : c ∈ Nat.toDigits b n) :
    ∃ d < b, c = d.digitChar := by
  induction n using Nat.strong_induction_on with
  | _ n ih =>
    by_cases hlt : n < b
    · rw [Nat.toDigits_of_lt_base hlt, mem_singleton] at hc
      exact ⟨n, hlt, hc⟩
    have hle : b ≤ n := Nat.le_of_not_lt hlt
    rw [Nat.toDigits_of_base_le hb hle, mem_append, mem_singleton] at hc
    rcases hc with hc | hc
    · exact ih (n / b) (Nat.div_lt_self (by omega) hb) hc
    · exact ⟨n % b, Nat.mod_lt _ (by omega), hc⟩

variable (n : Nat)

lemma decimal_ne_nil : decimal n ≠ [] := Nat.toDigits_ne_nil

lemma hex_ne_nil : hex n ≠ [] := Nat.toDigits_ne_nil

/-- A character that is no digit does not occur in a number printed in decimal. -/
theorem not_mem_decimal {c : Char} (hc : decDigit c = none) (n : Nat) : c ∉ decimal n := by
  intro hmem
  obtain ⟨d, hd, rfl⟩ := mem_toDigits (by decide) hmem
  rw [decDigit_digitChar hd] at hc
  cases hc

lemma not_mem_hex {c : Char} (hc : hexDigit c = none) (n : Nat) : c ∉ hex n := by
  intro hmem
  obtain ⟨d, hd, rfl⟩ := mem_toDigits (by decide) hmem
  rw [hexDigit_digitChar hd] at hc
  cases hc

/-- A reader that takes one digit at a time reads a printed number back, whatever text follows and
whatever else it checks, as long as each of its single steps succeeds. -/
theorem read_toDigits {σ : Type} (hb : 1 < b) (bound : Nat) (start : List Char → σ)
    (read : Nat → List Char → σ)
    (first : ∀ d tail, d < b → d ≤ bound → start (d.digitChar :: tail) = read d tail)
    (next : ∀ n d tail, 0 < n → d < b → n * b + d ≤ bound → read n (d.digitChar :: tail) = read (n * b + d) tail)
    (n : Nat) (hn : n ≤ bound) (tail : List Char) :
    start (Nat.toDigits b n ++ tail) = read n tail := by
  -- Induction on the value: the last digit is read after the number above it.
  induction n using Nat.strong_induction_on generalizing tail with
  | _ n ih =>
    by_cases hlt : n < b
    · rw [Nat.toDigits_of_lt_base hlt]
      exact first n tail hlt hn
    have hle : b ≤ n := Nat.le_of_not_lt hlt
    have hdiv : n / b < n := Nat.div_lt_self (by omega) hb
    have hpos : 0 < n / b := Nat.div_pos hle (by omega)
    have hmod : n % b < b := Nat.mod_lt _ (by omega)
    have hsplit : n / b * b + n % b = n := Nat.div_add_mod' n b
    rw [Nat.toDigits_of_base_le hb hle, append_assoc, ih (n / b) hdiv (by omega)]
    rw [singleton_append, next (n / b) (n % b) tail hpos hmod (by omega), hsplit]

lemma decimal_injective : Function.Injective decimal := by
  intro m n h
  have hm := Nat.ofDigitChars_toDigits (b := 10) (n := m) (by decide) le_rfl
  have hn := Nat.ofDigitChars_toDigits (b := 10) (n := n) (by decide) le_rfl
  rw [← hm, ← hn]
  exact congrArg (Nat.ofDigitChars 10 · 0) h

/-! ## Bytes -/

/-- `str::as_bytes`. -/
def utf8 (cs : List Char) : List UInt8 := cs.flatMap String.utf8EncodeChar

/-- The byte of a character below 128. -/
def asciiByte : UInt8 := UInt8.ofNat c.toNat

/-- What is checked for each of the 256 bytes holds of every byte. -/
theorem forall_byte {P : UInt8 → Prop} (h : ∀ n : Fin 256, P (UInt8.ofNat n)) (byte : UInt8) :
    P byte := by
  have hbyte := h ⟨byte.toNat, byte.toNat_lt⟩
  rwa [UInt8.ofNat_toNat] at hbyte

lemma utf8_ascii (h : ∀ c ∈ cs, c.toNat < 128) : utf8 cs = cs.map asciiByte := by
  induction cs with
  | nil => rfl
  | cons c cs ih =>
    obtain ⟨hc, hcs⟩ := forall_mem_cons.mp h
    have hfirst : String.utf8EncodeChar c = [asciiByte c] := if_pos (Nat.le_of_lt_succ hc)
    rw [utf8, flatMap_cons, hfirst, map_cons, ← ih hcs]
    rfl

lemma utf8_injective : Function.Injective utf8 := by
  intro cs cs' h
  have hbytes : (String.ofList cs).toByteArray = (String.ofList cs').toByteArray := by
    exact congrArg List.toByteArray h
  exact String.ofList_injective (String.toByteArray_inj.mp hbytes)

lemma utf8_append (cs cs' : List Char) : utf8 (cs ++ cs') = utf8 cs ++ utf8 cs' :=
  flatMap_append

end Text
