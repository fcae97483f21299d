import Headscale.Lib.Text

/-!
# JSON texts

The grammar of JSON over bytes. Scalars are given by what their bytes are; containers are trees that
keep their layout, that is, the gaps between tokens. A layout says what a gap may be and whether a comma
may stand before a closing bracket, so that dialects of the grammar share their trees. The bytes of
strings are not required to be UTF-8.
-/

namespace JsonText

abbrev Bytes := List UInt8

/-! ## Bytes -/

abbrev tab : UInt8 := 0x09
abbrev lineFeed : UInt8 := 0x0a
abbrev carriageReturn : UInt8 := 0x0d
abbrev blank : UInt8 := 0x20
abbrev quote : UInt8 := 0x22
abbrev star : UInt8 := 0x2a
abbrev plus : UInt8 := 0x2b
abbrev comma : UInt8 := 0x2c
abbrev minus : UInt8 := 0x2d
abbrev dot : UInt8 := 0x2e
abbrev slash : UInt8 := 0x2f
abbrev zero : UInt8 := 0x30
abbrev colon : UInt8 := 0x3a
abbrev upperE : UInt8 := 0x45
abbrev openBracket : UInt8 := 0x5b
abbrev backslash : UInt8 := 0x5c
abbrev closeBracket : UInt8 := 0x5d
abbrev lowerE : UInt8 := 0x65
abbrev lowerF : UInt8 := 0x66
abbrev lowerN : UInt8 := 0x6e
abbrev lowerT : UInt8 := 0x74
abbrev lowerU : UInt8 := 0x75
abbrev openBrace : UInt8 := 0x7b
abbrev closeBrace : UInt8 := 0x7d

def isSpace (b : UInt8) : Bool := b = blank ∨ b = tab ∨ b = lineFeed ∨ b = carriageReturn

def isDigit (b : UInt8) : Bool := zero ≤ b ∧ b ≤ 0x39

def isHexDigit (b : UInt8) : Bool := isDigit b ∨ (0x61 ≤ b ∧ b ≤ 0x66) ∨ (0x41 ≤ b ∧ b ≤ 0x46)

/-- The characters that stand for one character after a backslash. -/
def isShortEscape (b : UInt8) : Bool :=
  b = quote ∨ b = backslash ∨ b = slash ∨ b = 0x62 ∨ b = 0x66 ∨ b = 0x6e ∨ b = 0x72 ∨ b = 0x74

/-! ## Strings -/

/-- The text goes on after an opening quote, and `rest` is what follows the closing one. -/
inductive StringTail : Bytes → Bytes → Prop where
  | close {rest : Bytes} : StringTail (quote :: rest) rest
  | plain {b : UInt8} {text rest : Bytes} (hquote : b ≠ quote) (hescape : b ≠ backslash)
      (hcontrol : 0x20 ≤ b) (h : StringTail text rest) : StringTail (b :: text) rest
  | escape {c : UInt8} {text rest : Bytes} (hc : isShortEscape c = true)
      (h : StringTail text rest) : StringTail (backslash :: c :: text) rest
  | unicode {h₁ h₂ h₃ h₄ : UInt8} {text rest : Bytes}
      (hdigits : ∀ d ∈ [h₁, h₂, h₃, h₄], isHexDigit d = true) (h : StringTail text rest) :
      StringTail (backslash :: lowerU :: h₁ :: h₂ :: h₃ :: h₄ :: text) rest

def IsString (literal : Bytes) : Prop := ∃ text, literal = quote :: text ∧ StringTail text []

lemma StringTail.append {text rest : Bytes} (h : StringTail text rest) (more : Bytes) :
    StringTail (text ++ more) (rest ++ more) := by
  induction h with
  | close => exact .close
  | plain hquote hescape hcontrol _ ih => exact .plain hquote hescape hcontrol ih
  | escape hc _ ih => exact .escape hc ih
  | unicode hdigits _ ih => exact .unicode hdigits ih

/-- A tail is the body of a string literal before what follows it. -/
theorem StringTail.split {text rest : Bytes} (h : StringTail text rest) :
    ∃ body, text = body ++ rest ∧ StringTail body [] := by
  induction h with
  | close => exact ⟨[quote], rfl, .close⟩
  | @plain b text rest hquote hescape hcontrol _ ih =>
    obtain ⟨body, rfl, hbody⟩ := ih
    exact ⟨b :: body, rfl, .plain hquote hescape hcontrol hbody⟩
  | @escape c text rest hc _ ih =>
    obtain ⟨body, rfl, hbody⟩ := ih
    exact ⟨backslash :: c :: body, rfl, .escape hc hbody⟩
  | @unicode h₁ h₂ h₃ h₄ text rest hdigits _ ih =>
    obtain ⟨body, rfl, hbody⟩ := ih
    exact ⟨backslash :: lowerU :: h₁ :: h₂ :: h₃ :: h₄ :: body, rfl, .unicode hdigits hbody⟩

/-! ## Numbers -/

def IsDigits (digits : Bytes) : Prop := digits ≠ [] ∧ ∀ d ∈ digits, isDigit d = true

def IsSign (sign : Bytes) : Prop := sign = [] ∨ sign = [minus]

/-- Zero, or digits of which the first is not zero. -/
def IsInteger (digits : Bytes) : Prop :=
  digits = [zero] ∨ (IsDigits digits ∧ digits.head? ≠ some zero)

def IsFraction (fraction : Bytes) : Prop :=
  fraction = [] ∨ ∃ digits, fraction = dot :: digits ∧ IsDigits digits

def IsExponent (exponent : Bytes) : Prop :=
  exponent = [] ∨ ∃ e sign digits, exponent = e :: (sign ++ digits) ∧ (e = lowerE ∨ e = upperE) ∧
    (sign = [] ∨ sign = [plus] ∨ sign = [minus]) ∧ IsDigits digits

def IsNumber (literal : Bytes) : Prop :=
  ∃ sign integer fraction exponent, literal = sign ++ (integer ++ (fraction ++ exponent)) ∧
    IsSign sign ∧ IsInteger integer ∧ IsFraction fraction ∧ IsExponent exponent

/-! ## Scalars -/

def trueText : Bytes := [lowerT, 0x72, lowerU, lowerE]

def falseText : Bytes := [lowerF, 0x61, 0x6c, 0x73, lowerE]

def nullText : Bytes := [lowerN, lowerU, 0x6c, 0x6c]

def IsScalar (text : Bytes) : Prop :=
  IsString text ∨ IsNumber text ∨ text = trueText ∨ text = falseText ∨ text = nullText

/-! ## Containers -/

inductive Bracket where
  | array
  | object
deriving DecidableEq, Repr

def Bracket.opening : Bracket → UInt8
  | .array => openBracket
  | .object => openBrace

def Bracket.closing : Bracket → UInt8
  | .array => closeBracket
  | .object => closeBrace

/-- The name of a member, with the gaps around it. -/
structure Key where
  before : Bytes
  name : Bytes
  after : Bytes

mutual

/-- A value with the layout inside it. -/
inductive Tree where
  | scalar (text : Bytes)
  | node (bracket : Bracket) (body : Body)

/-- What stands after an opening bracket or a comma: the closing bracket, or an entry that is the last
one or is followed by a comma. -/
inductive Body where
  | close (gap : Bytes)
  | last (key : Option Key) (before : Bytes) (value : Tree) (after : Bytes)
  | more (key : Option Key) (before : Bytes) (value : Tree) (after : Bytes) (rest : Body)

end

def Key.text (key : Key) : Bytes := key.before ++ (key.name ++ (key.after ++ [colon]))

/-- The name of an entry up to its colon; entries of arrays have none. -/
def keyText : Option Key → Bytes
  | none => []
  | some key => key.text

mutual

def Tree.text : Tree → Bytes
  | .scalar text => text
  | .node bracket body => bracket.opening :: body.text bracket

/-- The text of a body up to its closing bracket. -/
def Body.text (bracket : Bracket) : Body → Bytes
  | .close gap => gap ++ [bracket.closing]
  | .last key before value after =>
    keyText key ++ (before ++ (value.text ++ (after ++ [bracket.closing])))
  | .more key before value after rest =>
    keyText key ++ (before ++ (value.text ++ (after ++ comma :: rest.text bracket)))

end

mutual

/-- How many containers are open at most. -/
def Tree.depth : Tree → Nat
  | .scalar _ => 0
  | .node _ body => body.depth + 1

def Body.depth : Body → Nat
  | .close _ => 0
  | .last _ _ value _ => value.depth
  | .more _ _ value _ rest => max value.depth rest.depth

end

/-! ## Layouts -/

/-- What a gap between tokens may be, and whether a comma may stand before a closing bracket. -/
structure Layout where
  Gap : Bytes → Prop
  trailingComma : Prop

/-- JSON itself: gaps are spaces. -/
def plainLayout : Layout where
  Gap gap := ∀ b ∈ gap, isSpace b = true
  trailingComma := False

/-- Members of objects have names, entries of arrays do not. -/
def KeyFits (layout : Layout) : Bracket → Option Key → Prop
  | .array, none => True
  | .object, some key => layout.Gap key.before ∧ IsString key.name ∧ layout.Gap key.after
  | _, _ => False

mutual

def Tree.Fits (layout : Layout) : Tree → Prop
  | .scalar text => IsScalar text
  | .node bracket body => body.Fits layout bracket True

/-- The body follows the opening bracket when `first` holds, and a comma otherwise. -/
def Body.Fits (layout : Layout) (bracket : Bracket) (first : Prop) : Body → Prop
  | .close gap => layout.Gap gap ∧ (first ∨ layout.trailingComma)
  | .last key before value after =>
    KeyFits layout bracket key ∧ layout.Gap before ∧ value.Fits layout ∧ layout.Gap after
  | .more key before value after rest =>
    KeyFits layout bracket key ∧ layout.Gap before ∧ value.Fits layout ∧ layout.Gap after ∧
      rest.Fits layout bracket False

end

/-- A value with gaps around it. -/
structure Document (layout : Layout) where
  before : Bytes
  tree : Tree
  after : Bytes
  gapBefore : layout.Gap before
  fits : tree.Fits layout
  gapAfter : layout.Gap after

def Document.text {layout : Layout} (doc : Document layout) : Bytes :=
  doc.before ++ (doc.tree.text ++ doc.after)

/-- The bytes are a JSON text of at most the given nesting depth. -/
def IsJson (depth : Nat) (bytes : Bytes) : Prop :=
  ∃ doc : Document plainLayout, doc.text = bytes ∧ doc.tree.depth ≤ depth

/-! ## First bytes -/

/-- The bytes that a value starts with. -/
def isValueStart (b : UInt8) : Bool :=
  b = quote ∨ b = minus ∨ isDigit b ∨ b = lowerT ∨ b = lowerF ∨ b = lowerN ∨ b = openBracket ∨
    b = openBrace

lemma IsInteger.head {digits : Bytes} (h : IsInteger digits) :
    ∃ d rest, digits = d :: rest ∧ isDigit d = true := by
  rcases h with rfl | ⟨hdigits, -⟩
  · exact ⟨zero, [], rfl, by decide⟩
  · cases digits with
    | nil => exact absurd rfl hdigits.1
    | cons d rest => exact ⟨d, rest, rfl, hdigits.2 d (by simp)⟩

lemma IsNumber.head {literal : Bytes} (h : IsNumber literal) :
    ∃ b rest, literal = b :: rest ∧ (b = minus ∨ isDigit b = true) := by
  obtain ⟨sign, integer, fraction, exponent, rfl, hsign, hinteger, -, -⟩ := h
  obtain ⟨d, ds, rfl, hd⟩ := hinteger.head
  rcases hsign with rfl | rfl
  · exact ⟨d, _, rfl, .inr hd⟩
  · exact ⟨minus, _, rfl, .inl rfl⟩

lemma IsScalar.head {text : Bytes} (h : IsScalar text) :
    ∃ b rest, text = b :: rest ∧ isValueStart b = true ∧ b ≠ openBracket ∧ b ≠ openBrace := by
  rcases h with ⟨_, rfl, -⟩ | hnumber | rfl | rfl | rfl
  · exact ⟨quote, _, rfl, by decide⟩
  · obtain ⟨b, rest, rfl, hb⟩ := hnumber.head
    refine ⟨b, rest, rfl, ?_, ?_, ?_⟩
    · rcases hb with rfl | hdigit
      · decide
      · simp [isValueStart, hdigit]
    · rintro rfl
      exact absurd hb (by decide)
    · rintro rfl
      exact absurd hb (by decide)
  · exact ⟨lowerT, _, rfl, by decide⟩
  · exact ⟨lowerF, _, rfl, by decide⟩
  · exact ⟨lowerN, _, rfl, by decide⟩

/-- A value starts neither with a space nor with punctuation that follows a value. -/
theorem isValueStart_spec {b : UInt8} (h : isValueStart b = true) :
    isSpace b = false ∧ b ≠ comma ∧ b ≠ colon ∧ b ≠ closeBracket ∧ b ≠ closeBrace := by
  revert h
  exact Text.forall_byte (P := fun b => isValueStart b = true → isSpace b = false ∧ b ≠ comma ∧
    b ≠ colon ∧ b ≠ closeBracket ∧ b ≠ closeBrace) (by decide +kernel) b

/-! ## Productions

The texts of trees, without the trees: how a value, a body and what follows an entry are made of each
other. -/

section Productions

variable (layout : Layout) (n : Nat)

/-- The bytes are a value of at most the given depth. -/
def ValueText (text : Bytes) : Prop :=
  ∃ value : Tree, value.Fits layout ∧ value.depth ≤ n ∧ value.text = text

/-- The bytes end a container, from its opening bracket or from a comma on. -/
def BodyText (bracket : Bracket) (first : Prop) (text : Bytes) : Prop :=
  ∃ body : Body, body.Fits layout bracket first ∧ body.depth ≤ n ∧ body.text bracket = text

/-- The bytes end a container after an entry. -/
def TailText (bracket : Bracket) (text : Bytes) : Prop :=
  ∃ gap, layout.Gap gap ∧ (text = gap ++ [bracket.closing] ∨
    ∃ body, BodyText layout n bracket False body ∧ text = gap ++ comma :: body)

variable {layout n} {text : Bytes}

lemma valueText_iff : ValueText layout n text ↔ IsScalar text ∨
    ∃ m bracket body, n = m + 1 ∧ BodyText layout m bracket True body ∧
      text = bracket.opening :: body := by
  constructor
  · rintro ⟨value, hfits, hdepth, rfl⟩
    cases value with
    | scalar text => exact .inl hfits
    | node bracket body =>
      cases n with
      | zero => simp [Tree.depth] at hdepth
      | succ m =>
        have hbody : body.depth ≤ m := by simpa [Tree.depth] using hdepth
        exact .inr ⟨m, bracket, _, rfl, ⟨body, hfits, hbody, rfl⟩, rfl⟩
  · rintro (hscalar | ⟨m, bracket, _, rfl, ⟨body, hfits, hdepth, rfl⟩, rfl⟩)
    · exact ⟨.scalar text, hscalar, Nat.zero_le _, rfl⟩
    · exact ⟨.node bracket body, hfits, by simpa [Tree.depth] using hdepth, rfl⟩

lemma ValueText.head (h : ValueText layout n text) :
    ∃ b rest, text = b :: rest ∧ isValueStart b = true := by
  rcases valueText_iff.mp h with hscalar | ⟨m, bracket, body, -, -, rfl⟩
  · obtain ⟨b, rest, rfl, hb, -⟩ := hscalar.head
    exact ⟨b, rest, rfl, hb⟩
  · cases bracket
    · exact ⟨openBracket, body, rfl, by decide⟩
    · exact ⟨openBrace, body, rfl, by decide⟩

lemma bodyText_iff {bracket : Bracket} {first : Prop} :
    BodyText layout n bracket first text ↔
      (∃ gap, layout.Gap gap ∧ (first ∨ layout.trailingComma) ∧ text = gap ++ [bracket.closing]) ∨
      ∃ key before value tail, KeyFits layout bracket key ∧ layout.Gap before ∧
        ValueText layout n value ∧ TailText layout n bracket tail ∧
        text = keyText key ++ (before ++ (value ++ tail)) := by
  constructor
  · rintro ⟨body, hfits, hdepth, rfl⟩
    cases body with
    | close gap => exact .inl ⟨gap, hfits.1, hfits.2, rfl⟩
    | last key before value after =>
      obtain ⟨hkey, hbefore, hvalue, hafter⟩ := hfits
      exact .inr ⟨key, before, _, _, hkey, hbefore, ⟨value, hvalue, hdepth, rfl⟩,
        ⟨after, hafter, .inl rfl⟩, rfl⟩
    | more key before value after rest =>
      obtain ⟨hkey, hbefore, hvalue, hafter, hrest⟩ := hfits
      obtain ⟨hvalueDepth, hrestDepth⟩ := max_le_iff.mp hdepth
      exact .inr ⟨key, before, _, _, hkey, hbefore, ⟨value, hvalue, hvalueDepth, rfl⟩,
        ⟨after, hafter, .inr ⟨_, ⟨rest, hrest, hrestDepth, rfl⟩, rfl⟩⟩, rfl⟩
  · rintro (⟨gap, hgap, hfirst, rfl⟩ | ⟨key, before, _, _, hkey, hbefore, ⟨value, hvalue, hdepth, rfl⟩,
      ⟨after, hafter, rfl | ⟨_, ⟨rest, hrest, hrestDepth, rfl⟩, rfl⟩⟩, rfl⟩)
    · exact ⟨.close gap, ⟨hgap, hfirst⟩, Nat.zero_le _, rfl⟩
    · exact ⟨.last key before value after, ⟨hkey, hbefore, hvalue, hafter⟩, hdepth, rfl⟩
    · exact ⟨.more key before value after rest, ⟨hkey, hbefore, hvalue, hafter, hrest⟩,
        max_le hdepth hrestDepth, rfl⟩

lemma isJson_iff {bytes : Bytes} : IsJson n bytes ↔
    ∃ before value after, plainLayout.Gap before ∧ ValueText plainLayout n value ∧
      plainLayout.Gap after ∧ bytes = before ++ (value ++ after) := by
  constructor
  · rintro ⟨⟨before, tree, after, hbefore, hfits, hafter⟩, rfl, hdepth⟩
    exact ⟨before, _, after, hbefore, ⟨tree, hfits, hdepth, rfl⟩, hafter, rfl⟩
  · rintro ⟨before, _, after, hbefore, ⟨tree, hfits, hdepth, rfl⟩, hafter, rfl⟩
    exact ⟨⟨before, tree, after, hbefore, hfits, hafter⟩, rfl, hdepth⟩

end Productions

end JsonText
