import Headscale.Hujson.Grammar

/-!
# `standardize`

The parser keeps its open work as a stack of tasks instead of recursing, and writes the standard text
as it goes. A comma is written as it is, and only a closing bracket that follows puts a blank in its
place. What the tasks still want is a composition of the transductions of the grammar, so a run of the
parser is the standard form of a document, and fails on every other text.
-/

namespace Headscale.Hujson

open JsonText GoJson Transduction List

/-! ## The parser -/

inductive Task where
  | value (name : Bool)
  | finish (start : Nat) (kind : UInt8) (name : Bool)
  | next (bracket : Bracket) (comma : Option Nat)
  | objectColon
  | after (bracket : Bracket)
  | finished

/-- The tasks, the one to do next first; the output up to the cursor; and the text from there on, which
the output still has unchanged. -/
structure Parser where
  tasks : List Task
  done : Bytes
  rest : Bytes

/-- The literal or the opening bracket of a value. -/
def startValue (name : Bool) (tasks : List Task) (done : Bytes) (rest : Bytes) :
    Except ParseError Parser :=
  match rest with
  | [] => .error ⟨done.length, .message "parsing value: unexpected EOF"⟩
  | kind :: after =>
    let tasks := .finish done.length kind name :: tasks
    if kind = openBrace then .ok ⟨.next .object none :: tasks, done ++ [kind], after⟩
    else if kind = openBracket then .ok ⟨.next .array none :: tasks, done ++ [kind], after⟩
    else if kind = closeBrace ∨ kind = closeBracket then
      .error ⟨done.length, .invalidCharacter "at start of value"⟩
    else
      match literal done.length (kind :: after) (kind = quote) with
      | .error e => .error e
      | .ok (token, rest) => .ok ⟨tasks, done ++ token, rest⟩

/-- The comma that a closing bracket makes a blank of. -/
def clearComma (comma : Option Nat) (done : Bytes) : Bytes :=
  match comma with
  | some index => done.set index blank
  | none => done

/-- The tasks of the next entry of a container. -/
def entryTasks : Bracket → List Task
  | .object => [.value true, .objectColon]
  | .array => [.value false, .after .array]

def afterValue : Bracket → String
  | .object => "object"
  | .array => "array"

def expecting : Bracket → String
  | .object => "(expecting ',' or '\x7d')"
  | .array => "(expecting ',' or ']')"

/-- One task of the loop in `standardize`. -/
def runTask (task : Task) (tasks : List Task) (done rest : Bytes) : Except ParseError Parser :=
  match task with
  | .value name =>
    match extra done.length rest with
    | .error e => .error e
    | .ok (gap, rest) => startValue name tasks (done ++ blanked gap) rest
  | .finish start kind name =>
    match extra done.length rest with
    | .error e => .error e
    | .ok (gap, rest) =>
      if name ∧ kind ≠ quote then .error ⟨start, .invalidCharacter "at start of object name"⟩
      else .ok ⟨tasks, done ++ blanked gap, rest⟩
  | .next bracket comma =>
    match extra done.length rest with
    | .error e => .error e
    | .ok (gap, rest) =>
      let done := done ++ blanked gap
      if rest.head? = some bracket.closing then
        .ok ⟨tasks, clearComma comma done ++ [bracket.closing], rest.tail⟩
      else .ok ⟨entryTasks bracket ++ tasks, done, rest⟩
  | .objectColon =>
    match rest with
    | [] => .error ⟨done.length, .message "parsing object after name: unexpected EOF"⟩
    | b :: rest =>
      if b ≠ colon then .error ⟨done.length, .invalidCharacter "after object name"⟩
      else .ok ⟨.value false :: .after .object :: tasks, done ++ [b], rest⟩
  | .after bracket =>
    match rest with
    | [] =>
      .error ⟨done.length, .message ("parsing " ++ afterValue bracket ++
        " after value: unexpected EOF")⟩
    | b :: rest =>
      if b = comma then .ok ⟨.next bracket (some done.length) :: tasks, done ++ [b], rest⟩
      else if b = bracket.closing then .ok ⟨tasks, done ++ [b], rest⟩
      else
        .error ⟨done.length, .invalidCharacter ("after " ++ afterValue bracket ++ " value " ++
          expecting bracket)⟩
  | .finished =>
    if rest ≠ [] then .error ⟨done.length, .invalidCharacter "after top-level value"⟩
    else .ok ⟨tasks, done, rest⟩

def standardizeStep (s : Parser) : Except ParseError (Parser ⊕ Bytes) :=
  match s.tasks with
  | [] => .ok (.inr (s.done ++ s.rest))
  | task :: tasks => (runTask task tasks s.done s.rest).map .inl

/-! ## Tasks come to an end -/

/-- What a task may add to the tasks without taking a byte. -/
def Task.weight : Task → Nat
  | .next _ _ => 3
  | _ => 1

def Parser.size (s : Parser) : Nat := 4 * s.rest.length + (s.tasks.map Task.weight).sum

lemma length_extra {start : Nat} {text gap rest : Bytes} (h : extra start text = .ok (gap, rest)) :
    rest.length ≤ text.length := by
  obtain ⟨-, rfl⟩ := extra_eq_ok h
  simp

lemma length_literal {start : Nat} {b : UInt8} {text token rest : Bytes}
    (h : literal start (b :: text) (b = quote) = .ok (token, rest)) :
    rest.length < (b :: text).length := by
  obtain ⟨htoken, htext⟩ := literal_eq_ok h
  obtain ⟨c, tail, rfl, -⟩ := htoken.head
  rw [htext, length_append, length_cons]
  omega

variable (K : Goal UInt8) {text : Bytes} {task : Task} {s : Parser}

lemma size_startValue {name : Bool} {tasks : List Task} {done rest : Bytes}
    (h : startValue name tasks done rest = .ok s) :
    s.size ≤ 4 * rest.length + (tasks.map Task.weight).sum := by
  unfold startValue at h
  cases rest with
  | nil => cases h
  | cons kind after =>
    have hliteral := @length_literal done.length kind after
    grind [Parser.size, Task.weight]

lemma size_runTask {tasks : List Task} {done rest : Bytes}
    (h : runTask task tasks done rest = .ok s) : s.size < (⟨task :: tasks, done, rest⟩ : Parser).size := by
  have hextra := @length_extra done.length rest
  unfold runTask at h
  cases task with
  | value name =>
    simp only at h
    split at h
    · cases h
    rename_i gap rest' hgap
    have hsize := size_startValue h
    have := hextra hgap
    simp only [Parser.size, map_cons, sum_cons, Task.weight] at hsize ⊢
    omega
  | finish start kind name =>
    grind [Parser.size, Task.weight]
  | next bracket comma =>
    cases bracket <;> grind [Parser.size, Task.weight, entryTasks]
  | objectColon | after | finished => grind [Parser.size, Task.weight]

def standardizeLoop : Loop Parser ParseError Bytes where
  step := standardizeStep
  size := Parser.size
  decreases := by
    intro s s' h
    obtain ⟨tasks, done, rest⟩ := s
    cases tasks with
    | nil => cases h
    | cons task tasks =>
      cases hrun : runTask task tasks done rest with
      | error e => simp [standardizeStep, hrun, Except.map] at h
      | ok next =>
        simp only [standardizeStep, hrun, Except.map, Except.ok.injEq, Sum.inl.injEq] at h
        exact h ▸ size_runTask hrun

def standardize (raw : Bytes) : Except ParseError Bytes :=
  standardizeLoop.run ⟨[.value false, .finished], [], raw⟩

/-! ## What the tasks want -/

/-- What the tasks want of the text that is left, so that the output will be `out`. -/
def Wants (out : Bytes) : List Task → Goal UInt8
  | [] => fun done rest => done ++ rest = out
  | .value name :: tasks => On Extra (On (if name then Name else Value) (On Extra (Wants out tasks)))
  | .finish _ kind name :: tasks => fun done rest =>
      (name = true → kind = quote) ∧ On Extra (Wants out tasks) done rest
  | .next bracket comma :: tasks => fun done rest =>
      On (Close bracket) (Wants out tasks) (clearComma comma done) rest ∨
        On (Entry bracket) (Wants out tasks) done rest
  | .objectColon :: tasks =>
      On (word [colon] [colon]) (On Extra (On Value (On Extra (On (After .object) (Wants out tasks)))))
  | .after bracket :: tasks => On (After bracket) (Wants out tasks)
  | .finished :: tasks => fun done rest => rest = [] ∧ Wants out tasks done rest

/-- The tasks go on with punctuation, or with the end of the text. -/
def Settles : List Task → Prop
  | .objectColon :: _ | .after _ :: _ | .finished :: _ => True
  | _ => False

/-- What follows a value goes on with punctuation. -/
def WellStacked : List Task → Prop
  | [] => True
  | .value _ :: tasks | .finish _ _ _ :: tasks => Settles tasks ∧ WellStacked tasks
  | _ :: tasks => WellStacked tasks

/-- The invariant of the loop: the tasks are well stacked, only the task to do next may clear a comma, and
that comma has been written. -/
structure Parser.Valid (s : Parser) : Prop where
  stacked : WellStacked s.tasks
  inner : ∀ bracket comma, Task.next bracket comma ∉ s.tasks.tail
  written : ∀ bracket index, s.tasks.head? = some (.next bracket (some index)) → index < s.done.length

/-- The bytes that extras and literals start with. -/
def isContinued (b : UInt8) : Bool := isExtraStart b || isLiteralByte b

lemma stops_mono {kind kind' : UInt8 → Bool} (hkind : ∀ b, kind' b = true → kind b = true)
    (h : Stops kind text) : Stops kind' text := by
  intro b hb
  have hstops := h b hb
  cases hb' : kind' b with
  | false => rfl
  | true => rw [hkind b hb'] at hstops; exact hstops

/-- A value starts with no extra. -/
theorem stops_extra_tree {value : Tree} (h : value.Fits relaxedLayout) (rest : Bytes) :
    Stops isExtraStart (value.text ++ rest) := by
  obtain ⟨b, tail, htext, hb⟩ := ValueText.head ⟨value, h, le_refl _, rfl⟩
  rw [htext]
  refine stops_cons.mpr ?_
  exact Text.forall_byte (P := fun b => isValueStart b = true → isExtraStart b = false)
    (by decide +kernel) b hb

/-- An extra starts with no literal byte. -/
theorem stops_literal_extra {gap rest : Bytes} (hgap : IsExtra gap) (hrest : Stops isLiteralByte rest) :
    Stops isLiteralByte (gap ++ rest) := by
  cases hgap with
  | nil => exact hrest
  | cons hpiece _ =>
    have hslash : isLiteralByte slash = false := by decide
    rcases hpiece with ⟨b, hb, rfl⟩ | ⟨kind, inner, -, rfl, -⟩
    · refine stops_cons.mpr ?_
      exact Text.forall_byte (P := fun b => isSpace b = true → isLiteralByte b = false)
        (by decide +kernel) b hb
    · exact stops_cons.mpr hslash

/-- A transduction that starts with other bytes. -/
theorem refuses_on {kind : UInt8 → Bool} {R : Transduction UInt8}
    (hR : ∀ raw out, R raw out → ∃ b tail, raw = b :: tail ∧ kind b = false) :
    Refuses kind (On R K) := by
  rintro done _ ⟨raw, out, rest, hraw, rfl, -⟩
  obtain ⟨b, tail, rfl, hb⟩ := hR raw out hraw
  exact stops_cons.mpr hb

lemma refuses_settled {out : Bytes} {tasks : List Task} (h : Settles tasks) :
    Refuses isContinued (Wants out tasks) := by
  match tasks, h with
  | .objectColon :: tasks, _ =>
    apply refuses_on
    rintro _ _ ⟨rfl, rfl⟩
    exact ⟨colon, [], rfl, by decide⟩
  | .after bracket :: tasks, _ =>
    apply refuses_on
    rintro raw _ hafter
    rcases after_iff.mp hafter with ⟨rfl, -⟩ | ⟨rest, -, rfl, -⟩
    · exact ⟨_, [], rfl, by cases bracket <;> decide⟩
    · exact ⟨comma, _, rfl, by decide⟩
  | .finished :: tasks, _ =>
    rintro done rest ⟨rfl, -⟩
    exact stops_nil _

lemma refuses_on_value : Refuses isExtraStart (On Value K) := by
  rintro done _ ⟨raw, out, rest, ⟨value, hfits, rfl, -⟩, rfl, -⟩
  exact stops_extra_tree hfits rest

lemma refuses_on_name : Refuses isExtraStart (On Name K) := by
  apply refuses_on
  rintro raw out ⟨⟨tail, rfl, -⟩, -⟩
  exact ⟨quote, tail, rfl, by decide⟩

lemma refuses_on_extra {K : Goal UInt8} (hK : Refuses isLiteralByte K) :
    Refuses isLiteralByte (On Extra K) := by
  rintro done _ ⟨gap, _, rest, ⟨hgap, rfl⟩, rfl, h⟩
  exact stops_literal_extra hgap (hK _ _ h)

lemma refuses_extraStart {out : Bytes} {tasks : List Task} (h : Settles tasks) :
    Refuses isExtraStart (Wants out tasks) :=
  fun done rest hwants =>
    stops_mono (fun b hb => by simp [isContinued, hb]) (refuses_settled h done rest hwants)

lemma refuses_literalByte {out : Bytes} {tasks : List Task} (h : Settles tasks) :
    Refuses isLiteralByte (Wants out tasks) :=
  fun done rest hwants =>
    stops_mono (fun b hb => by simp [isContinued, hb]) (refuses_settled h done rest hwants)

/-- Where an extra has just been read there is none. -/
theorem on_extra_read {K : Goal UInt8} (hK : Refuses isExtraStart K) {start : Nat}
    {rest gap rest' : Bytes} (h : extra start rest = .ok (gap, rest')) {done : Bytes} :
    On Extra K done rest' ↔ K done rest' := by
  constructor
  · rintro ⟨gap', _, rest'', ⟨hgap', rfl⟩, rfl, hgoal⟩
    obtain ⟨hgap, rfl⟩ := extra_eq_ok h
    have hread := extra_append (hgap.append hgap') (hK _ _ hgoal) start
    rw [append_assoc, h] at hread
    obtain ⟨-, hrest⟩ := Prod.mk.inj (Except.ok.inj hread)
    obtain rfl := append_left_eq_self.mp hrest
    simpa [blanked] using hgoal
  · intro hgoal
    exact ⟨[], [], rest', ⟨.nil, rfl⟩, rfl, by simpa using hgoal⟩

/-! ## Each task does what it wants -/

section Tasks

variable {out : Bytes} {tasks : List Task} {done rest : Bytes}

/-- A task succeeds, and leaves what is wanted. -/
def Succeeds (out : Bytes) (x : Except ParseError Parser) : Prop :=
  ∃ s, x = .ok s ∧ Wants out s.tasks s.done s.rest

@[simp] lemma succeeds_ok {s : Parser} : Succeeds out (.ok s) ↔ Wants out s.tasks s.done s.rest := by
  simp [Succeeds]

@[simp] lemma succeeds_error {e : ParseError} : Succeeds out (.error e) ↔ False := by
  simp [Succeeds]

variable {bracket : Bracket} {name : Bool}

lemma succeeds_finish {start : Nat} {kind : UInt8} (hsettles : Settles tasks) :
    Wants out (.finish start kind name :: tasks) done rest ↔
      Succeeds out (runTask (.finish start kind name) tasks done rest) := by
  change _ ∧ On Extra _ done rest ↔ _
  rw [on_extra (refuses_extraStart hsettles) done.length, runTask]
  cases hextra : extra done.length rest with
  | error e => simp
  | ok parts =>
    obtain ⟨gap, rest'⟩ := parts
    by_cases hname : name = true ∧ kind ≠ quote
    · simp [hname]
    · have himp : name = true → kind = quote := fun h => by_contra fun hkind => hname ⟨h, hkind⟩
      simpa [hname] using fun _ => himp

/-- After an opening bracket a value goes on with the body of the container. -/
theorem on_value_opening {K : Goal UInt8} :
    On Value K done (bracket.opening :: rest) ↔
      On (union (Close bracket) (Entry bracket)) K (done ++ [bracket.opening]) rest := by
  constructor
  · rintro ⟨raw, out, rest', hvalue, htext, h⟩
    rcases value_iff.mp hvalue with ⟨hscalar, -⟩ | ⟨bracket', _, _, body, out', ⟨rfl, rfl⟩, hbody, rfl, rfl⟩
    · obtain ⟨b, tail, rfl, -, hbracket, hbrace⟩ := hscalar.head
      obtain ⟨rfl, -⟩ := List.cons.inj htext
      cases bracket
      · exact absurd rfl hbracket
      · exact absurd rfl hbrace
    · obtain ⟨hopening, rfl⟩ := List.cons.inj htext
      obtain rfl : bracket' = bracket := by
        cases bracket <;> cases bracket' <;> first | rfl | exact absurd hopening (by decide)
      exact ⟨body, out', rest', hbody, rfl, by simpa using h⟩
  · rintro ⟨body, out', rest', hbody, rfl, h⟩
    exact ⟨bracket.opening :: body, bracket.opening :: out', rest',
      value_iff.mpr (.inr ⟨bracket, _, _, body, out', ⟨rfl, rfl⟩, hbody, rfl, rfl⟩), rfl,
      by simpa using h⟩

/-- Without an opening bracket a value is a scalar, and a name one that starts with a quote. -/
theorem on_value_scalar {K : Goal UInt8} {kind : UInt8} (hbracket : kind ≠ openBracket)
    (hbrace : kind ≠ openBrace) : On (if name then Name else Value) K done (kind :: rest) ↔
      (name = true → kind = quote) ∧ On Scalar K done (kind :: rest) := by
  cases name with
  | true =>
    constructor
    · rintro ⟨raw, out, rest', ⟨⟨tail, rfl, htail⟩, rfl⟩, htext, h⟩
      exact ⟨fun _ => (List.cons.inj htext).1, _, _, rest', ⟨.inl ⟨tail, rfl, htail⟩, rfl⟩, htext, h⟩
    · rintro ⟨hquote, _, raw, rest', ⟨hscalar, rfl⟩, htext, h⟩
      refine ⟨raw, raw, rest', ⟨?_, rfl⟩, htext, h⟩
      rcases isScalar_cases hscalar with hstring | ⟨hne, hbytes⟩
      · exact hstring
      · -- a quote is no literal byte
        obtain ⟨b, tail, rfl⟩ := exists_cons_of_ne_nil hne
        obtain ⟨rfl, -⟩ := List.cons.inj htext
        exact absurd (hquote rfl) (isLiteralByte_spec (hbytes _ (by simp))).2.2.2
  | false =>
    constructor
    · rintro ⟨raw, out, rest', hvalue, htext, h⟩
      rcases value_iff.mp hvalue with hscalar | ⟨bracket, _, _, body, out', ⟨rfl, rfl⟩, hbody, rfl, rfl⟩
      · exact ⟨by simp, raw, out, rest', hscalar, htext, h⟩
      · obtain ⟨rfl, -⟩ := List.cons.inj htext
        cases bracket
        · exact absurd rfl hbracket
        · exact absurd rfl hbrace
    · rintro ⟨-, raw, out, rest', hscalar, htext, h⟩
      exact ⟨raw, out, rest', value_iff.mpr (.inl hscalar), htext, h⟩

lemma succeeds_opening {name : Bool} {bracket : Bracket} {start : Nat} :
    On (if name then Name else Value) (On Extra (Wants out tasks)) done (bracket.opening :: rest) ↔
      Wants out (.next bracket none :: .finish start bracket.opening name :: tasks)
        (done ++ [bracket.opening]) rest := by
  have hquote : bracket.opening ≠ quote := by cases bracket <;> decide
  cases name with
  | true =>
    constructor
    · rintro ⟨_, _, _, ⟨⟨tail, rfl, -⟩, rfl⟩, htext, -⟩
      exact absurd (List.cons.inj htext).1 hquote
    · rintro (⟨_, _, _, -, -, hname, -⟩ | ⟨_, _, _, -, -, hname, -⟩)
      · exact absurd (hname rfl) hquote
      · exact absurd (hname rfl) hquote
  | false =>
    have hfinish : Wants out (.finish start bracket.opening false :: tasks) =
        On Extra (Wants out tasks) := by
      simp [Wants]
    rw [Wants, hfinish]
    exact on_value_opening.trans on_union

lemma succeeds_startValue (hsettles : Settles tasks) :
    On (if name then Name else Value) (On Extra (Wants out tasks)) done rest ↔
      Succeeds out (startValue name tasks done rest) := by
  have hrefuses := refuses_on_extra (@refuses_literalByte out tasks hsettles)
  unfold startValue
  cases rest with
  | nil =>
    simp only [succeeds_error, iff_false]
    rintro ⟨raw, _, _, hraw, htext, -⟩
    obtain ⟨rfl, -⟩ := append_eq_nil_iff.mp htext.symm
    cases name with
    | true =>
      obtain ⟨⟨_, hnil, -⟩, -⟩ := hraw
      cases hnil
    | false =>
      obtain ⟨value, hfits, hnil, -⟩ := hraw
      obtain ⟨_, _, htext', -⟩ := ValueText.head ⟨value, hfits, le_refl _, rfl⟩
      cases hnil.trans htext'
  | cons kind after =>
    by_cases hbrace : kind = openBrace
    · subst hbrace
      simp
      exact @succeeds_opening out tasks done after name .object _
    by_cases hbracket : kind = openBracket
    · subst hbracket
      simp [hbrace]
      exact @succeeds_opening out tasks done after name .array _
    rw [on_value_scalar hbracket hbrace, on_scalar hrefuses done.length]
    by_cases hclose : kind = closeBrace ∨ kind = closeBracket
    · simp only [if_neg hbrace, if_neg hbracket, if_pos hclose, succeeds_error, iff_false]
      rintro ⟨-, token, rest', hliteral, -⟩
      obtain ⟨htoken, htext⟩ := literal_eq_ok hliteral
      obtain ⟨b, tail, rfl, hb, -⟩ := htoken.head
      obtain ⟨rfl, -⟩ := List.cons.inj htext
      obtain ⟨-, -, -, hnotBracket, hnotBrace⟩ := isValueStart_spec hb
      exact hclose.elim hnotBrace hnotBracket
    · simp only [if_neg hbrace, if_neg hbracket, if_neg hclose]
      cases hliteral : literal done.length (kind :: after) (kind = quote) with
      | error e => simp
      | ok parts =>
        obtain ⟨token, rest'⟩ := parts
        simp [Wants]

lemma succeeds_value (hsettles : Settles tasks) :
    Wants out (.value name :: tasks) done rest ↔ Succeeds out (runTask (.value name) tasks done rest) := by
  have hrefuses : Refuses isExtraStart (On (if name then Name else Value)
      (On Extra (Wants out tasks))) := by
    cases name
    · exact refuses_on_value _
    · exact refuses_on_name _
  rw [Wants, on_extra hrefuses done.length, runTask]
  cases hextra : extra done.length rest with
  | error e => simp
  | ok parts =>
    obtain ⟨gap, rest'⟩ := parts
    simp [succeeds_startValue hsettles]

lemma clearComma_append {comma : Option Nat} (hwritten : ∀ index, comma = some index → index < done.length)
    (gap : Bytes) : clearComma comma (done ++ gap) = clearComma comma done ++ gap := by
  cases comma with
  | none => rfl
  | some index => exact set_append_left _ _ (hwritten index rfl)

/-- An entry is what its tasks want. -/
theorem on_entry :
    On (Entry bracket) (Wants out tasks) done rest ↔ Wants out (entryTasks bracket ++ tasks) done rest := by
  rw [on_congr fun _ _ => entry_iff]
  cases bracket with
  | array => simp [entryTasks, Wants, Head, on_comp, on_word]
  | object => simp [entryTasks, Wants, Head, on_comp]

/-- An entry starts with an extra, and then with no closing bracket. -/
theorem entry_goal (bracket : Bracket) : ∃ K, Wants out (entryTasks bracket ++ tasks) = On Extra K ∧
    Refuses isExtraStart K ∧ ∀ done rest, ¬ K done (bracket.closing :: rest) := by
  cases bracket with
  | array =>
    refine ⟨_, rfl, refuses_on_value _, ?_⟩
    rintro done rest ⟨raw, _, _, ⟨value, hfits, rfl, -⟩, htext, -⟩
    obtain ⟨b, tail, hvalue, hb⟩ := ValueText.head ⟨value, hfits, le_refl _, rfl⟩
    rw [hvalue] at htext
    obtain ⟨rfl, -⟩ := List.cons.inj htext
    exact absurd hb (by decide)
  | object =>
    refine ⟨_, rfl, refuses_on_name _, ?_⟩
    rintro done rest ⟨_, _, _, ⟨⟨tail, rfl, -⟩, -⟩, htext, -⟩
    exact absurd (List.cons.inj htext).1 (by decide)

lemma succeeds_next {comma : Option Nat}
    (hwritten : ∀ index, comma = some index → index < done.length) :
    Wants out (.next bracket comma :: tasks) done rest ↔
      Succeeds out (runTask (.next bracket comma) tasks done rest) := by
  obtain ⟨K, hentry, hK, hclosing⟩ := @entry_goal out tasks bracket
  have hrefuses : Refuses isExtraStart (On (word [bracket.closing] [bracket.closing])
      (Wants out tasks)) := by
    apply refuses_on
    rintro _ _ ⟨rfl, rfl⟩
    exact ⟨_, [], rfl, by cases bracket <;> decide⟩
  have hwants : Wants out (.next bracket comma :: tasks) done rest ↔
      On Extra (On (word [bracket.closing] [bracket.closing]) (Wants out tasks))
        (clearComma comma done) rest ∨ On Extra K done rest := by
    change On (Close bracket) _ _ rest ∨ On (Entry bracket) _ done rest ↔ _
    rw [on_entry, hentry, Close, on_comp]
  rw [hwants, on_extra hrefuses done.length, on_extra hK done.length, runTask]
  cases hextra : extra done.length rest with
  | error e => simp
  | ok parts =>
    obtain ⟨gap, rest'⟩ := parts
    by_cases hclose : rest'.head? = some bracket.closing
    · obtain ⟨tail, rfl⟩ : ∃ tail, rest' = bracket.closing :: tail := by
        cases rest' with
        | nil => cases hclose
        | cons b tail => exact ⟨tail, by rw [Option.some.inj hclose]⟩
      simp [on_word, hclosing, clearComma_append hwritten]
    · have hword (done : Bytes) : ¬ On (word [bracket.closing] [bracket.closing]) (Wants out tasks)
          done rest' := by
        rw [on_word]
        rintro ⟨tail, rfl, -⟩
        exact hclose rfl
      simp [hword, hclose, hentry, on_extra_read hK hextra]

lemma succeeds_objectColon : Wants out (.objectColon :: tasks) done rest ↔
    Succeeds out (runTask .objectColon tasks done rest) := by
  rw [Wants, on_word]
  unfold runTask
  cases rest with
  | nil => simp
  | cons b rest =>
    by_cases hb : b = colon
    · simp [hb, Wants]
    · simp [hb]

lemma succeeds_after : Wants out (.after bracket :: tasks) done rest ↔
    Succeeds out (runTask (.after bracket) tasks done rest) := by
  have hcomma : bracket.closing ≠ comma := by cases bracket <;> decide
  have hclear : clearComma (some done.length) (done ++ [comma]) = done ++ [blank] := by
    simp [clearComma]
  simp only [Wants, After, on_union, on_comp, on_word, runTask]
  cases rest with
  | nil => simp
  | cons b rest =>
    by_cases hb : b = comma
    · simp [hb, Wants, hclear, hcomma.symm]
    · by_cases hclose : b = bracket.closing
      · simp [hclose, hcomma]
      · simp [hb, hclose]

lemma succeeds_end : Wants out (.finished :: tasks) done rest ↔
    Succeeds out (runTask .finished tasks done rest) := by
  by_cases hrest : rest = [] <;> simp [Wants, runTask, hrest]

end Tasks

/-! ## Runs -/

lemma succeeds_task {out : Bytes} {tasks : List Task} {done rest : Bytes}
    (hs : (⟨task :: tasks, done, rest⟩ : Parser).Valid) :
    Wants out (task :: tasks) done rest ↔ Succeeds out (runTask task tasks done rest) := by
  cases task with
  | value name => exact succeeds_value hs.stacked.1
  | finish start kind name => exact succeeds_finish hs.stacked.1
  | next bracket comma => exact succeeds_next fun index h => hs.written bracket index (by rw [h]; rfl)
  | objectColon => exact succeeds_objectColon
  | after bracket => exact succeeds_after
  | finished => exact succeeds_end

lemma follows_task {P : Parser → Prop} {Q : Bytes → Prop} {tasks : List Task}
    {done rest : Bytes} : standardizeLoop.Follows P Q ⟨task :: tasks, done, rest⟩ ↔
      ∃ s, runTask task tasks done rest = .ok s ∧ P s := by
  cases hrun : runTask task tasks done rest with
  | error | ok => simp [Loop.Follows, standardizeLoop, standardizeStep, hrun, Except.map]

lemma wants_step {out : Bytes} {s : Parser} (hs : s.Valid) : Wants out s.tasks s.done s.rest ↔
    standardizeLoop.Follows (fun s => Wants out s.tasks s.done s.rest) (· = out) s := by
  obtain ⟨tasks, done, rest⟩ := s
  cases tasks with
  | nil => exact Iff.rfl
  | cons task tasks => rw [follows_task, succeeds_task hs, Succeeds]

lemma valid_of_no_next {tasks : List Task} {done rest : Bytes} (hstacked : WellStacked tasks)
    (hnext : ∀ bracket comma, Task.next bracket comma ∉ tasks) :
    (⟨tasks, done, rest⟩ : Parser).Valid where
  stacked := hstacked
  inner bracket comma hmem := hnext bracket comma (mem_of_mem_tail hmem)
  written bracket _ hhead := absurd (mem_of_mem_head? hhead) (hnext bracket _)

lemma valid_next {tasks : List Task} {done rest : Bytes} {bracket : Bracket} {comma : Option Nat}
    (hstacked : WellStacked tasks) (hnext : ∀ bracket comma, Task.next bracket comma ∉ tasks)
    (hwritten : ∀ index, comma = some index → index < done.length) :
    (⟨.next bracket comma :: tasks, done, rest⟩ : Parser).Valid where
  stacked := hstacked
  inner := hnext
  written bracket' index hhead := by
    obtain ⟨rfl, hcomma⟩ := Task.next.inj (Option.some.inj hhead)
    exact hwritten index hcomma

lemma valid_startValue {name : Bool} {tasks : List Task} {done rest : Bytes}
    (hsettles : Settles tasks) (hstacked : WellStacked tasks)
    (hnext : ∀ bracket comma, Task.next bracket comma ∉ tasks)
    (h : startValue name tasks done rest = .ok s) : s.Valid := by
  unfold startValue at h
  cases rest with
  | nil => cases h
  | cons kind after =>
    have hfinish : WellStacked (.finish done.length kind name :: tasks) := ⟨hsettles, hstacked⟩
    have hnext' : ∀ bracket comma, Task.next bracket comma ∉ Task.finish done.length kind name :: tasks := by
      simpa using hnext
    simp only at h
    split at h
    · exact Except.ok.inj h ▸ valid_next hfinish hnext' (by simp)
    split at h
    · exact Except.ok.inj h ▸ valid_next hfinish hnext' (by simp)
    split at h
    · cases h
    · split at h
      · cases h
      · exact Except.ok.inj h ▸ valid_of_no_next hfinish hnext'

lemma valid_runTask {tasks : List Task} {done rest : Bytes}
    (hs : (⟨task :: tasks, done, rest⟩ : Parser).Valid) (h : runTask task tasks done rest = .ok s) :
    s.Valid := by
  obtain ⟨hstacked, hnext, hwritten⟩ := hs
  unfold runTask at h
  cases task with
  | value name =>
    obtain ⟨hsettles, hstacked⟩ := hstacked
    simp only at h
    split at h
    · cases h
    · exact valid_startValue hsettles hstacked hnext h
  | finish start kind name =>
    simp only at h
    split at h
    · cases h
    · split at h
      · cases h
      · exact Except.ok.inj h ▸ valid_of_no_next hstacked.2 hnext
  | next bracket comma =>
    simp only at h
    split at h
    · cases h
    split at h
    · exact Except.ok.inj h ▸ valid_of_no_next hstacked hnext
    have hentry : WellStacked (entryTasks bracket ++ tasks) := by
      cases bracket <;> exact ⟨trivial, hstacked⟩
    refine Except.ok.inj h ▸ valid_of_no_next hentry ?_
    cases bracket <;> simpa [entryTasks] using hnext
  | objectColon =>
    cases rest with
    | nil => cases h
    | cons b rest =>
      simp only at h
      split at h
      · cases h
      · refine Except.ok.inj h ▸ valid_of_no_next ⟨trivial, hstacked⟩ ?_
        simpa using hnext
  | after bracket =>
    cases rest with
    | nil => cases h
    | cons b rest =>
      simp only at h
      split at h
      · exact Except.ok.inj h ▸ valid_next hstacked hnext (by simp)
      · split at h
        · exact Except.ok.inj h ▸ valid_of_no_next hstacked hnext
        · cases h
  | finished =>
    simp only at h
    split at h
    · cases h
    · exact Except.ok.inj h ▸ valid_of_no_next hstacked hnext

lemma valid_step {s s' : Parser} (hs : s.Valid) (h : standardizeLoop.step s = .ok (.inl s')) :
    s'.Valid := by
  obtain ⟨tasks, done, rest⟩ := s
  cases tasks with
  | nil => cases h
  | cons task tasks =>
    change (runTask task tasks done rest).map Sum.inl = .ok (Sum.inl s') at h
    cases hrun : runTask task tasks done rest with
    | error e => simp [hrun, Except.map] at h
    | ok next =>
      simp only [hrun, Except.map, Except.ok.injEq, Sum.inl.injEq] at h
      exact h ▸ valid_runTask hs hrun

/-- The parser accepts the documents of the relaxed grammar, and writes their standard form. -/
theorem standardize_eq_ok {raw out : Bytes} : standardize raw = .ok out ↔
    ∃ doc : Document relaxedLayout, doc.text = raw ∧
      out = blanked doc.before ++ ((standardTree doc.tree).text ++ blanked doc.after) := by
  have hvalid : (⟨[.value false, .finished], [], raw⟩ : Parser).Valid :=
    valid_of_no_next ⟨trivial, trivial⟩ (by simp)
  have hrun := Loop.run_ok_iff (fun _ _ => valid_step) (fun s => @wants_step out s) hvalid
  have hout : standardize raw = .ok out ↔
      ∃ r, standardizeLoop.run ⟨[.value false, .finished], [], raw⟩ = .ok r ∧ r = out := by
    simp [standardize]
  rw [hout, hrun]
  constructor
  · rintro ⟨before, _, _, ⟨hbefore, rfl⟩, rfl, _, _, _, ⟨value, hvalue, rfl, rfl⟩, rfl,
      after, _, _, ⟨hafter, rfl⟩, rfl, rfl, rfl⟩
    exact ⟨⟨before, value, after, hbefore, hvalue, hafter⟩, by simp [Document.text], by simp⟩
  · rintro ⟨⟨before, value, after, hbefore, hvalue, hafter⟩, rfl, rfl⟩
    exact ⟨before, _, _, ⟨hbefore, rfl⟩, rfl, _, _, _, ⟨value, hvalue, rfl, rfl⟩, rfl,
      after, _, [], ⟨hafter, rfl⟩, by simp, rfl, by simp [Wants]⟩

end Headscale.Hujson
