import Headscale.Hujson.Extras

/-!
# Standard texts

HuJSON is JSON whose gaps may hold comments and whose containers may end with a comma. The standard
form of a document has spaces for the comments and a blank for such a comma. Documents are trees, so the
standard form is given on trees; read from left to right it is a transduction, which is put together
from the transductions of extras and scalars.
-/

namespace Headscale.Hujson

open JsonText GoJson Transduction

/-! ## The standard form -/

/-- Gaps may hold comments, and a comma may stand before a closing bracket. -/
def relaxedLayout : Layout where
  Gap := IsExtra
  trailingComma := True

def standardKey (key : Key) : Key := ⟨blanked key.before, key.name, blanked key.after⟩

/-- An entry and what follows its comma: before a closing bracket the comma becomes a blank. -/
def entryBefore (key : Option Key) (before : Bytes) (value : Tree) (after : Bytes) : Body → Body
  | .close gap => .last key before value (after ++ blank :: gap)
  | rest => .more key before value after rest

mutual

def standardTree : Tree → Tree
  | .scalar text => .scalar text
  | .node bracket body => .node bracket (standardBody body)

def standardBody : Body → Body
  | .close gap => .close (blanked gap)
  | .last key before value after =>
    .last (key.map standardKey) (blanked before) (standardTree value) (blanked after)
  | .more key before value after rest =>
    entryBefore (key.map standardKey) (blanked before) (standardTree value) (blanked after)
      (standardBody rest)

end

/-! ## Transductions -/

/-- A value, and its standard form. -/
def Value : Transduction UInt8 := fun raw out =>
  ∃ value : Tree, value.Fits relaxedLayout ∧ raw = value.text ∧ out = (standardTree value).text

def Name : Transduction UInt8 := fun raw out => IsString raw ∧ out = raw

/-- The closing bracket after an opening bracket or a comma. -/
def Close (bracket : Bracket) : Transduction UInt8 :=
  comp Extra (word [bracket.closing] [bracket.closing])

def IsEntry : Body → Prop
  | .close _ => False
  | _ => True

/-- An entry and all that follows in its container. -/
def Entry (bracket : Bracket) : Transduction UInt8 := fun raw out =>
  ∃ body : Body, body.Fits relaxedLayout bracket True ∧ IsEntry body ∧ raw = body.text bracket ∧
    out = (standardBody body).text bracket

/-- The name of a member with its colon; entries of arrays have none. -/
def Head : Bracket → Transduction UInt8
  | .array => word [] []
  | .object => comp Extra (comp Name (comp Extra (word [colon] [colon])))

/-- What follows the extra after an entry. -/
def After (bracket : Bracket) : Transduction UInt8 :=
  union (word [bracket.closing] [bracket.closing])
    (union (comp (word [comma] [blank]) (Close bracket)) (comp (word [comma] [comma]) (Entry bracket)))

variable {bracket : Bracket} {raw out : Bytes}

lemma body_iff :
    (∃ body : Body, body.Fits relaxedLayout bracket True ∧ raw = body.text bracket ∧
      out = (standardBody body).text bracket) ↔ union (Close bracket) (Entry bracket) raw out := by
  constructor
  · rintro ⟨body, hfits, rfl, rfl⟩
    cases body with
    | close gap => exact .inl ⟨gap, blanked gap, _, _, ⟨hfits.1, rfl⟩, ⟨rfl, rfl⟩, rfl, rfl⟩
    | last | more => exact .inr ⟨_, hfits, trivial, rfl, rfl⟩
  · rintro (⟨gap, _, _, _, ⟨hgap, rfl⟩, ⟨rfl, rfl⟩, rfl, rfl⟩ | ⟨body, hfits, -, rfl, rfl⟩)
    · exact ⟨.close gap, ⟨hgap, .inl trivial⟩, rfl, rfl⟩
    · exact ⟨body, hfits, rfl, rfl⟩

lemma value_iff : Value raw out ↔ Scalar raw out ∨
    ∃ bracket, comp (word [bracket.opening] [bracket.opening])
      (union (Close bracket) (Entry bracket)) raw out := by
  constructor
  · rintro ⟨value, hfits, rfl, rfl⟩
    cases value with
    | scalar text => exact .inl ⟨hfits, rfl⟩
    | node bracket body =>
      exact .inr ⟨bracket, _, _, _, _, ⟨rfl, rfl⟩, body_iff.mp ⟨body, hfits, rfl, rfl⟩, rfl, rfl⟩
  · rintro (⟨hscalar, rfl⟩ | ⟨bracket, _, _, _, _, ⟨rfl, rfl⟩, hbody, rfl, rfl⟩)
    · exact ⟨.scalar _, hscalar, rfl, rfl⟩
    · obtain ⟨body, hfits, rfl, rfl⟩ := body_iff.mpr hbody
      exact ⟨.node bracket body, hfits, rfl, rfl⟩

/-- The comma of a container may be its last one. -/
theorem fits_relaxed {first first' : Prop} {body : Body} :
    body.Fits relaxedLayout bracket first ↔ body.Fits relaxedLayout bracket first' := by
  cases body <;> simp [Body.Fits, relaxedLayout]

lemma head_iff : Head bracket raw out ↔
    ∃ key, KeyFits relaxedLayout bracket key ∧ raw = keyText key ∧
      out = keyText (key.map standardKey) := by
  cases bracket with
  | array =>
    constructor
    · rintro ⟨rfl, rfl⟩
      exact ⟨none, trivial, rfl, rfl⟩
    · rintro ⟨_ | key, hkey, rfl, rfl⟩
      · exact ⟨rfl, rfl⟩
      · exact hkey.elim
  | object =>
    constructor
    · rintro ⟨before, _, _, _, ⟨hbefore, rfl⟩, ⟨name, _, _, _, ⟨hname, rfl⟩,
        ⟨after, _, _, _, ⟨hafter, rfl⟩, ⟨rfl, rfl⟩, rfl, rfl⟩, rfl, rfl⟩, rfl, rfl⟩
      exact ⟨some ⟨before, _, after⟩, ⟨hbefore, hname, hafter⟩, rfl, rfl⟩
    · rintro ⟨_ | ⟨before, name, after⟩, hkey, rfl, rfl⟩
      · exact hkey.elim
      · obtain ⟨hbefore, hname, hafter⟩ := hkey
        exact ⟨before, _, _, _, ⟨hbefore, rfl⟩, ⟨name, _, _, _, ⟨hname, rfl⟩,
          ⟨after, _, _, _, ⟨hafter, rfl⟩, ⟨rfl, rfl⟩, rfl, rfl⟩, rfl, rfl⟩, rfl, rfl⟩

/-- The comma after an entry and the rest of the container, in standard form. -/
def afterText (bracket : Bracket) : Body → Bytes
  | .close gap => blank :: (gap ++ [bracket.closing])
  | rest => comma :: rest.text bracket

lemma afterText_entry {rest : Body} (h : IsEntry rest) :
    afterText bracket rest = comma :: rest.text bracket := by
  cases rest with
  | close gap => exact h.elim
  | last | more => rfl

lemma text_entryBefore (bracket : Bracket) (key : Option Key) (before : Bytes) (value : Tree)
    (after : Bytes) (rest : Body) : (entryBefore key before value after rest).text bracket =
      keyText key ++ (before ++ (value.text ++ (after ++ afterText bracket rest))) := by
  cases rest with
  | close gap => simp [entryBefore, Body.text, afterText]
  | last | more => rfl

lemma isEntry_standardBody {body : Body} (h : IsEntry body) : IsEntry (standardBody body) := by
  cases body with
  | close gap => exact h.elim
  | last => trivial
  | more key before value after rest =>
    rw [standardBody]
    cases standardBody rest <;> trivial

/-- What follows an entry is the closing bracket, or a comma and the rest of the container. -/
theorem after_iff : After bracket raw out ↔
    (raw = [bracket.closing] ∧ out = [bracket.closing]) ∨
    ∃ rest : Body, rest.Fits relaxedLayout bracket True ∧ raw = comma :: rest.text bracket ∧
      out = afterText bracket (standardBody rest) := by
  constructor
  · rintro (h | ⟨_, _, _, _, ⟨rfl, rfl⟩, ⟨gap, _, _, _, ⟨hgap, rfl⟩, ⟨rfl, rfl⟩, rfl, rfl⟩, rfl, rfl⟩ |
      ⟨_, _, _, _, ⟨rfl, rfl⟩, ⟨body, hfits, hentry, rfl, rfl⟩, rfl, rfl⟩)
    · exact .inl h
    · exact .inr ⟨.close gap, ⟨hgap, .inl trivial⟩, rfl, rfl⟩
    · exact .inr ⟨body, hfits, rfl, (afterText_entry (isEntry_standardBody hentry)).symm⟩
  · rintro (h | ⟨rest, hfits, rfl, rfl⟩)
    · exact .inl h
    · have hentry (h : IsEntry rest) :
          After bracket (comma :: rest.text bracket) (afterText bracket (standardBody rest)) :=
        .inr (.inr ⟨_, _, _, _, ⟨rfl, rfl⟩, ⟨rest, hfits, h, rfl, rfl⟩, rfl,
          afterText_entry (isEntry_standardBody h)⟩)
      cases rest with
      | close gap =>
        exact .inr (.inl ⟨_, _, _, _, ⟨rfl, rfl⟩, ⟨gap, _, _, _, ⟨hfits.1, rfl⟩, ⟨rfl, rfl⟩, rfl, rfl⟩,
          rfl, rfl⟩)
      | last | more => exact hentry trivial

lemma entry_iff : Entry bracket raw out ↔
    comp (Head bracket) (comp Extra (comp Value (comp Extra (After bracket)))) raw out := by
  constructor
  · rintro ⟨body, hfits, hentry, rfl, rfl⟩
    cases body with
    | close gap => exact hentry.elim
    | last key before value after =>
      obtain ⟨hkey, hbefore, hvalue, hafter⟩ := hfits
      exact ⟨_, _, _, _, head_iff.mpr ⟨key, hkey, rfl, rfl⟩, ⟨before, _, _, _, ⟨hbefore, rfl⟩,
        ⟨_, _, _, _, ⟨value, hvalue, rfl, rfl⟩, ⟨after, _, _, _, ⟨hafter, rfl⟩,
          .inl ⟨rfl, rfl⟩, rfl, rfl⟩, rfl, rfl⟩, rfl, rfl⟩, rfl, rfl⟩
    | more key before value after rest =>
      obtain ⟨hkey, hbefore, hvalue, hafter, hrest⟩ := hfits
      exact ⟨_, _, _, _, head_iff.mpr ⟨key, hkey, rfl, rfl⟩, ⟨before, _, _, _, ⟨hbefore, rfl⟩,
        ⟨_, _, _, _, ⟨value, hvalue, rfl, rfl⟩, ⟨after, _, _, _, ⟨hafter, rfl⟩,
          after_iff.mpr (.inr ⟨rest, fits_relaxed.mp hrest, rfl, rfl⟩), rfl, rfl⟩, rfl, rfl⟩, rfl, rfl⟩,
        rfl, text_entryBefore _ _ _ _ _ _⟩
  · rintro ⟨_, _, _, _, hhead, ⟨before, _, _, _, ⟨hbefore, rfl⟩, ⟨_, _, _, _, ⟨value, hvalue, rfl, rfl⟩,
      ⟨after, _, _, _, ⟨hafter, rfl⟩, htail, rfl, rfl⟩, rfl, rfl⟩, rfl, rfl⟩, rfl, rfl⟩
    obtain ⟨key, hkey, rfl, rfl⟩ := head_iff.mp hhead
    rcases after_iff.mp htail with ⟨rfl, rfl⟩ | ⟨rest, hrest, rfl, rfl⟩
    · exact ⟨.last key before value after, ⟨hkey, hbefore, hvalue, hafter⟩, trivial, rfl, rfl⟩
    · exact ⟨.more key before value after rest, ⟨hkey, hbefore, hvalue, hafter, fits_relaxed.mp hrest⟩,
        trivial, rfl, (text_entryBefore _ _ _ _ _ _).symm⟩

end Headscale.Hujson
