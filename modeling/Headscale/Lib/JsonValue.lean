import Mathlib.Data.String.Basic

/-!
# JSON values

Values as a decoder hands them on. A number is the text it is kept as, and an object is the list of its
members.
-/

/-- A decoded JSON value. -/
inductive Json where
  | null
  | bool (value : Bool)
  | number (text : String)
  | string (text : String)
  | array (items : List Json)
  | object (members : List (String × Json))

namespace Json

def strings (texts : List String) : Json := .array (texts.map .string)

lemma strings_injective : Function.Injective strings := by
  intro a b h
  exact List.map_injective_iff.mpr (fun _ _ h => Json.string.inj h) (Json.array.inj h)

end Json
