import PageTree.Json.Basic
import PageTree.Toml.Moment

/-!
The values of a TOML document. A table is a list of entries in the order in which they were made.
-/

namespace PageTree

/-- A value; `float` holds the bits of a 64-bit binary fraction. -/
inductive Toml where
  | text (value : String)
  | integer (value : Int)
  | float (bits : UInt64)
  | boolean (value : Bool)
  | moment (value : Toml.Moment)
  | array (items : List Toml)
  | table (entries : List (String × Toml))
  deriving Inhabited

namespace Toml

abbrev Table := List (String × Toml)

/-- The field that stands for a moment in JSON, which has no such values. -/
def momentField : String := "$__toml_private_datetime"

mutual

def toJson : Toml → Json
  | text value => .str value
  | integer value => .int value
  | float bits => Json.ofFloat (Float.ofBits bits)
  | boolean value => .bool value
  | moment value => .obj [(momentField, .str value.text)]
  | array items => .arr (itemsToJson items)
  | table entries => .obj (entriesToJson entries)

def itemsToJson : List Toml → List Json
  | [] => []
  | item :: items => item.toJson :: itemsToJson items

def entriesToJson : List (String × Toml) → List (String × Json)
  | [] => []
  | (key, value) :: entries => (key, value.toJson) :: entriesToJson entries

end

end Toml

end PageTree
