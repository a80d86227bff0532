/-!
JSON values. An object is a list of fields in the order in which they were written, so that a
document can be read and written back without moving anything. `Fields.put` keeps the place of a
field that is already there and appends a new one.
-/

namespace PageTree

/-- A JSON value. `double` holds the bits of a finite 64-bit binary fraction. -/
inductive Json where
  | null
  | bool (value : Bool)
  | int (value : Int)
  | double (bits : UInt64)
  | str (value : String)
  | arr (items : List Json)
  | obj (fields : List (String × Json))
  deriving Inhabited

namespace Json

abbrev Fields := List (String × Json)

namespace Fields

def lookup (fields : Fields) (key : String) : Option Json :=
  match fields with
  | [] => none
  | (k, v) :: rest => if k = key then some v else lookup rest key

def put (fields : Fields) (key : String) (value : Json) : Fields :=
  match fields with
  | [] => [(key, value)]
  | (k, v) :: rest => if k = key then (k, value) :: rest else (k, v) :: put rest key value

def remove (fields : Fields) (key : String) : Fields := fields.filter fun field => field.1 ≠ key

def ofPairs (pairs : List (String × Json)) : Fields :=
  pairs.foldl (fun fields pair => fields.put pair.1 pair.2) []

theorem lookup_put_self (fields : Fields) (key : String) (value : Json) :
    (fields.put key value).lookup key = some value := by
  induction fields with
  | nil => simp [put, lookup]
  | cons pair rest ih =>
    obtain ⟨k, v⟩ := pair
    by_cases h : k = key <;> simp [put, lookup, h, ih]

end Fields

/-- Infinities and values that are not numbers have no JSON form and become `null`. -/
def ofFloat (x : Float) : Json :=
  if x.isFinite then .double x.toBits else .null

def u64Bound : Nat := 0x10000000000000000

def i64Bound : Nat := 0x8000000000000000

def asU64? : Json → Option Nat
  | .int n => if 0 ≤ n ∧ n < u64Bound then some n.toNat else none
  | _ => none

end Json

end PageTree
