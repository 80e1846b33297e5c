import TableGraph.Json.Basic

/-!
# Taking values apart

A structure is written as an object with a key for each field, or as an array of its fields in order.
A key that is no field is passed over; an array may end early but not be too long. What a field may
hold is said where it is read: `optional` takes null for absence, `withDefault` does not.
-/

namespace TableGraph.Json

def string? : Json → Option String
  | .string s => some s
  | _ => none

def bool? : Json → Option Bool
  | .bool b => some b
  | _ => none

def items? : Json → Option (List Json)
  | .array items => some items
  | _ => none

def entries? : Json → Option (List (String × Json))
  | .object entries => some entries
  | _ => none

/-- An integer from `lo` to `hi`. -/
def intWithin? (lo hi : Int) : Json → Option Int
  | .number (.int n) => if lo ≤ n ∧ n ≤ hi then some n else none
  | _ => none

/-- A natural number of so many bits. -/
def natOfBits? (bits : Nat) (v : Json) : Option Nat :=
  (v.intWithin? 0 (Int.ofNat (Nat.pow 2 bits) - 1)).map Int.toNat

/-- An integer of so many bits and a sign. -/
def intOfBits? (bits : Nat) (v : Json) : Option Int :=
  v.intWithin? (-Int.ofNat (Nat.pow 2 bits)) (Int.ofNat (Nat.pow 2 bits) - 1)

/-- The values of fields, in the order of their names. -/
def fields? (names : List String) : Json → Option (List (Option Json))
  | .object entries => some (names.map fun name => find? name entries)
  | .array items =>
    if items.length ≤ names.length then
      some (items.map some ++ List.replicate (names.length - items.length) none)
    else none
  | _ => none

/-- Read a field that may be absent or null. -/
def optional (read : Json → Option α) : Option Json → Option (Option α)
  | none | some .null => some none
  | some v => (read v).map some

/-- Read a field that may be absent, with the value that it has then. -/
def withDefault (default : α) (read : Json → Option α) : Option Json → Option α
  | none => some default
  | some v => read v

def list? (read : Json → Option α) (v : Json) : Option (List α) :=
  v.items? >>= List.mapM read

/-- An entry for a field that may be absent. -/
def entry (key : String) (value : Option Json) : List (String × Json) :=
  match value with
  | some v => [(key, v)]
  | none => []

/-- An array, unless it is empty. -/
def array? (items : List Json) : Option Json :=
  if items.isEmpty then none else some (.array items)

/-- An entry for a list that is left out if it is empty. -/
def listEntry (key : String) (items : List Json) : List (String × Json) :=
  entry key (array? items)

end TableGraph.Json
