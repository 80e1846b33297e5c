import TableGraph.Json.Fields
import TableGraph.Json.WellFormed

/-!
# Structures in texts

`fieldsOfText?` reads the fields of a structure straight from a text. The fields are read as values,
and none may be given twice. What stands under any other key is passed over, as often as it is given:
it has to be well-formed, but need not be a value that can be read.
-/

namespace TableGraph.Json

/-- Read an entry whose key is a field, and pass over any other. -/
def readField (names : List String) (s : List Char) :
    Option (Option (String × Json) × List Char) := do
  let (key, rest) ← readKey s
  if names.contains key then
    let (v, left) ← readValue (maxLevels - 1) rest
    return (some (key, v), left)
  else
    let left ← passValue rest
    return (none, left)

/-- The values of fields, in the order of their names, from the text of a structure. -/
def fieldsOfText? (names : List String) (text : String) : Option (List (Option Json)) :=
  match skipSpace text.toList with
  | '\x7b' :: rest => do
    let (entries, left) ← readBracketed (readField names) '\x7d' rest
    let entries := entries.filterMap id
    if (skipSpace left).isEmpty && (entries.map (·.1)).Nodup then
      return names.map fun name => find? name entries
    else none
  | _ => parse? text >>= fields? names

end TableGraph.Json
