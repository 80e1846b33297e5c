import TableGraph.Json.Basic
import TableGraph.Number.Shortest

/-!
# Writing JSON

The compact text of a value: no spaces, keys in their order, and in strings an escape only for the
quote, the backslash and the control characters below the space.
-/

namespace TableGraph.Json

def Number.text : Number → String
  | .int n => toString n
  | .float x => x.text

def hexDigit (n : Nat) : Char :=
  Nat.digitChar n

/-- A character as it stands in a string. -/
def escape (c : Char) : List Char :=
  if c = '"' then ['\\', '"']
  else if c = '\\' then ['\\', '\\']
  else if c = '\n' then ['\\', 'n']
  else if c = '\r' then ['\\', 'r']
  else if c = '\t' then ['\\', 't']
  else if c.toNat = 8 then ['\\', 'b']
  else if c.toNat = 12 then ['\\', 'f']
  else if c.toNat < 32 then
    ['\\', 'u', '0', '0', hexDigit (c.toNat / 16), hexDigit (c.toNat % 16)]
  else [c]

def quote (s : List Char) : List Char :=
  '"' :: s.flatMap escape ++ ['"']

mutual

def chars : Json → List Char
  | .null => "null".toList
  | .bool true => "true".toList
  | .bool false => "false".toList
  | .number n => n.text.toList
  | .string s => quote s.toList
  | .array items => '[' :: charsOfItems items ++ [']']
  | .object entries => '\x7b' :: charsOfEntries entries ++ ['\x7d']

def charsOfItems : List Json → List Char
  | [] => []
  | [item] => chars item
  | item :: rest => chars item ++ ',' :: charsOfItems rest

def charsOfEntries : List (String × Json) → List Char
  | [] => []
  | [(key, value)] => quote key.toList ++ ':' :: chars value
  | (key, value) :: rest => quote key.toList ++ ':' :: (chars value ++ ',' :: charsOfEntries rest)

end

def text (v : Json) : String :=
  String.ofList v.chars

end TableGraph.Json
