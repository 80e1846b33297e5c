import TableGraph.Text

/-!
# Expressions

An expression says what to take from a cell, in some language of the host. To the library it is a name:
it recognises the expression that takes the cell as it is and leaves all others to the host.
-/

namespace TableGraph

structure Expression where
  language : String
  code : String
  deriving DecidableEq, Repr

namespace Expression

/-- The language of code that names none. -/
def defaultLanguage : String := "grel"

/-- The code that takes a cell as it is. -/
def identityCode : String := "value"

/-- The expression that is meant where none is given: the cell as it is. -/
def cellValue : Expression := ⟨defaultLanguage, identityCode⟩

/-- A language in front of code, and the code behind its colon. A language is a letter, then letters
and digits. -/
def embeddedLanguage? (code : List Char) : Option (List Char × List Char) :=
  match Text.cutAt ':' code with
  | some (first :: more, rest) =>
    if first.isAlpha && more.all Char.isAlphanum then some (first :: more, rest) else none
  | _ => none

/-- The expression that stored code means. A language in front of the code counts before the one
stored beside it. -/
def parse (language : Option String) (code : String) : Expression :=
  let code := Text.trim code
  match embeddedLanguage? code.toList with
  | some (embedded, rest) =>
    ⟨String.ofList (embedded.map Char.toLower), Text.trimStart (String.ofList rest)⟩
  | none => ⟨language.getD defaultLanguage, code⟩

def isIdentity (e : Expression) : Bool :=
  e.code == identityCode

def isDefault (e : Expression) : Bool :=
  e.isIdentity && e.language == defaultLanguage

def text (e : Expression) : String :=
  e.language ++ ":" ++ e.code

end Expression

end TableGraph
