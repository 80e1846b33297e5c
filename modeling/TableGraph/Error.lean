import TableGraph.Iri.Basic

/-!
# Errors

What can go wrong while a transform is built, loaded, saved or applied, by cause. `message` is the
wording of each.
-/

namespace TableGraph

/-- The ends of a blank-node label, at each of which some characters are not allowed. -/
inductive LabelEnd
  | first
  | last
  deriving DecidableEq, Repr

/-- The setting that names the characters not allowed at an end of a label. -/
def LabelEnd.setting : LabelEnd → String
  | .first => "blankNotFirst"
  | .last => "blankNotLast"

/-- Why a transform cannot be built, loaded, saved or applied. -/
inductive TransformError
  /-- A text that no strategy makes an IRI of. -/
  | malformedIri (text : String) (fault : Iri.Fault)
  /-- A text or value that is not JSON of the expected shape. -/
  | json
  /-- A setting that describes no set of characters. -/
  | labelPattern (place : LabelEnd)
  /-- A literal as the root of a mapping tree. -/
  | literalRoot
  /-- A value type that is not known. -/
  | unknownValueType (name : String)
  /-- A value source that is not known. -/
  | unknownSource (name : String)
  /-- A value source other than a constant where only a constant is understood. -/
  | sourceNotConstant (name : String)
  /-- A property of the document that is not there. -/
  | missingProperty (name : String)
  /-- An expression in place of a cell. -/
  | expressionSource
  /-- A triple that its receiver refused. -/
  | sink (reason : String)
  deriving DecidableEq, Repr

def invalidValue (property message : String) : String :=
  "Invalid value for " ++ property ++ ": " ++ message

def TransformError.message : TransformError → String
  | .malformedIri text fault => "Malformed IRI [" ++ text ++ "]: " ++ fault.message
  | .json => "JSON error"
  | .labelPattern place => invalidValue place.setting "not a set of characters"
  | .literalRoot => invalidValue "subjectMappings" "a root node must be an IRI or blank node"
  | .unknownValueType name => invalidValue "valueType" ("unknown type '" ++ name ++ "'")
  | .unknownSource name => invalidValue "valueSource" ("unknown source '" ++ name ++ "'")
  | .sourceNotConstant name =>
    invalidValue "valueSource" ("expected a constant source, found '" ++ name ++ "'")
  | .missingProperty name => "Missing required property: " ++ name
  | .expressionSource => "Unsupported feature: expression value source"
  | .sink reason => "Sink error: " ++ reason

/-- Why an expression has no value in a cell. -/
structure EvalError where
  reason : String
  deriving DecidableEq, Repr

def EvalError.message (e : EvalError) : String :=
  "Expression error: " ++ e.reason

end TableGraph
