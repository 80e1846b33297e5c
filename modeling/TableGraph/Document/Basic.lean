import TableGraph.Json.Basic

/-!
# Transform documents

The form in which transforms are stored. A document leaves out what is usual, and it may hold what
cannot be used: the form only says what is written where, and loading decides what it means. The
namespaces and the roots are kept as raw values, so that one of them that is malformed does not spoil
the others.
-/

namespace TableGraph

namespace Document

/-- Where a value comes from: the name of a source, and what the source needs to know. -/
structure ValueSource where
  source : String
  columnName : Option String
  constant : Option String
  deriving DecidableEq, Repr

structure StoredExpression where
  language : Option String
  code : String
  deriving DecidableEq, Repr

/-- A name: the path is the constant of a value source. -/
structure StoredName where
  label : Option String
  valueSource : Option ValueSource
  deriving DecidableEq, Repr

/-- What a node makes, by name, with what literals have besides. -/
structure StoredType where
  kind : String
  datatype : Option StoredName
  language : Option String
  deriving DecidableEq, Repr

/-- What a node says about its own terms. -/
structure NodeHead where
  label : Option String
  valueSource : Option ValueSource
  expression : Option StoredExpression
  valueType : Option StoredType
  deriving DecidableEq, Repr

/-- A node with its types and its properties, each of which has a list of objects. -/
inductive StoredNode
  | mk (head : NodeHead) (types : List StoredName)
      (properties : List (StoredName × List StoredNode))

structure BaseParts where
  scheme : Option String
  userInfo : Option String
  host : Option String
  /-- A negative port is none. -/
  port : Option Int
  path : Option String
  query : Option String
  fragment : Option String
  deriving DecidableEq, Repr

/-- A base IRI, in one piece or in its components. -/
inductive StoredBase
  | text (iri : String)
  | parts (parts : BaseParts)
  deriving DecidableEq, Repr

/-- A namespace, alone or with where it is described. -/
inductive StoredNamespace
  | plain (ns : String)
  | described (ns : String) (location : Option String) (loctype : Option String)
  deriving DecidableEq, Repr

/-! ## Components of a base IRI -/

/-- A component with a sign before and behind it; nothing if it is absent or empty. -/
def component (before : String) (part : Option String) (behind : String) : String :=
  match part with
  | none => ""
  | some part => if part.isEmpty then "" else before ++ part ++ behind

/-- The host with the user information and the port; nothing without a host. -/
def BaseParts.authority (p : BaseParts) : String :=
  match p.host with
  | none => ""
  | some host =>
    if host.isEmpty then ""
    else
      "//" ++ component "" p.userInfo "@" ++ host ++
        match p.port with
        | some (.ofNat port) => ":" ++ toString port
        | _ => ""

def BaseParts.text (p : BaseParts) : String :=
  component "" p.scheme ":" ++ p.authority ++ component "" p.path "" ++ component "?" p.query "" ++
    component "#" p.fragment ""

def StoredBase.iriText : StoredBase → String
  | .text iri => iri
  | .parts p => p.text

end Document

structure Document where
  extension : Option String
  version : Option String
  base : Option Document.StoredBase
  namespaces : Option (List (String × Json))
  subjectMappings : Option (List Json)

end TableGraph
