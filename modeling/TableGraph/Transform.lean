import TableGraph.Emission

/-!
# Transforms

A transform is a base IRI, a list of vocabularies and the roots of mapping trees. It is applied to a
`Scope`, a row or a record: each root is evaluated in turn, and its triples go to a sink.
-/

namespace TableGraph

inductive Scope
  | row (row : Nat)
  | record (record : Record)
  deriving DecidableEq, Repr

def Scope.cursor : Scope → Cursor
  | .row r => .row r
  | .record r => .record r none

/-- What names mean, the roots of mapping trees, and the version of the document. -/
structure Transform where
  naming : Naming
  roots : List Node
  version : String
  deriving DecidableEq

namespace Transform

def currentVersion : String := "2.3.6"

/-- The base IRI of a document that gives none. -/
def defaultBase : Iri where
  scheme := "http".toList
  tail :=
    { authority := some ⟨none, "localhost".toList, some "3333".toList⟩
      path := ['/']
      query := none
      fragment := none }

/-- A transform without roots, over the base and the vocabularies of a document that gives none. -/
def standard : Transform := ⟨⟨defaultBase, .predefined⟩, [], currentVersion⟩

/-- A transform without roots and vocabularies. -/
def ofBase (base : Iri) : Transform := ⟨⟨base, .empty⟩, [], currentVersion⟩

def withVocabularies (t : Transform) (list : VocabularyList) : Transform :=
  { t with naming := { t.naming with vocabularies := list } }

def withBase (t : Transform) (base : Iri) : Transform :=
  { t with naming := { t.naming with base := base } }

/-- A transform with one more root, which cannot be a literal. -/
def addRoot (t : Transform) (root : Node) : Except TransformError Transform :=
  if root.isResource then .ok { t with roots := t.roots ++ [root] } else .error .literalRoot

def prefixMap (t : Transform) : List (String × String) :=
  t.naming.vocabularies.prefixMap t.naming.base.text

def announce [TripleSink σ] (t : Transform) (sink : σ) : σ :=
  TripleSink.announceAll t.prefixMap sink

def emitRoot [TripleSink σ] (t : Transform) (evaluate : Evaluator) (scope : Scope) (number : Nat)
    (root : Node) : Emission σ (List Term) :=
  root.emit ⟨t.naming, evaluate⟩ [number] scope.cursor

/-- Evaluate roots, counted from a number, and collect their terms. -/
def emitRoots [TripleSink σ] (t : Transform) (evaluate : Evaluator) (scope : Scope) :
    Nat → List Node → Emission σ (List Term)
  | _, [] => pure []
  | number, root :: rest => do
    let terms ← t.emitRoot evaluate scope number root
    let more ← t.emitRoots evaluate scope (number + 1) rest
    return terms ++ more

/-- Apply a transform: the terms of its roots, their triples offered on the way. -/
def apply [TripleSink σ] (t : Transform) (evaluate : Evaluator) (scope : Scope) :
    Emission σ (List Term) :=
  t.emitRoots evaluate scope 0 t.roots

end Transform

end TableGraph
