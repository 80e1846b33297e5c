import TableGraph.BlankLabel.Identity
import TableGraph.Cursor
import TableGraph.Mapping.Node
import TableGraph.Sink

/-!
# Emitting triples

A node evaluated under a cursor makes terms and offers triples to a sink on the way: for the terms of a
subject first its types and then its properties, in order. The object of a property is evaluated under
a cursor derived from the subject's, so that the statements about an object come before those that lead
to it. Subjects and objects are joined each with each. Only the sink can stop an emission; a term or
name that cannot be made is left out.
-/

namespace TableGraph

/-- What an evaluation reads: what names mean, and the host's cells. -/
structure Context where
  naming : Naming
  evaluate : Evaluator

/-! ## Terms of a row -/

/-- The terms that a resource node makes in a row. A constant needs no row, and a cell makes nothing
without one. -/
def ResourceMaker.terms (ctx : Context) (place : Address) (maker : ResourceMaker)
    (row : Option Nat) : StateM BlankNodes (List Term) :=
  match maker, row with
  | .constantIri constant label _, _ =>
    pure (if constant.isEmpty then [] else (ctx.naming.resourceOfValue? label constant).toList)
  | .constantBlank seed _ rule, _ => do
    return [.blank (← BlankNodes.ofConstant place seed rule)]
  | .cellIri cell label, some row =>
    pure ((cell.texts ctx.evaluate row).filterMap (ctx.naming.resourceOfValue? label))
  | .cellBlank cell, some row =>
    ((cell.texts ctx.evaluate row).filter fun value => !(Text.stripSpace value).isEmpty).mapM
      fun _ => do return .blank (← BlankNodes.ofCell cell row)
  | .cellIri .., none | .cellBlank _, none => pure []

/-- The terms that a literal node makes in a row. -/
def LiteralMaker.terms (ctx : Context) (maker : LiteralMaker) (row : Option Nat) : List Term :=
  match maker.source, row with
  | .constant text _, _ => (ctx.naming.literal? text maker.datatype maker.language).toList
  | .cell cell, some row =>
    (cell.texts ctx.evaluate row).filterMap fun value =>
      ctx.naming.literal? value maker.datatype maker.language
  | .cell _, none => []

def Node.termsInRow (ctx : Context) (place : Address) (node : Node) (row : Option Nat) :
    StateM BlankNodes (List Term) :=
  match node with
  | .resource maker _ _ => maker.terms ctx place row
  | .literal maker => pure (maker.terms ctx row)

/-- The terms that a node makes under a cursor, and the cursor that this leaves. Over a record, a cell
makes the terms of every row and leaves the record at its end; an index makes those of the first row
and is taken off it. -/
def Node.terms (ctx : Context) (place : Address) (node : Node) (c : Cursor) :
    StateM BlankNodes (List Term × Cursor) :=
  if node.isConstant || !c.isRecordMode then do
    return (← node.termsInRow ctx place c.row?, c)
  else if node.isIndex then do
    let (_, first) := c.next
    return (← node.termsInRow ctx place first.row?, first.reset)
  else do
    let terms ← c.walk.mapM fun c => node.termsInRow ctx place c.row?
    return (terms.flatten, c.leave)

/-! ## Emission -/

/-- What an evaluation carries along: the sink that it feeds, and the blank nodes named so far. -/
structure Pass (σ : Type) where
  sink : σ
  blanks : BlankNodes

/-- A step of an evaluation, which the sink may stop. -/
abbrev Emission (σ : Type) := ExceptT TransformError (StateM (Pass σ))

namespace Emission

def naming (x : StateM BlankNodes α) : Emission σ α := fun pass =>
  let (a, blanks) := x pass.blanks
  (.ok a, { pass with blanks := blanks })

def offer [TripleSink σ] (triples : List Triple) : Emission σ Unit := fun pass =>
  let (result, sink) := TripleSink.offerAll triples pass.sink
  (result, { pass with sink := sink })

end Emission

/-- The triples that join each subject with each object. -/
def joinEach (subjects : List Term) (property : String) (objects : List Term) : List Triple :=
  subjects.flatMap fun s => objects.map fun o => ⟨s, property, o⟩

/-- The types that can be named, as objects. -/
def typeTerms (ctx : Context) (types : List IriName) : List Term :=
  types.filterMap fun name => (ctx.naming.iri? name).map .iri

/-- Offer the triples that lead from subjects to objects, if the property can be named. -/
def Emission.link [TripleSink σ] (ctx : Context) (subjects : List Term) (name : IriName)
    (objects : List Term) : Emission σ Unit :=
  if objects.isEmpty then pure ()
  else
    match ctx.naming.iri? name with
    | some property => Emission.offer (joinEach subjects property objects)
    | none => pure ()

mutual

/-- Evaluate a node under a cursor: its terms, their triples offered on the way. -/
def Node.emit [TripleSink σ] (ctx : Context) (place : Address) (node : Node) (c : Cursor) :
    Emission σ (List Term) :=
  match node with
  | .literal maker =>
    if c.isPerRow then do
      let terms ← c.walk.mapM fun c =>
        Emission.naming ((Node.literal maker).termsInRow ctx place c.row?)
      return terms.flatten
    else do
      let (terms, _) ← Emission.naming ((Node.literal maker).terms ctx place c)
      return terms
  | .resource maker types properties =>
    if c.isPerRow then do
      let terms ← c.walk.mapM fun c => do
        let subjects ← Emission.naming (maker.terms ctx place c.row?)
        unless subjects.isEmpty do
          Emission.offer (joinEach subjects Standard.rdfType (typeTerms ctx types))
          emitProperties ctx place subjects c 0 properties
        return subjects
      return terms.flatten
    else do
      let (subjects, c) ← Emission.naming ((Node.resource maker types properties).terms ctx place c)
      unless subjects.isEmpty do
        Emission.offer (joinEach subjects Standard.rdfType (typeTerms ctx types))
        emitProperties ctx place subjects c 0 properties
      return subjects

/-- Evaluate the properties of subjects, counted from a number: their objects, and then the triples
that lead to them. A property without a name or without a node has no objects. -/
def emitProperties [TripleSink σ] (ctx : Context) (place : Address) (subjects : List Term)
    (c : Cursor) (number : Nat) (properties : List (IriName × Option Node)) : Emission σ Unit :=
  match properties with
  | [] => pure ()
  | (_, none) :: rest => emitProperties ctx place subjects c (number + 1) rest
  | (name, some object) :: rest => do
    unless name.isBlank do
      let below := Cursor.forObject c
      let objects ← if below.isSet then object.emit ctx (number :: place) below else pure []
      Emission.link ctx subjects name objects
    emitProperties ctx place subjects c (number + 1) rest

end

end TableGraph
