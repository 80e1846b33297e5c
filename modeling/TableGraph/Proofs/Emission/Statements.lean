import TableGraph.Transform

/-!
# What a mapping tree says

The terms and triples of a tree in a row, over a record, and of a whole transform, defined on the tree
alone: there is no cursor to move and no sink to feed. `Node.inRow` and `Node.inRecord` read the terms
of each node from a `Production`, so they can be run with the blank nodes that evaluation names on the
way (`Node.statements`), and also where every blank node has its name already.
-/

namespace TableGraph

/-- What a node says: its terms, and the triples about them, in order. -/
structure Statements where
  terms : List Term
  triples : List Triple
  deriving DecidableEq, Repr

namespace Statements

def nothing : Statements := ⟨[], []⟩

def concat (parts : List Statements) : Statements :=
  ⟨parts.flatMap (·.terms), parts.flatMap (·.triples)⟩

end Statements

/-- The terms of the node at a place, in a row. The monad is what making terms carries along. -/
abbrev Production (m : Type → Type) := Address → Node → Option Nat → m (List Term)

@[simp] theorem joinEach_nil (subjects : List Term) (property : String) :
    joinEach subjects property [] = [] := by
  simp [joinEach]

theorem mem_joinEach {subjects objects : List Term} {property : String} {x : Triple} :
    x ∈ joinEach subjects property objects ↔ ∃ s ∈ subjects, ∃ o ∈ objects, ⟨s, property, o⟩ = x := by
  simp [joinEach, List.mem_flatMap, List.mem_map]

section
variable {m : Type → Type} [Monad m] (ctx : Context) (produce : Production m)

/-- The triples that give subjects their types: those that can be named, in order, for each subject. -/
def typeTriples (subjects : List Term) (types : List IriName) : List Triple :=
  joinEach subjects Standard.rdfType (typeTerms ctx types)

/-- The triples that lead from each subject to each object; none if the property cannot be named. -/
def linkTriples (subjects : List Term) (name : IriName) (objects : List Term) : List Triple :=
  match ctx.naming.iri? name with
  | some property => joinEach subjects property objects
  | none => []

@[simp] theorem linkTriples_nil (subjects : List Term) (name : IriName) :
    linkTriples ctx subjects name [] = [] := by
  unfold linkTriples
  split <;> simp

/-- What is said about subjects: their types, and then what their properties say. Where there are no
subjects, nothing is said. -/
def describe (subjects : List Term) (types : List IriName) (properties : m (List Triple)) :
    m Statements :=
  if subjects.isEmpty then return .nothing
  else return ⟨subjects, typeTriples ctx subjects types ++ (← properties)⟩

theorem describe_nil [LawfulMonad m] (subjects : List Term) :
    describe ctx subjects [] (pure [] : m (List Triple)) = pure ⟨subjects, []⟩ := by
  cases subjects <;> simp [describe, Statements.nothing, typeTriples, typeTerms]

/-- What a property says about subjects: what its object says, and then the triples that lead there. A
property without a name says nothing. -/
def describeProperty (subjects : List Term) (name : IriName) (object : m Statements) :
    m (List Triple) :=
  if name.isBlank then return []
  else do
    let said ← object
    return said.triples ++ linkTriples ctx subjects name said.terms

/-! ## A row -/

mutual

/-- What a node says in a row: it describes the terms that it makes there. -/
def Node.inRow (place : Address) (row : Nat) : Node → m Statements
  | .literal maker => do
    return ⟨← produce place (.literal maker) (some row), []⟩
  | .resource maker types properties => do
    let subjects ← produce place (.resource maker types properties) (some row)
    describe ctx subjects types (propertiesInRow place row subjects 0 properties)

/-- What the properties of subjects say in a row, counted from a number, in order. -/
def propertiesInRow (place : Address) (row : Nat) (subjects : List Term) (number : Nat) :
    List (IriName × Option Node) → m (List Triple)
  | [] => pure []
  | (_, none) :: rest => propertiesInRow place row subjects (number + 1) rest
  | (name, some object) :: rest => do
    let own ← describeProperty ctx subjects name (object.inRow (number :: place) row)
    let more ← propertiesInRow place row subjects (number + 1) rest
    return own ++ more

end

/-! ## A record -/

/-- The terms of a node over a record: those of a constant once, those of an index in the first row, and
those of a column in every row. -/
def Node.termsInRecord (place : Address) (r : Record) (node : Node) : m (List Term) :=
  if node.isConstant then produce place node none
  else if node.isIndex then
    if r.isEmpty then pure [] else produce place node (some r.first)
  else do
    return (← r.rows.mapM fun row => produce place node (some row)).flatten

/-- What the properties of subjects say over a record, counted from a number, in order. An object says
what it says in each row, one row after the other. -/
def propertiesInRecord (place : Address) (r : Record) (subjects : List Term) (number : Nat) :
    List (IriName × Option Node) → m (List Triple)
  | [] => pure []
  | (_, none) :: rest => propertiesInRecord place r subjects (number + 1) rest
  | (name, some object) :: rest => do
    let own ← describeProperty ctx subjects name
      (Statements.concat <$> r.rows.mapM fun row => object.inRow ctx produce (number :: place) row)
    let more ← propertiesInRecord place r subjects (number + 1) rest
    return own ++ more

/-- What a node says over a record: it describes the terms that it makes there. -/
def Node.inRecord (place : Address) (r : Record) (node : Node) : m Statements := do
  let subjects ← node.termsInRecord produce place r
  describe ctx subjects node.types (propertiesInRecord ctx produce place r subjects 0 node.properties)

/-! ## Scopes -/

def Node.inScope (place : Address) (node : Node) : Scope → m Statements
  | .row row => node.inRow ctx produce place row
  | .record r => node.inRecord ctx produce place r

/-- What roots say in a scope, one after the other, counted from a number. -/
def rootsInScope (scope : Scope) (number : Nat) : List Node → m Statements
  | [] => pure .nothing
  | root :: rest => do
    let said ← root.inScope ctx produce [number] scope
    let more ← rootsInScope scope (number + 1) rest
    return ⟨said.terms ++ more.terms, said.triples ++ more.triples⟩

end

/-! ## Naming blank nodes on the way -/

/-- What a root says in a scope when blank nodes are named on the way. -/
def Node.statements (ctx : Context) (place : Address) (node : Node) (scope : Scope) :
    StateM BlankNodes Statements :=
  node.inScope ctx (Node.termsInRow ctx) place scope

/-- What a transform says in a scope when blank nodes are named on the way. -/
def Transform.statements (t : Transform) (evaluate : Evaluator) (scope : Scope) :
    StateM BlankNodes Statements :=
  rootsInScope ⟨t.naming, evaluate⟩ (Node.termsInRow ⟨t.naming, evaluate⟩) scope 0 t.roots

end TableGraph
