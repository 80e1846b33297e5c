import TableGraph.Config
import TableGraph.Visitor.Basic

/-!
# Previews

A preview collects the triples of the first rows or records into a graph. It stops at the sample limit
and, should an evaluation fail, there.
-/

namespace TableGraph

/-- A preview: what it reads, what it collected with the blank nodes named so far, and of how many rows
or records. -/
structure Preview where
  transform : Transform
  evaluate : Evaluator
  sampleLimit : Nat
  pass : Pass Graph
  count : Nat

namespace Preview

def new (t : Transform) (evaluate : Evaluator) (config : Config) (blanks : BlankNodes) : Preview :=
  ⟨t, evaluate, config.sampleLimit, ⟨.empty, blanks⟩, 0⟩

def graph (p : Preview) : Graph := p.pass.sink

/-- Whether enough was visited. A limit of zero is none. -/
def isEnough (p : Preview) : Bool := 0 < p.sampleLimit && p.sampleLimit ≤ p.count

def visit (scope : Scope) (p : Preview) : Except TransformError Bool × Preview :=
  if p.isEnough then (.ok true, p)
  else
    match (p.transform.apply (σ := Graph) p.evaluate scope) p.pass with
    | (.ok _, pass) => (.ok false, { p with pass := pass, count := p.count + 1 })
    | (.error _, pass) => (.ok true, { p with pass := pass })

instance : Visitor Preview where
  start p := { p with pass := { p.pass with sink := p.transform.announce p.pass.sink } }
  visit := visit
  finish p := (.ok (), p)

end Preview

end TableGraph
