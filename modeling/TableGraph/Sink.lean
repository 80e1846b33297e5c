import TableGraph.Error
import TableGraph.Term

/-!
# Receivers of triples

A `TripleSink` is told the prefixes of a graph and offered its triples one by one; it may refuse any
of them. Two receivers are given: a `Graph` collects everything, and a `Store` records what it
receives until it is full.
-/

namespace TableGraph

/-- A state that receives triples. -/
class TripleSink (σ : Type) where
  /-- Take note of a prefix and its namespace. -/
  announce : String → String → σ → σ
  /-- Take a triple, or refuse it with an error. -/
  offer : Triple → σ → Except TransformError Unit × σ

namespace TripleSink

def announceAll [TripleSink σ] (prefixes : List (String × String)) (sink : σ) : σ :=
  prefixes.foldl (fun sink p => announce p.1 p.2 sink) sink

/-- Offer triples in order, up to the first that is refused. -/
def offerAll [TripleSink σ] : List Triple → σ → Except TransformError Unit × σ
  | [], sink => (.ok (), sink)
  | t :: rest, sink =>
    match offer t sink with
    | (.ok (), sink) => offerAll rest sink
    | (.error e, sink) => (.error e, sink)

theorem offerAll_append [TripleSink σ] (ts us : List Triple) (sink : σ) :
    offerAll (ts ++ us) sink =
      match offerAll ts sink with
      | (.ok (), sink) => offerAll us sink
      | (.error e, sink) => (.error e, sink) := by
  induction ts generalizing sink with
  | nil => rfl
  | cons t rest ih =>
    rw [List.cons_append, offerAll, offerAll]
    split
    · exact ih _
    · rfl

end TripleSink

/-! ## Graphs -/

/-- Triples in the order in which they were collected, with the prefixes announced, by label. -/
structure Graph where
  triples : Array Triple
  prefixes : List (String × String)
  deriving DecidableEq, Repr

namespace Graph

def empty : Graph := ⟨#[], []⟩

/-- How many triples there are, duplicates counted. -/
def size (g : Graph) : Nat := g.triples.size

def isEmpty (g : Graph) : Bool := g.triples.isEmpty

def toList (g : Graph) : List Triple := g.triples.toList

def push (g : Graph) (t : Triple) : Graph :=
  { g with triples := g.triples.push t }

@[simp] theorem toList_push (g : Graph) (t : Triple) : (g.push t).toList = g.toList ++ [t] := by
  simp [push, toList]

/-- Set the namespace of a label in a table ordered by labels. -/
def bind (label ns : String) : List (String × String) → List (String × String)
  | [] => [(label, ns)]
  | entry :: rest =>
    match compare label entry.1 with
    | .lt => (label, ns) :: entry :: rest
    | .eq => (label, ns) :: rest
    | .gt => entry :: bind label ns rest

def addPrefix (g : Graph) (label ns : String) : Graph :=
  { g with prefixes := bind label ns g.prefixes }

/-- Put the triples in order. -/
def sort (g : Graph) : Graph :=
  { g with triples := (g.toList.mergeSort fun a b => (compare a b).isLE).toArray }

/-- Drop every element that the one before it equals. -/
def dropRepeats [DecidableEq α] : List α → List α
  | [] => []
  | x :: rest => if rest.head? = some x then dropRepeats rest else x :: dropRepeats rest

/-- Put the triples in order, each once. -/
def dedupe (g : Graph) : Graph :=
  { g with triples := (dropRepeats g.sort.toList).toArray }

/-- The graph without its triples; the prefixes stay. -/
def drained (g : Graph) : Graph :=
  { g with triples := #[] }

/-- Every triple is accepted. -/
instance : TripleSink Graph where
  announce label ns g := g.addPrefix label ns
  offer t g := (.ok (), g.push t)

theorem offerAll_eq (ts : List Triple) (g : Graph) :
    TripleSink.offerAll ts g = (.ok (), { g with triples := g.triples ++ ts.toArray }) := by
  induction ts generalizing g with
  | nil => simp [TripleSink.offerAll]
  | cons t rest ih =>
    rw [TripleSink.offerAll]
    simp [TripleSink.offer, ih, push]

end Graph

/-! ## Stores -/

/-- A record of everything received, with the number of triples after which every other is refused,
if there is one. -/
structure Store where
  prefixes : Array (String × String)
  triples : Array Triple
  capacity : Option Nat
  deriving DecidableEq, Repr

namespace Store

def empty (capacity : Option Nat) : Store := ⟨#[], #[], capacity⟩

def isFull (s : Store) : Bool :=
  match s.capacity with
  | some n => n ≤ s.triples.size
  | none => false

/-- A store that is full is closed. -/
instance : TripleSink Store where
  announce label ns s := { s with prefixes := s.prefixes.push (label, ns) }
  offer t s :=
    if s.isFull then (.error (.sink "store closed"), s)
    else (.ok (), { s with triples := s.triples.push t })

end Store

end TableGraph
