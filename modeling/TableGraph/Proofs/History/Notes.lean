import TableGraph.Proofs.Emission.Relations

/-!
# Evaluations with notes

Whenever a node makes terms in the course of an evaluation, this can be noted: where the node stands, and
what it makes. Taking notes changes nothing else (`Transform.Follows.of_related`). What holds of the blank nodes
and the notes when a single node makes terms, and holds of two stretches together if it holds of either
(`Transform.Follows`), holds of evaluations as wholes.
-/

namespace TableGraph

open TripleSink (announce offer offerAll)

/-! ## Notes -/

/-- What a node made: its place, the number of anonymous blank nodes before, and the terms. -/
structure Made where
  place : Address
  node : Node
  minted : Nat
  terms : List Term
  deriving DecidableEq

/-- A sink, with notes of what was made so far. -/
structure Noted (σ : Type) where
  sink : σ
  made : List Made

/-- An evaluation with notes. -/
def Pass.noted (pass : Pass σ) (made : List Made) : Pass (Noted σ) :=
  ⟨⟨pass.sink, made⟩, pass.blanks⟩

/-- The notes of an emission that starts without any. -/
def Emission.made (x : Emission (Noted σ) α) (pass : Pass σ) : List Made :=
  (x (pass.noted [])).2.sink.made

/-- The terms of nodes are named, and noted. -/
def Context.noting (ctx : Context) : Production (Emission (Noted σ)) := fun place node row pass =>
  let (terms, blanks) := node.termsInRow ctx place row pass.blanks
  let note : Made := ⟨place, node, pass.blanks.minted, terms⟩
  (.ok terms, ⟨{ pass.sink with made := pass.sink.made ++ [note] }, blanks⟩)

section
variable {σ : Type} [TripleSink σ]

/-- Triples go to the sink, and are not noted. -/
instance : TripleSink (Noted σ) where
  announce label ns n := { n with sink := announce label ns n.sink }
  offer t n :=
    let (answer, sink) := offer t n.sink
    (answer, { n with sink := sink })

theorem Noted.offerAll_eq (triples : List Triple) (n : Noted σ) :
    offerAll triples n =
      ((offerAll triples n.sink).1, { n with sink := (offerAll triples n.sink).2 }) := by
  induction triples generalizing n with
  | nil => rfl
  | cons t rest ih =>
    rw [offerAll, offerAll]
    rcases h : offer t n.sink with ⟨e | _, sink⟩
    · simp [offer, h]
    · simp [offer, h, ih]

end

/-! ## Transforms with notes -/

namespace Transform

def nodeAt? (t : Transform) : Address → Option Node
  | [] => none
  | [number] => t.roots[number]?
  | number :: above :: place => do
    let node ← t.nodeAt? (above :: place)
    let (_, object) ← node.properties[number]?
    object

section
variable [TripleSink σ] (t : Transform) (evaluate : Evaluator) (scope : Scope)

def noteRoot (number : Nat) (root : Node) : Emission (Noted σ) (List Term) :=
  root.emitBy (Context.noting ⟨t.naming, evaluate⟩) ⟨t.naming, evaluate⟩ [number] scope.cursor

def noteRoots : Nat → List Node → Emission (Noted σ) (List Term)
  | _, [] => pure []
  | number, root :: rest => do
    let terms ← t.noteRoot evaluate scope number root
    let more ← noteRoots (number + 1) rest
    return terms ++ more

def note : Emission (Noted σ) (List Term) :=
  t.noteRoots evaluate scope 0 t.roots

end

/-- What holds of the blank nodes before, the notes and the blank nodes after a stretch of an evaluation:
of one in which nothing is made, of one in which a node of the transform makes terms, and of two stretches
one after the other. -/
structure Follows (t : Transform) (Q : BlankNodes → List Made → BlankNodes → Prop) : Prop where
  nothing : ∀ blanks, Q blanks [] blanks
  append : ∀ {before between after first more}, Q before first between → Q between more after →
    Q before (first ++ more) after
  made : ∀ {place node}, t.nodeAt? place = some node → ∀ evaluate row blanks,
    let run := node.termsInRow ⟨t.naming, evaluate⟩ place row blanks
    Q blanks [⟨place, node, blanks.minted, run.1⟩] run.2

/-! ## Notes change nothing -/

variable {t : Transform} {Q : BlankNodes → List Made → BlankNodes → Prop}

/-- An emission and the one with notes: the notes are added to those there are, and the rest is the same. -/
def Follows.relation (h : t.Follows Q) (σ : Type) : Emission.Relation σ (Noted σ) where
  Related post x y := ∀ pass,
    (∃ more, (∀ made, y (pass.noted made) = ((x pass).1, (x pass).2.noted (made ++ more))) ∧
      Q pass.blanks more (x pass).2.blanks) ∧
    ∀ a, (x pass).1 = .ok a → post a
  pure := by
    intro α post a ha pass
    refine ⟨⟨[], fun made => ?_, h.nothing pass.blanks⟩, ?_⟩
    · rw [List.append_nil]
      rfl
    · rintro b ⟨⟩
      exact ha
  bind := by
    intro α β mid post x y f g hx hf pass
    obtain ⟨⟨first, hfirst, hQ⟩, hmid⟩ := hx pass
    simp only [Emission.bind_apply, hfirst]
    rcases hrun : x pass with ⟨e | a, after⟩
    · rw [hrun] at hQ
      exact ⟨⟨first, fun _ => rfl, hQ⟩, fun _ h => by cases h⟩
    · rw [hrun] at hQ hmid
      obtain ⟨⟨more, hmore, hQ'⟩, hpost⟩ := hf a (hmid a rfl) after
      refine ⟨⟨first ++ more, fun made => ?_, h.append hQ hQ'⟩, hpost⟩
      rw [← List.append_assoc]
      exact hmore (made ++ first)

/-- An emission with notes does what it does without; and what the transform follows holds of it. -/
theorem Follows.of_related (h : t.Follows Q) {post : α → Prop} {x : Emission σ α} {y : Emission (Noted σ) α}
    (hrelated : (h.relation σ).Related post x y) (pass : Pass σ) :
    Q pass.blanks (y.made pass) (x pass).2.blanks ∧
      ∀ made, y (pass.noted made) = ((x pass).1, (x pass).2.noted (made ++ y.made pass)) := by
  obtain ⟨⟨more, hmore, hQ⟩, -⟩ := hrelated pass
  have hmade : y.made pass = more := by
    rw [Emission.made, hmore []]
    rfl
  rw [hmade]
  exact ⟨hQ, hmore⟩

theorem nodeAt?_cons {place : Address} {node below : Node} {number : Nat} {name : IriName}
    (h : t.nodeAt? place = some node) (hbelow : node.properties[number]? = some (name, some below)) :
    t.nodeAt? (number :: place) = some below := by
  match place with
  | [] => cases h
  | above :: place =>
    rw [nodeAt?, h]
    exact congrArg (fun property => property.bind (·.2)) hbelow

section
variable [TripleSink σ]

theorem Follows.carries (h : t.Follows Q) (evaluate : Evaluator) :
    (h.relation σ).Carries ⟨t.naming, evaluate⟩ (Context.production ⟨t.naming, evaluate⟩)
      (Context.noting ⟨t.naming, evaluate⟩) (fun place node => t.nodeAt? place = some node)
      (fun _ => True) (fun _ => True) (fun _ => True) where
  below hnode hbelow := nodeAt?_cons hnode hbelow
  made {place node row} hnode _ pass := by
    refine ⟨⟨[_], fun made => rfl, h.made hnode evaluate row pass.blanks⟩, ?_⟩
    exact fun _ _ _ _ => ⟨trivial, fun _ => trivial⟩
  named _ := trivial
  offered {triples} _ pass := by
    refine ⟨⟨[], fun made => ?_, h.nothing pass.blanks⟩, fun _ _ => trivial⟩
    rw [List.append_nil, Emission.offer, Pass.noted, Noted.offerAll_eq]
    rfl

variable (h : t.Follows Q) (evaluate : Evaluator) (scope : Scope)

theorem Follows.noteRoot {number : Nat} {root : Node} (hroot : t.roots[number]? = some root) :
    (h.relation σ).Related (fun _ => True) (t.emitRoot evaluate scope number root)
      (t.noteRoot evaluate scope number root) := by
  intro pass
  have hcarries := h.carries (σ := σ) evaluate
  have hrelated := Node.emitBy_related hcarries [number] root hroot scope.cursor
    (Scope.within_cursor fun _ _ => trivial)
  rw [emitRoot, Node.emit_eq_emitBy rfl]
  exact ⟨(hrelated pass).1, fun _ _ => trivial⟩

theorem Follows.noteRoots (number : Nat) (roots : List Node)
    (hroots : ∀ i root, roots[i]? = some root → t.roots[number + i]? = some root) :
    (h.relation σ).Related (fun _ => True) (t.emitRoots evaluate scope number roots)
      (t.noteRoots evaluate scope number roots) := by
  induction roots generalizing number with
  | nil => exact (h.relation σ).pure trivial
  | cons root rest ih =>
    have hrest : ∀ i other, rest[i]? = some other → t.roots[number + 1 + i]? = some other := by
      intro i other hother
      rw [Nat.add_assoc, Nat.add_comm 1]
      exact hroots (i + 1) other hother
    refine (h.relation σ).bind (h.noteRoot evaluate scope (hroots 0 root rfl)) fun _ _ => ?_
    exact (h.relation σ).bind (ih (number + 1) hrest) fun _ _ => (h.relation σ).pure trivial

theorem Follows.note :
    (h.relation σ).Related (fun _ => True) (t.apply evaluate scope) (t.note evaluate scope) :=
  h.noteRoots evaluate scope 0 t.roots fun i root hroot => by rw [Nat.zero_add, hroot]

end

end Transform

end TableGraph
