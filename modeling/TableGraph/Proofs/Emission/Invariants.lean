import TableGraph.Proofs.Emission.Relations

/-!
# What an emission maintains

`x.Maintains inv post`: wherever the sink stops it, an emission leaves an evaluation with `inv` where it
found one, and what it returns has `post`. The rules follow the ways in which emissions are put
together. What evaluating a tree maintains comes down to naming terms and offering single triples
(`Context.Upholds`), for all trees, scopes and sinks (`Node.emit_maintains`).
-/

namespace TableGraph

namespace Emission

/-- What an emission keeps, also where it is stopped, and what it returns. -/
def Maintains (inv : Pass σ → Prop) (post : α → Prop) (x : Emission σ α) : Prop :=
  ∀ pass, inv pass → inv (x pass).2 ∧ ∀ a, (x pass).1 = .ok a → post a

/-! ## Rules -/

namespace Maintains

variable {inv : Pass σ → Prop}

theorem pure {post : α → Prop} {a : α} (ha : post a) : Maintains inv post (Pure.pure a) := by
  intro pass hpass
  refine ⟨hpass, ?_⟩
  rintro b ⟨⟩
  exact ha

theorem bind {mid : α → Prop} {post : β → Prop} {x : Emission σ α} {f : α → Emission σ β}
    (hx : Maintains inv mid x) (hf : ∀ a, mid a → Maintains inv post (f a)) :
    Maintains inv post (x >>= f) := by
  intro pass hpass
  obtain ⟨hinv, hmid⟩ := hx pass hpass
  rw [bind_apply]
  rcases hrun : x pass with ⟨e | a, after⟩
  · rw [hrun] at hinv
    exact ⟨hinv, fun _ h => by cases h⟩
  · rw [hrun] at hinv hmid
    exact hf a (hmid a rfl) after hinv

theorem naming {post : α → Prop} {x : StateM BlankNodes α}
    (h : ∀ pass, inv pass → inv { pass with blanks := (x pass.blanks).2 } ∧ post (x pass.blanks).1) :
    Maintains inv post (Emission.naming x) := by
  intro pass hpass
  obtain ⟨hinv, hpost⟩ := h pass hpass
  refine ⟨hinv, ?_⟩
  rintro a ⟨⟩
  exact hpost

theorem mono {post weaker : α → Prop} {x : Emission σ α} (hx : Maintains inv post x)
    (h : ∀ a, post a → weaker a) : Maintains inv weaker x :=
  fun pass hpass => ⟨(hx pass hpass).1, fun a ha => h a ((hx pass hpass).2 a ha)⟩

/-- What an emission maintains, as a relation: nothing is asked of the other side. -/
def relation (inv : Pass σ → Prop) : Relation σ σ where
  Related post x _ := Maintains inv post x
  pure := pure
  bind := bind

theorem mapM {post : β → Prop} {f : α → Emission σ β} {l : List α}
    (h : ∀ a ∈ l, Maintains inv post (f a)) : Maintains inv (fun bs => ∀ b ∈ bs, post b) (l.mapM f) :=
  Relation.mapM (R := relation inv) (g := f) h

theorem offer [TripleSink σ] {triples : List Triple}
    (h : ∀ t ∈ triples, ∀ pass, inv pass → inv { pass with sink := (TripleSink.offer t pass.sink).2 }) :
    Maintains inv (fun _ => True) (Emission.offer triples) := by
  intro pass hpass
  refine ⟨?_, fun _ _ => trivial⟩
  obtain ⟨sink, blanks⟩ := pass
  unfold Emission.offer
  induction triples generalizing sink with
  | nil => exact hpass
  | cons t rest ih =>
    have ht := h t List.mem_cons_self ⟨sink, blanks⟩ hpass
    rw [TripleSink.offerAll]
    rcases hanswer : TripleSink.offer t sink with ⟨e | _, after⟩
    · rw [hanswer] at ht
      exact ht
    · rw [hanswer] at ht
      exact ih (fun u hu => h u (List.mem_cons_of_mem _ hu)) after ht

end Maintains

end Emission

/-! ## Trees -/

/-- What evaluating trees in a context upholds: `inv` of the evaluation, and conditions on the terms that
become subjects and objects. -/
structure Context.Upholds [TripleSink σ] (ctx : Context) (inv : Pass σ → Prop)
    (subject object : Term → Prop) : Prop where
  naming : ∀ place node row, Emission.Maintains inv
    (fun terms => ∀ term ∈ terms, object term ∧ (node.isResource = true → subject term))
    (Emission.naming (Node.termsInRow ctx place node row))
  named : ∀ name iri, ctx.naming.iri? name = some iri → object (.iri iri)
  offered : ∀ s property o, subject s → object o →
    (property = Standard.rdfType ∨ ∃ name, ctx.naming.iri? name = some property) →
    ∀ pass, inv pass → inv { pass with sink := (TripleSink.offer ⟨s, property, o⟩ pass.sink).2 }

section
variable [TripleSink σ] {ctx : Context} {inv : Pass σ → Prop} {subject object : Term → Prop}

open Emission (Maintains)

theorem Context.Upholds.carries (h : ctx.Upholds inv subject object) :
    (Maintains.relation inv).Carries ctx ctx.production ctx.production (fun _ _ => True) (fun _ => True)
      subject object where
  below _ _ := trivial
  made {place node row} _ _ := h.naming place node row
  named {name iri} := h.named name iri
  offered htriples := Maintains.offer fun t ht =>
    h.offered t.subject t.property t.object (htriples t ht).1 (htriples t ht).2.1 (htriples t ht).2.2

/-- What naming terms and offering triples uphold, evaluating a tree maintains. -/
theorem Node.emit_maintains (h : ctx.Upholds inv subject object) (place : Address) (node : Node)
    (scope : Scope) :
    Maintains inv (fun terms => ∀ term ∈ terms, object term ∧ (node.isResource = true → subject term))
      (node.emit ctx place scope.cursor) := by
  rw [Node.emit_eq_emitBy rfl]
  exact Node.emitBy_related h.carries place node trivial scope.cursor
    (Scope.within_cursor fun _ _ => trivial)

/-! ## Roots -/

theorem Transform.emitRoots_maintains {t : Transform} {evaluate : Evaluator}
    (h : Context.Upholds ⟨t.naming, evaluate⟩ inv subject object) (scope : Scope) (number : Nat)
    (roots : List Node) :
    Maintains inv (fun terms => ∀ term ∈ terms, object term)
      (t.emitRoots evaluate scope number roots) := by
  induction roots generalizing number with
  | nil => exact Maintains.pure (List.forall_mem_nil _)
  | cons root rest ih =>
    have hroot := Node.emit_maintains h [number] root scope
    rw [Transform.emitRoots]
    refine hroot.bind fun terms hterms => (ih (number + 1)).bind fun more hmore => Maintains.pure ?_
    intro term hterm
    rcases List.mem_append.1 hterm with hterm | hterm
    · exact (hterms term hterm).1
    · exact hmore term hterm

theorem Transform.apply_maintains {t : Transform} {evaluate : Evaluator}
    (h : Context.Upholds ⟨t.naming, evaluate⟩ inv subject object) (scope : Scope) :
    Maintains inv (fun terms => ∀ term ∈ terms, object term) (t.apply evaluate scope) :=
  Transform.emitRoots_maintains h scope 0 t.roots

end

end TableGraph
