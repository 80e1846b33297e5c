import TableGraph.Proofs.Emission.Statements

/-!
# What an emission offers

`x.Offers before a triples after` says what an emission does to any sink: it offers `triples` in order,
up to the first that is refused; if none is, it returns `a`, and the blank nodes go from `before` to
`after`. The rules follow the ways in which emissions are put together, so an emission is compared with
what a tree says (`Emission.Says`) step by step.
-/

namespace TableGraph

open TripleSink (offerAll)

/-! ## Running a step -/

namespace Emission

theorem bind_apply (x : Emission σ α) (f : α → Emission σ β) (pass : Pass σ) :
    (x >>= f) pass =
      match x pass with
      | (.ok a, pass) => f a pass
      | (.error e, pass) => (.error e, pass) := by
  change ExceptT.bindCont f (x pass).1 (x pass).2 = _
  rcases x pass with ⟨_ | _, _⟩ <;> rfl

variable [TripleSink σ]

/-- What an emission does to any sink, from some blank nodes on. -/
def Offers (x : Emission σ α) (before : BlankNodes) (a : α) (triples : List Triple)
    (after : BlankNodes) : Prop :=
  ∀ sink : σ,
    match offerAll triples sink with
    | (.ok (), sink') => x ⟨sink, before⟩ = (.ok a, ⟨sink', after⟩)
    | (.error e, sink') => ∃ left, x ⟨sink, before⟩ = (.error e, ⟨sink', left⟩)

/-- An emission offers what is said, and returns its terms. -/
def Says (x : Emission σ (List Term)) (said : StateM BlankNodes Statements) : Prop :=
  ∀ blanks, x.Offers blanks (said blanks).1.terms (said blanks).1.triples (said blanks).2

/-- An emission without a result offers the triples that are told. -/
def Tells (x : Emission σ Unit) (told : StateM BlankNodes (List Triple)) : Prop :=
  ∀ blanks, x.Offers blanks () (told blanks).1 (told blanks).2

namespace Offers

theorem pure (a : α) (blanks : BlankNodes) :
    (Pure.pure a : Emission σ α).Offers blanks a [] blanks :=
  fun _ => rfl

theorem naming (x : StateM BlankNodes α) (blanks : BlankNodes) :
    (Emission.naming x : Emission σ α).Offers blanks (x blanks).1 [] (x blanks).2 :=
  fun _ => rfl

theorem offer (triples : List Triple) (blanks : BlankNodes) :
    (Emission.offer triples : Emission σ Unit).Offers blanks () triples blanks := by
  intro sink
  rcases h : offerAll triples sink with ⟨e | _, sink'⟩
  · exact ⟨blanks, by rw [Emission.offer, h]⟩
  · simp only [Emission.offer, h]

theorem bind {x : Emission σ α} {f : α → Emission σ β} {before between after : BlankNodes} {a : α}
    {b : β} {first more : List Triple} (hx : x.Offers before a first between)
    (hf : (f a).Offers between b more after) : (x >>= f).Offers before b (first ++ more) after := by
  intro sink
  have hxs := hx sink
  rw [TripleSink.offerAll_append]
  rcases h : offerAll first sink with ⟨e | _, sink'⟩
  · rw [h] at hxs
    obtain ⟨left, hxs⟩ := hxs
    exact ⟨left, by rw [bind_apply, hxs]⟩
  · rw [h] at hxs
    rw [bind_apply, hxs]
    exact hf sink'

theorem map {x : Emission σ α} {before after : BlankNodes} {a : α} {triples : List Triple}
    (hx : x.Offers before a triples after) (f : α → β) :
    (x >>= fun a => Pure.pure (f a)).Offers before (f a) triples after := by
  have h : (x >>= fun a => Pure.pure (f a)).Offers before (f a) (triples ++ []) after :=
    hx.bind (pure (f a) after)
  rwa [List.append_nil] at h

/-- What an emission returns and where it leaves the sink are up to the sink's answers to the triples. -/
theorem result {x : Emission σ α} {before after : BlankNodes} {a : α} {triples : List Triple}
    (h : x.Offers before a triples after) (sink : σ) :
    (x ⟨sink, before⟩).1 = (offerAll triples sink).1.map (fun _ => a) ∧
      (x ⟨sink, before⟩).2.sink = (offerAll triples sink).2 := by
  have hs := h sink
  rcases ho : offerAll triples sink with ⟨e | _, sink'⟩
  · rw [ho] at hs
    obtain ⟨left, hs⟩ := hs
    exact ⟨congrArg Prod.fst hs, congrArg (·.2.sink) hs⟩
  · rw [ho] at hs
    exact ⟨congrArg Prod.fst hs, congrArg (·.2.sink) hs⟩

end Offers

theorem Says.naming (x : StateM BlankNodes (List Term)) :
    (Emission.naming x : Emission σ (List Term)).Says (do return ⟨← x, []⟩) :=
  fun blanks => Offers.naming x blanks

theorem Says.naming_bind {x : StateM BlankNodes α} {f : α → Emission σ (List Term)}
    {g : α → StateM BlankNodes Statements} (h : ∀ a, (f a).Says (g a)) :
    (Emission.naming x >>= f).Says (x >>= g) :=
  fun blanks => (Offers.naming x blanks).bind (h _ _)

/-- Saying something and then telling what follows from its terms tells both, in that order. -/
theorem Says.bind_tells {x : Emission σ (List Term)} {f : List Term → Emission σ Unit}
    {said : StateM BlankNodes Statements} {told : List Term → StateM BlankNodes (List Triple)}
    (hx : x.Says said) (hf : ∀ terms, (f terms).Tells (told terms)) :
    (x >>= f).Tells (do
      let s ← said
      return s.triples ++ (← told s.terms)) :=
  fun blanks => (hx blanks).bind (hf (said blanks).1.terms (said blanks).2)

theorem Tells.bind {x y : Emission σ Unit} {told more : StateM BlankNodes (List Triple)}
    (hx : x.Tells told) (hy : y.Tells more) :
    (x >>= fun _ => y).Tells (do
      let first ← told
      let rest ← more
      return first ++ rest) :=
  fun blanks => (hx blanks).bind (hy (told blanks).2)

theorem Tells.offer (triples : List Triple) :
    (Emission.offer triples : Emission σ Unit).Tells (pure triples) :=
  fun blanks => Offers.offer triples blanks

theorem Tells.nothing : (Pure.pure () : Emission σ Unit).Tells (Pure.pure []) :=
  fun blanks => Offers.pure () blanks

theorem Says.mapM {f : β → Emission σ (List Term)} {g : β → StateM BlankNodes Statements}
    {l : List β} (h : ∀ x ∈ l, (f x).Says (g x)) :
    (do return (← l.mapM f).flatten).Says (Statements.concat <$> l.mapM g) := by
  suffices hl : ∀ blanks, (l.mapM f).Offers blanks ((l.mapM g blanks).1.map (·.terms))
      ((l.mapM g blanks).1.flatMap (·.triples)) (l.mapM g blanks).2 from
    fun blanks => (hl blanks).map List.flatten
  induction l with
  | nil => exact fun blanks => Offers.pure _ blanks
  | cons x rest ih =>
    intro blanks
    rw [List.mapM_cons, List.mapM_cons]
    have hx := h x (by simp) blanks
    have hrest := ih (fun y hy => h y (by simp [hy])) (g x blanks).2
    exact hx.bind (hrest.map ((g x blanks).1.terms :: ·))

end Emission

end TableGraph
