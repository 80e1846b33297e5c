import TableGraph.Proofs.History.Notes
import TableGraph.Proofs.Visitor.Delivery
import TableGraph.Visitor.Preview

/-!
# The life of a transform

A transform is used in steps: it is applied to rows and records, previewed and exported, with sinks that
may refuse triples. The blank nodes that a step leaves are those that the next one starts from
(`Transform.after`); what nodes make in all these steps is noted (`Transform.madeIn`). What a transform
follows in a single evaluation, it follows all its life (`Transform.Follows.steps`).
-/

namespace TableGraph

open Visitor (visitEach visitAll)

/-! ## Visits with notes -/

/-- What is made while scopes are visited, one after the other. -/
def Visitor.madeInEach [Visitor ν] (made : Scope → ν → List Made) : List Scope → ν → List Made
  | [], _ => []
  | scope :: rest, v =>
    made scope v ++
      match visit scope v with
      | (.ok false, v) => madeInEach made rest v
      | (.ok true, _) | (.error _, _) => []

/-- What is made while a preview visits a scope. -/
def Preview.made (scope : Scope) (p : Preview) : List Made :=
  if p.isEnough then [] else (p.transform.note (σ := Graph) p.evaluate scope).made p.pass

/-- What is made while an export visits roots in a scope, counted from a number. -/
def Export.madeInRoots [TripleSink σ] (scope : Scope) : Nat → List Node → Export σ → List Made
  | _, [], _ => []
  | number, root :: rest, x =>
    (x.transform.noteRoot (σ := Graph) x.evaluate scope number root).made x.pass ++
      match x.visitRoots scope number [root] with
      | (.ok (), x) => madeInRoots scope (number + 1) rest x
      | (.error _, _) => []

/-! ## Steps -/

inductive Step : Type 1
  | applied {σ : Type} [TripleSink σ] (evaluate : Evaluator) (scope : Scope) (sink : σ)
  | previewed (evaluate : Evaluator) (config : Config) (scopes : List Scope)
  | exported {σ : Type} [TripleSink σ] (evaluate : Evaluator) (config : Config) (scopes : List Scope)
    (receiver : σ)

namespace Step

def after (t : Transform) : Step → BlankNodes → BlankNodes
  | applied evaluate scope sink, blanks => (t.apply evaluate scope ⟨sink, blanks⟩).2.blanks
  | previewed evaluate config scopes, blanks =>
    (visitAll scopes (Preview.new t evaluate config blanks)).2.pass.blanks
  | exported evaluate config scopes receiver, blanks =>
    (visitAll scopes (Export.new t evaluate config blanks receiver)).2.pass.blanks

def made (t : Transform) : Step → BlankNodes → List Made
  | applied evaluate scope sink, blanks => (t.note evaluate scope).made ⟨sink, blanks⟩
  | previewed evaluate config scopes, blanks =>
    Visitor.madeInEach Preview.made scopes (Visitor.start (Preview.new t evaluate config blanks))
  | exported evaluate config scopes receiver, blanks =>
    Visitor.madeInEach (fun scope x => x.madeInRoots scope 0 t.roots) scopes
      (Visitor.start (Export.new t evaluate config blanks receiver))

end Step

namespace Transform

def after (t : Transform) : List Step → BlankNodes → BlankNodes
  | [], blanks => blanks
  | step :: rest, blanks => t.after rest (step.after t blanks)

/-- What nodes make in steps, one after the other. -/
def madeIn (t : Transform) : List Step → BlankNodes → List Made
  | [], _ => []
  | step :: rest, blanks => step.made t blanks ++ t.madeIn rest (step.after t blanks)

end Transform

/-! ## Visits follow -/

section
variable {t : Transform} {Q : BlankNodes → List Made → BlankNodes → Prop}

theorem Transform.Follows.visitEach [Visitor ν] (h : t.Follows Q) (inv : ν → Prop)
    (blanks : ν → BlankNodes) (made : Scope → ν → List Made)
    (hvisit : ∀ scope v, inv v →
      inv (Visitor.visit scope v).2 ∧ Q (blanks v) (made scope v) (blanks (Visitor.visit scope v).2))
    (scopes : List Scope) (v : ν) (hv : inv v) :
    Q (blanks v) (Visitor.madeInEach made scopes v) (blanks (Visitor.visitEach scopes v).2) := by
  induction scopes generalizing v with
  | nil => exact h.nothing (blanks v)
  | cons scope rest ih =>
    obtain ⟨hinv, hQ⟩ := hvisit scope v hv
    rw [Visitor.madeInEach, Visitor.visitEach]
    rcases hrun : Visitor.visit scope v with ⟨e | (_ | _), after⟩
    · rw [hrun] at hQ
      exact h.append hQ (h.nothing _)
    · rw [hrun] at hQ hinv
      exact h.append hQ (ih after hinv)
    · rw [hrun] at hQ
      exact h.append hQ (h.nothing _)

theorem Preview.visit_follows (h : t.Follows Q) (scope : Scope) (p : Preview) (hp : p.transform = t) :
    (p.visit scope).2.transform = t ∧ Q p.pass.blanks (p.made scope) (p.visit scope).2.pass.blanks := by
  subst hp
  rw [visit, made]
  by_cases henough : p.isEnough = true
  · rw [if_pos henough, if_pos henough]
    exact ⟨rfl, h.nothing _⟩
  · have hQ := (h.of_related (h.note p.evaluate scope) p.pass).1
    rw [if_neg henough, if_neg henough]
    rcases hrun : (p.transform.apply (σ := Graph) p.evaluate scope) p.pass with ⟨e | terms, pass⟩
    · rw [hrun] at hQ
      exact ⟨rfl, hQ⟩
    · rw [hrun] at hQ
      exact ⟨rfl, hQ⟩

end

namespace Export

variable {σ : Type} [TripleSink σ]

theorem flush_keeps (x : Export σ) :
    x.flush.2.transform = x.transform ∧ x.flush.2.pass.blanks = x.pass.blanks := by
  unfold flush
  split
  · exact ⟨rfl, rfl⟩
  · dsimp only
    split <;> exact ⟨rfl, rfl⟩

theorem visitRoots_single (scope : Scope) (number : Nat) (root : Node) (x : Export σ) :
    (x.visitRoots scope number [root]).2.transform = x.transform ∧
      (x.visitRoots scope number [root]).2.pass.blanks =
        (x.transform.emitRoot (σ := Graph) x.evaluate scope number root x.pass).2.blanks := by
  rw [visitRoots]
  rcases x.transform.emitRoot (σ := Graph) x.evaluate scope number root x.pass with ⟨e | terms, pass⟩
  · exact ⟨rfl, rfl⟩
  · dsimp only
    split
    · have hkeeps := flush_keeps { x with pass := pass }
      rcases hflush : flush { x with pass := pass } with ⟨e | _, y⟩
      · rw [hflush] at hkeeps
        exact hkeeps
      · rw [hflush] at hkeeps
        exact hkeeps
    · exact ⟨rfl, rfl⟩

variable {t : Transform} {Q : BlankNodes → List Made → BlankNodes → Prop}

theorem visitRoots_follows (h : t.Follows Q) (scope : Scope) (number : Nat) (roots : List Node)
    (hroots : ∀ i root, roots[i]? = some root → t.roots[number + i]? = some root) (x : Export σ)
    (hx : x.transform = t) :
    (x.visitRoots scope number roots).2.transform = t ∧
      Q x.pass.blanks (x.madeInRoots scope number roots) (x.visitRoots scope number roots).2.pass.blanks := by
  induction roots generalizing number x with
  | nil => exact ⟨hx, h.nothing _⟩
  | cons root rest ih =>
    subst hx
    have hroot : x.transform.roots[number]? = some root := hroots 0 root rfl
    have hQ := (h.of_related (h.noteRoot (σ := Graph) x.evaluate scope hroot) x.pass).1
    obtain ⟨htransform, hblanks⟩ := visitRoots_single scope number root x
    rw [← hblanks] at hQ
    have happend : x.visitRoots scope number (root :: rest) = _ := visitRoots_append scope number [root] rest x
    rw [happend, madeInRoots]
    rcases hrun : x.visitRoots scope number [root] with ⟨e | _, y⟩
    · rw [hrun] at hQ htransform
      exact ⟨htransform, h.append hQ (h.nothing _)⟩
    · rw [hrun] at hQ htransform
      have hrest := ih (number + 1) (fun i other hother => by
        rw [Nat.add_assoc, Nat.add_comm 1]
        exact hroots (i + 1) other hother) y htransform
      exact ⟨hrest.1, h.append hQ hrest.2⟩

theorem visit_follows (h : t.Follows Q) (scope : Scope) (x : Export σ) (hx : x.transform = t) :
    (x.visit scope).2.transform = t ∧
      Q x.pass.blanks (x.madeInRoots scope 0 t.roots) (x.visit scope).2.pass.blanks := by
  obtain ⟨htransform, hQ⟩ := visitRoots_follows h scope 0 t.roots
    (fun i root hroot => by rw [Nat.zero_add, hroot]) x hx
  rw [visit, hx]
  rcases hrun : x.visitRoots scope 0 t.roots with ⟨e | _, y⟩
  · rw [hrun] at hQ htransform
    exact ⟨htransform, hQ⟩
  · rw [hrun] at hQ htransform
    obtain ⟨hkept, hblanks⟩ := flush_keeps y
    dsimp only
    rcases hflush : y.flush with ⟨e | _, z⟩
    · rw [hflush] at hkept hblanks
      exact ⟨hkept.trans htransform, hblanks ▸ hQ⟩
    · rw [hflush] at hkept hblanks
      exact ⟨hkept.trans htransform, hblanks ▸ hQ⟩

end Export

/-! ## Steps follow -/

section
variable {t : Transform} {Q : BlankNodes → List Made → BlankNodes → Prop}

theorem Transform.Follows.step (h : t.Follows Q) (step : Step) (blanks : BlankNodes) :
    Q blanks (step.made t blanks) (step.after t blanks) := by
  cases step with
  | applied evaluate scope sink => exact (h.of_related (h.note evaluate scope) ⟨sink, blanks⟩).1
  | previewed evaluate config scopes =>
    have heach := h.visitEach (·.transform = t) (·.pass.blanks) Preview.made (Preview.visit_follows h) scopes
      (Visitor.start (Preview.new t evaluate config blanks)) rfl
    rw [Step.after, visitAll]
    rcases hrun : Visitor.visitEach scopes (Visitor.start (Preview.new t evaluate config blanks))
      with ⟨e | _, p⟩
    · rw [hrun] at heach
      exact heach
    · rw [hrun] at heach
      exact heach
  | exported evaluate config scopes receiver =>
    have heach := h.visitEach (·.transform = t) (·.pass.blanks)
      (fun scope x => x.madeInRoots scope 0 t.roots) (Export.visit_follows h) scopes
      (Visitor.start (Export.new t evaluate config blanks receiver)) rfl
    rw [Step.after, visitAll]
    rcases hrun : Visitor.visitEach scopes (Visitor.start (Export.new t evaluate config blanks receiver))
      with ⟨e | _, x⟩
    · rw [hrun] at heach
      exact heach
    · rw [hrun] at heach
      have hflush := x.flush_keeps.2
      exact hflush ▸ heach

/-- What is followed at every node is followed all the life of a transform. -/
theorem Transform.Follows.steps (h : t.Follows Q) (steps : List Step) (blanks : BlankNodes) :
    Q blanks (t.madeIn steps blanks) (t.after steps blanks) := by
  induction steps generalizing blanks with
  | nil => exact h.nothing blanks
  | cons step rest ih => exact h.append (h.step step blanks) (ih (step.after t blanks))

end

end TableGraph
