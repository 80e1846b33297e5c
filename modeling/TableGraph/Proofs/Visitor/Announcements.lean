import TableGraph.Proofs.Visitor.Refusal
import TableGraph.Proofs.Vocabulary.Edits

/-!
# Announced prefixes

The prefixes of a transform are announced when a visit starts, to the receiver of an export and to the
graph of a preview. `Informed` writes down everything that a sink is told, in order: whatever a visit
visits, and however it ends, the sink is told the prefixes first, each once, and after them triples only
(`Export.visitAll_informed`, `Preview.visitAll_informed`). And what it is told of a label is what the
label means where names are resolved.
-/

namespace TableGraph

open TripleSink (offer offerAll announce announceAll)
open Visitor (visitEach visitAll)

/-! ## Informed sinks -/

/-- What a sink is told: a prefix with its namespace, or a triple, which it answers. -/
inductive Notice
  | announced (label ns : String)
  | offered (triple : Triple) (answer : Answer)

/-- A sink, with everything that it was told. -/
structure Informed (σ : Type) where
  sink : σ
  notices : List Notice

namespace Informed

instance [TripleSink σ] : TripleSink (Informed σ) where
  announce label ns w := ⟨announce label ns w.sink, w.notices ++ [.announced label ns]⟩
  offer t w :=
    let (answer, sink) := offer t w.sink
    (answer, ⟨sink, w.notices ++ [.offered t answer]⟩)

def announcements (prefixes : List (String × String)) : List Notice :=
  prefixes.map fun p => .announced p.1 p.2

def offers (answers : List (Triple × Answer)) : List Notice :=
  answers.map fun o => .offered o.1 o.2

/-- First each of the prefixes, in their order, and then no prefix any more. -/
def Opens (prefixes : List (String × String)) (notices : List Notice) : Prop :=
  ∃ answers, notices = announcements prefixes ++ offers answers

variable [TripleSink σ]

theorem announceAll_eq (prefixes : List (String × String)) (w : Informed σ) :
    announceAll prefixes w = ⟨announceAll prefixes w.sink, w.notices ++ announcements prefixes⟩ := by
  induction prefixes generalizing w with
  | nil => exact congrArg (Informed.mk w.sink) (List.append_nil _).symm
  | cons p rest ih =>
    have hrest := ih (announce p.1 p.2 w)
    rw [announcements, List.map_cons, List.append_cons]
    exact hrest

theorem offerAll_eq (triples : List Triple) (w : Informed σ) :
    offerAll triples w =
      ((offerAll triples w.sink).1,
        ⟨(offerAll triples w.sink).2, w.notices ++ offers (Watched.answers triples w.sink)⟩) := by
  induction triples generalizing w with
  | nil => simp [offerAll, Watched.answers, offers]
  | cons t rest ih =>
    rw [offerAll, offerAll, Watched.answers]
    rcases h : offer t w.sink with ⟨e | _, sink⟩
    · simp [offer, h, offers]
    · simp [offer, h, ih, offers]

end Informed

/-! ## Exports -/

namespace Export

variable {σ : Type} [TripleSink σ]

/-- A whole visit tells the receiver the prefixes, and then triples only; the receiver does not notice
that it is informed. -/
theorem visitAll_informed (scopes : List Scope) (x : Export σ) (h : x.buffer.toList = []) :
    let run := visitAll scopes x
    let noted := visitAll scopes (x.redirect (⟨x.receiver, []⟩ : Informed σ))
    run.1 = noted.1 ∧ run.2.receiver = noted.2.receiver.sink ∧
      Informed.Opens x.transform.prefixMap noted.2.receiver.notices := by
  intro run noted
  let informed : Informed σ := ⟨x.receiver, []⟩
  obtain ⟨hrun, hleft⟩ := (visitAll_passes scopes x h).answer
  obtain ⟨hnoted, hreceiver⟩ := (visitAll_passes scopes (x.redirect informed) h).answer
  have hstart : (Visitor.start (x.redirect informed)).receiver =
      ⟨(Visitor.start x).receiver, Informed.announcements x.transform.prefixMap⟩ :=
    Informed.announceAll_eq x.transform.prefixMap informed
  rw [hstart, Informed.offerAll_eq] at hnoted hreceiver
  exact ⟨hrun.trans hnoted.symm, hleft.trans (congrArg Informed.sink hreceiver).symm,
    _, congrArg Informed.notices hreceiver⟩

end Export

/-! ## Previews -/

theorem visitAll_eq_visitEach [Visitor ν] (hfinish : ∀ v : ν, Visitor.finish v = (.ok (), v))
    (scopes : List Scope) (v : ν) : visitAll scopes v = visitEach scopes (Visitor.start v) := by
  rw [visitAll]
  rcases visitEach scopes (Visitor.start v) with ⟨e | _, w⟩
  · rfl
  · exact hfinish w

namespace Preview

structure Into (σ : Type) where
  transform : Transform
  evaluate : Evaluator
  sampleLimit : Nat
  pass : Pass σ
  count : Nat

/-- The preview with another sink in place of its graph. -/
def into (p : Preview) (sink : σ) : Into σ :=
  ⟨p.transform, p.evaluate, p.sampleLimit, ⟨sink, p.pass.blanks⟩, p.count⟩

namespace Into

variable {σ : Type} [TripleSink σ]

/-- Collect the triples of a row or record, as a preview does. -/
def visit (scope : Scope) (p : Into σ) : Except TransformError Bool × Into σ :=
  if 0 < p.sampleLimit && p.sampleLimit ≤ p.count then (.ok true, p)
  else
    match (p.transform.apply (σ := σ) p.evaluate scope) p.pass with
    | (.ok _, pass) => (.ok false, { p with pass := pass, count := p.count + 1 })
    | (.error _, pass) => (.ok true, { p with pass := pass })

instance : Visitor (Into σ) where
  start p := { p with pass := { p.pass with sink := p.transform.announce p.pass.sink } }
  visit := visit
  finish p := (.ok (), p)

def preview (w : Into (Informed Graph)) : Preview :=
  ⟨w.transform, w.evaluate, w.sampleLimit, ⟨w.pass.sink.sink, w.pass.blanks⟩, w.count⟩

def notices (w : Into (Informed Graph)) : List Notice := w.pass.sink.notices

/-- The same is done to an informed graph as to one that is not, and it is told of triples only. -/
structure Mirrors (w : Into (Informed Graph)) (noted : Except TransformError α × Into (Informed Graph))
    (run : Except TransformError α × Preview) : Prop where
  answer : noted.1 = run.1
  preview : noted.2.preview = run.2
  notices : ∃ answers, noted.2.notices = w.notices ++ Informed.offers answers

theorem visit_mirrors (scope : Scope) (w : Into (Informed Graph)) :
    w.Mirrors (w.visit scope) (w.preview.visit scope) := by
  by_cases henough : w.preview.isEnough = true
  · have hw : w.visit scope = (.ok true, w) := if_pos henough
    rw [hw, visit_of_isEnough _ scope henough]
    exact ⟨rfl, rfl, [], (List.append_nil _).symm⟩
  · have hsaid {τ : Type} [TripleSink τ] := w.transform.apply_offers (σ := τ) w.evaluate scope w.pass.blanks
    have hgraph : (w.preview.transform.apply w.preview.evaluate scope) w.preview.pass = _ :=
      hsaid.graph w.pass.sink.sink
    have hinformed := hsaid w.pass.sink
    rw [Informed.offerAll_eq, Graph.offerAll_eq] at hinformed
    have hpreview : w.preview.visit scope = _ := if_neg henough
    have hw : w.visit scope = _ := if_neg henough
    -- both applications return, and leave the same graph
    have hpass : w.pass = ⟨w.pass.sink, w.pass.blanks⟩ := rfl
    rw [hpass, hinformed] at hw
    rw [hgraph] at hpreview
    rw [hw, hpreview]
    exact ⟨rfl, rfl, _, rfl⟩

theorem visitEach_mirrors (scopes : List Scope) (w : Into (Informed Graph)) :
    w.Mirrors (visitEach scopes w) (visitEach scopes w.preview) := by
  induction scopes generalizing w with
  | nil => exact ⟨rfl, rfl, [], (List.append_nil _).symm⟩
  | cons scope rest ih =>
    obtain ⟨hanswer, hpreview, answers, hnotices⟩ := visit_mirrors scope w
    have hvisit : Visitor.visit scope w = w.visit scope := rfl
    have hplain : Visitor.visit scope w.preview = w.preview.visit scope := rfl
    rw [visitEach, visitEach, hvisit, hplain]
    generalize w.visit scope = noted at hanswer hpreview hnotices
    generalize w.preview.visit scope = run at hanswer hpreview
    obtain ⟨answer, v⟩ := noted
    obtain ⟨_, p⟩ := run
    subst hanswer hpreview
    rcases answer with e | stop
    · exact ⟨rfl, rfl, answers, hnotices⟩
    · cases stop with
      | true => exact ⟨rfl, rfl, answers, hnotices⟩
      | false =>
        obtain ⟨hrest, hleft, more, htold⟩ := ih v
        refine ⟨hrest, hleft, answers ++ more, ?_⟩
        rw [Informed.offers, List.map_append, ← List.append_assoc]
        exact htold.trans (congrArg (· ++ Informed.offers more) hnotices)

end Into

/-- A whole visit tells the graph the prefixes, and then triples only; the graph does not notice that it
is informed. -/
theorem visitAll_informed (scopes : List Scope) (p : Preview) :
    let run := visitAll scopes p
    let noted := visitAll scopes (p.into (⟨p.graph, []⟩ : Informed Graph))
    run.1 = noted.1 ∧ run.2 = noted.2.preview ∧
      Informed.Opens p.transform.prefixMap noted.2.notices := by
  intro run noted
  let started : Into (Informed Graph) := Visitor.start (p.into ⟨p.graph, []⟩)
  have htold : started.pass.sink =
      ⟨p.transform.announce p.graph, Informed.announcements p.transform.prefixMap⟩ :=
    Informed.announceAll_eq p.transform.prefixMap ⟨p.graph, []⟩
  have hstart : started.preview = Visitor.start p := by
    unfold Into.preview
    rw [htold]
    rfl
  obtain ⟨hanswer, hpreview, answers, hnotices⟩ := Into.visitEach_mirrors scopes started
  rw [hstart] at hanswer hpreview
  have hbefore : started.notices = Informed.announcements p.transform.prefixMap :=
    congrArg Informed.notices htold
  rw [hbefore] at hnotices
  have hrun : run = visitEach scopes (Visitor.start p) := visitAll_eq_visitEach (fun _ => rfl) scopes p
  have hnoted : noted = visitEach scopes started := visitAll_eq_visitEach (fun _ => rfl) scopes _
  rw [hrun, hnoted]
  exact ⟨hanswer.symm, hpreview.symm, answers, hnotices⟩

end Preview

/-- **What is announced is what names mean.** However a list of vocabularies was edited, and over any
base: no label is announced twice, and labels are announced with their namespaces, every label that has
one, but for the empty label where it is not bound and the base is the namespace of another. In a visit of
rows or of records, by an export after any calls or by a preview, each of these prefixes of the transform is
announced once, in order, before the first triple is offered, and none after it. -/
theorem announced_prefixes_agree {σ : Type} [TripleSink σ] (edits : List VocabularyList.Edit)
    (base : Iri) :
    let list := VocabularyList.edited edits
    let n : Naming := ⟨base, list⟩
    let announced := list.prefixMap base.text
    ((announced.map (·.1)).Nodup ∧ ∀ label ns, (label, ns) ∈ announced ↔
      n.namespace? label = some ns ∧
        ¬ (label = "" ∧ list.contains "" = false ∧ list.hasNamespace base.text = true)) ∧
    (∀ (t : Transform) (evaluate : Evaluator) (config : Config) (blanks : BlankNodes) (receiver : σ)
        (calls : List Export.Call) (scopes : List Scope),
      let x := (Export.new t evaluate config blanks receiver).afterCalls calls
      let run := visitAll scopes x
      let noted := visitAll scopes (x.redirect (⟨x.receiver, []⟩ : Informed σ))
      run.1 = noted.1 ∧ run.2.receiver = noted.2.receiver.sink ∧
        Informed.Opens (t.naming.vocabularies.prefixMap t.naming.base.text) noted.2.receiver.notices) ∧
    ∀ (p : Preview) (scopes : List Scope),
      let run := visitAll scopes p
      let noted := visitAll scopes (p.into (⟨p.graph, []⟩ : Informed Graph))
      let own := p.transform.naming
      run.1 = noted.1 ∧ run.2 = noted.2.preview ∧
        Informed.Opens (own.vocabularies.prefixMap own.base.text) noted.2.notices := by
  intro list n announced
  have hlabels : n.vocabularies.labels.Nodup := VocabularyList.nodup_labels_edited edits
  refine ⟨⟨VocabularyList.nodup_labels_prefixMap hlabels base.text, ?_⟩, ?_, ?_⟩
  · intro label ns
    exact n.mem_prefixMap_iff hlabels
  · intro t evaluate config blanks receiver calls scopes x
    have hempty : x.buffer.toList = [] := Export.toList_buffer_afterCalls rfl calls
    obtain ⟨_, _, _, hx⟩ :=
      Export.afterCalls_eq_moved calls (Export.new t evaluate config blanks receiver) rfl
    have htransform : x.transform = t := congrArg Export.transform hx
    have hinformed := Export.visitAll_informed scopes x hempty
    rw [htransform] at hinformed
    exact hinformed
  · intro p scopes
    exact Preview.visitAll_informed scopes p

end TableGraph
