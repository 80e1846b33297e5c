import Mathlib.Data.List.Nodup
import TableGraph.Naming

/-!
# Edited vocabulary lists

A vocabulary list changes by adding a vocabulary, by taking one out, and by collecting a list anew. No
edit makes two vocabularies share a label (`nodup_labels_edited`), and so long as none do, looking a
label up finds every vocabulary there is (`find?_eq_some_iff`). What is announced with a graph is
then what a naming says (`mem_prefixMap_iff`), up to the one case in which the base is not announced.
-/

namespace TableGraph

namespace VocabularyList

/-- Take out the vocabulary of a label; a list that does not bind it stays as it is. -/
def remove (list : VocabularyList) (label : String) : VocabularyList :=
  (list.remove? label).getD list

inductive Edit
  | add (v : Vocabulary)
  | remove (label : String)
  /-- Start again from a list of vocabularies. -/
  | collect (vocabularies : List Vocabulary)
  deriving DecidableEq, Repr

def edit (list : VocabularyList) : Edit → VocabularyList
  | .add v => list.add v
  | .remove label => list.remove label
  | .collect vocabularies => .ofList vocabularies

/-- The list that changes leave, made one after the other to an empty one. -/
def edited (edits : List Edit) : VocabularyList :=
  edits.foldl edit empty

/-! ## Labels -/

theorem nodup_labels_remove {list : VocabularyList} (h : list.labels.Nodup) (label : String) :
    (list.remove label).labels.Nodup := by
  unfold remove remove?
  split
  · exact h.sublist (List.eraseP_sublist.map _)
  · exact h

theorem nodup_labels_edit {list : VocabularyList} (h : list.labels.Nodup) (e : Edit) :
    (list.edit e).labels.Nodup := by
  cases e with
  | add v => exact nodup_labels_add h v
  | remove label => exact nodup_labels_remove h label
  | collect vocabularies => exact nodup_labels_ofList vocabularies

/-- However a list was edited, it binds every label once. -/
theorem nodup_labels_edited (edits : List Edit) : (edited edits).labels.Nodup := by
  suffices h : ∀ list : VocabularyList, list.labels.Nodup → (edits.foldl edit list).labels.Nodup from
    h empty List.nodup_nil
  induction edits with
  | nil => exact fun _ h => h
  | cons e rest ih => exact fun list h => ih _ (nodup_labels_edit h e)

/-! ## Looking up -/

variable {list : VocabularyList} {label ns base : String}

theorem namespace?_eq_none_iff : list.namespace? label = none ↔ list.contains label = false := by
  rw [namespace?, contains, Option.map_eq_none_iff, Option.isSome_eq_false_iff, Option.isNone_iff_eq_none]

theorem find?_eq_some_iff {v : Vocabulary} (h : list.labels.Nodup) :
    list.find? label = some v ↔ v.label = label ∧ v ∈ list.entries := by
  constructor
  · intro hfind
    exact ⟨by simpa using List.find?_some hfind, List.mem_of_find?_eq_some hfind⟩
  · rintro ⟨rfl, hv⟩
    have hfound : (list.entries.find? fun w => w.label == v.label).isSome :=
      List.find?_isSome.2 ⟨v, hv, beq_self_eq_true _⟩
    obtain ⟨w, hw⟩ := Option.isSome_iff_exists.1 hfound
    have hlabel : w.label = v.label := by simpa using List.find?_some hw
    obtain rfl : w = v := List.inj_on_of_nodup_map h (List.mem_of_find?_eq_some hw) hv hlabel
    exact hw

theorem namespace?_eq_some_iff (h : list.labels.Nodup) :
    list.namespace? label = some ns ↔ (label, ns) ∈ list.entries.map fun v => (v.label, v.ns) := by
  simp only [namespace?, Option.map_eq_some_iff, find?_eq_some_iff h, List.mem_map, Prod.mk.injEq]
  exact exists_congr fun v => by tauto

theorem find?_add (v : Vocabulary) :
    (list.add v).find? label = (list.find? label).or ([v].find? fun w => w.label == label) := by
  unfold add add?
  split
  · rename_i hbound
    rcases hfind : list.find? label with _ | w
    · -- another label than that of the vocabulary, which is bound
      have hne : (v.label == label) = false := by
        rw [Bool.eq_false_iff]
        rintro heq
        rw [contains, beq_iff_eq.1 heq, hfind] at hbound
        cases hbound
      rw [Option.getD_none, hfind, Option.none_or, List.find?_singleton, hne]
      rfl
    · rw [Option.getD_none, hfind, Option.some_or]
  · exact List.find?_append

theorem find?_ofList (vocabularies : List Vocabulary) :
    (ofList vocabularies).find? label = vocabularies.find? fun v => v.label == label := by
  suffices h : ∀ list : VocabularyList, (vocabularies.foldl add list).find? label =
      (list.find? label).or (vocabularies.find? fun v => v.label == label) from h empty
  induction vocabularies with
  | nil => exact fun list => (Option.or_none).symm
  | cons v rest ih =>
    intro list
    rw [List.foldl_cons, ih, find?_add, Option.or_assoc, ← List.find?_append]
    rfl

theorem mem_entries_ofList {vocabularies : List Vocabulary} {v : Vocabulary} :
    v ∈ (ofList vocabularies).entries ↔ ∃ before after, vocabularies = before ++ v :: after ∧
      ∀ w ∈ before, w.label ≠ v.label := by
  have hfind : (ofList vocabularies).find? v.label = some v ↔
      v.label = v.label ∧ v ∈ (ofList vocabularies).entries :=
    find?_eq_some_iff (nodup_labels_ofList vocabularies)
  rw [find?_ofList, List.find?_eq_some_iff_append] at hfind
  simpa using hfind.symm

/-! ## What is announced -/

/-- Whether the base is announced under the empty label. -/
def announcesBase (list : VocabularyList) (base : String) : Bool :=
  !list.hasNamespace base && !base.isEmpty && !list.contains ""

theorem mem_prefixMap : (label, ns) ∈ list.prefixMap base ↔
    (list.announcesBase base = true ∧ label = "" ∧ ns = base) ∨
      (label, ns) ∈ list.entries.map fun v => (v.label, v.ns) := by
  unfold prefixMap announcesBase
  dsimp only
  split
  · rename_i h
    rw [List.mem_cons, Prod.mk.injEq]
    simp only [h, true_and]
  · rename_i h
    simp only [h, false_and, false_or, Bool.false_eq_true]

theorem nodup_labels_prefixMap (h : list.labels.Nodup) (base : String) :
    ((list.prefixMap base).map (·.1)).Nodup := by
  have hdeclared : (list.entries.map fun v => (v.label, v.ns)).map (·.1) = list.labels := by
    rw [List.map_map]
    rfl
  unfold prefixMap
  dsimp only
  split
  · rename_i hbase
    rw [List.map_cons, hdeclared]
    refine List.nodup_cons.2 ⟨fun hmem => ?_, h⟩
    rw [contains_iff_mem_labels.2 hmem] at hbase
    simp at hbase
  · rw [hdeclared]
    exact h

end VocabularyList

open VocabularyList

theorem Iri.text_ne_empty (i : Iri) : i.text ≠ "" := by
  intro h
  have hchars : i.chars = [] := by
    rw [← String.toList_ofList (l := i.chars)]
    exact congrArg String.toList h
  simp [Iri.chars] at hchars

/-- What is announced over a base is what a naming says, but for the base itself where it has a label
of its own and the empty label is not bound. -/
theorem Naming.mem_prefixMap_iff {n : Naming} (h : n.vocabularies.labels.Nodup) {label ns : String} :
    (label, ns) ∈ n.vocabularies.prefixMap n.base.text ↔
      n.namespace? label = some ns ∧
        ¬ (label = "" ∧ n.vocabularies.contains "" = false ∧
          n.vocabularies.hasNamespace n.base.text = true) := by
  rw [mem_prefixMap, ← namespace?_eq_some_iff h]
  have hbase : n.base.text.isEmpty = false := by
    rw [Bool.eq_false_iff, Ne, String.isEmpty_iff]
    exact n.base.text_ne_empty
  unfold Naming.namespace?
  rcases hlookup : n.vocabularies.namespace? label with _ | bound
  · -- only the empty label means something without being bound
    have hfree := namespace?_eq_none_iff.1 hlookup
    by_cases hempty : label = ""
    · subst hempty
      cases hhas : n.vocabularies.hasNamespace n.base.text <;>
        simp [announcesBase, hhas, hfree, hbase, @eq_comm _ ns]
    · simp [hempty]
  · have hbound : n.vocabularies.contains label = true := by
      rw [← Bool.not_eq_false, ← namespace?_eq_none_iff, hlookup]
      exact Option.some_ne_none bound
    have hother : ¬ (n.vocabularies.announcesBase n.base.text = true ∧ label = "" ∧
        ns = n.base.text) := by
      rintro ⟨hannounces, rfl, -⟩
      simp [announcesBase, hbound] at hannounces
    have hexcept : ¬ (label = "" ∧ n.vocabularies.contains "" = false ∧
        n.vocabularies.hasNamespace n.base.text = true) := by
      rintro ⟨rfl, hcontains, -⟩
      rw [hbound] at hcontains
      cases hcontains
    simp only [hother, false_or, hexcept, not_false_eq_true, and_true]

end TableGraph
