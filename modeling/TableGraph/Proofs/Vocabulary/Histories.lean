import Mathlib.Data.List.Induction
import TableGraph.Proofs.Vocabulary.Edits

/-!
# Histories of a vocabulary list

What a vocabulary list holds is read off the edits that were made. An edit binds a label (`Edit.Binds`) or
takes its binding away (`Edit.Unbinds`), and a vocabulary is there exactly if some edit bound it and no later
one took it away (`mem_entries_edit` for one edit, `mem_entries_edited` for all). That an edit is refused is
seen from its answer, and a refused edit changes nothing (`edit_of_not_answer`).
-/

namespace TableGraph

namespace VocabularyList

/-- What an edit is answered: whether it was made. -/
def answer (list : VocabularyList) : Edit → Bool
  | .add v => (list.add? v).isSome
  | .remove label => (list.remove? label).isSome
  | .collect _ => true

/-- The edit binds the label of a vocabulary to it: the label is free, or the vocabulary is the first of that
label in what is collected. -/
def Edit.Binds (list : VocabularyList) (v : Vocabulary) : Edit → Prop
  | .add w => w = v ∧ v.label ∉ list.labels
  | .remove _ => False
  | .collect vocabularies => ∃ before after, vocabularies = before ++ v :: after ∧
      ∀ w ∈ before, w.label ≠ v.label

/-- After the edit a label is not bound to what it was bound to before. -/
def Edit.Unbinds (label : String) : Edit → Prop
  | .add _ => False
  | .remove other => other = label
  | .collect _ => True

variable {list : VocabularyList} {label : String} {v : Vocabulary} {e : Edit}

/-! ## Answers -/

theorem answer_add : list.answer (.add v) = true ↔ v.label ∉ list.labels := by
  rw [← contains_iff_mem_labels, answer, add?]
  split <;> simp_all

theorem answer_remove : list.answer (.remove label) = true ↔ label ∈ list.labels := by
  rw [← contains_iff_mem_labels, answer, remove?]
  split <;> simp_all

theorem edit_of_not_answer (h : ¬ list.answer e = true) : list.edit e = list := by
  cases e with
  | add v => exact congrArg (·.getD list) (Option.not_isSome_iff_eq_none.1 h)
  | remove label => exact congrArg (·.getD list) (Option.not_isSome_iff_eq_none.1 h)
  | collect vocabularies => exact absurd rfl h

theorem entries_edit_add (h : v.label ∉ list.labels) :
    (list.edit (.add v)).entries = list.entries ++ [v] := by
  obtain ⟨longer, hlonger⟩ := Option.isSome_iff_exists.1 (answer_add.2 h)
  rw [edit, add, hlonger, Option.getD_some, entries_add? hlonger]

theorem entries_edit_remove :
    (list.edit (.remove label)).entries = list.entries.eraseP fun v => v.label == label := by
  rw [edit, remove, remove?]
  split
  · rfl
  · rename_i hfree
    rw [contains_iff_mem_labels, labels, List.mem_map] at hfree
    exact (List.eraseP_of_forall_not fun v hv hlabel => hfree ⟨v, hv, beq_iff_eq.1 hlabel⟩).symm

theorem exists_entries_edit_remove (h : label ∈ list.labels) :
    ∃ before v after, list.entries = before ++ v :: after ∧ v.label = label ∧
      (list.edit (.remove label)).entries = before ++ after := by
  obtain ⟨w, hw, hlabel⟩ := List.mem_map.1 h
  obtain ⟨v, before, after, -, hv, hentries, herase⟩ :=
    List.exists_of_eraseP (p := fun v => v.label == label) hw (beq_iff_eq.2 hlabel)
  exact ⟨before, v, after, hentries, beq_iff_eq.1 hv, entries_edit_remove.trans herase⟩

theorem mem_entries_edit_remove (hlist : list.labels.Nodup) :
    v ∈ (list.edit (.remove label)).entries ↔ v ∈ list.entries ∧ v.label ≠ label := by
  by_cases h : label ∈ list.labels
  · obtain ⟨before, w, after, hentries, rfl, hrest⟩ := exists_entries_edit_remove h
    have hothers : w.label ∉ (before ++ after).map (·.label) := by
      rw [labels, hentries, List.map_append, List.map_cons, List.nodup_middle, ← List.map_append] at hlist
      exact (List.nodup_cons.1 hlist).1
    rw [hrest, hentries, List.perm_middle.mem_iff, List.mem_cons]
    constructor
    · exact fun hv => ⟨.inr hv, fun hlabel => hothers (List.mem_map.2 ⟨v, hv, hlabel⟩)⟩
    · rintro ⟨rfl | hv, hlabel⟩
      · exact absurd rfl hlabel
      · exact hv
  · rw [edit_of_not_answer (answer_remove.not.2 h)]
    exact (and_iff_left_of_imp fun hv hlabel => h (List.mem_map.2 ⟨v, hv, hlabel⟩)).symm

theorem notMem_labels_edit_remove (hlist : list.labels.Nodup) :
    label ∉ (list.edit (.remove label)).labels := by
  rintro hlabel
  obtain ⟨v, hv, rfl⟩ := List.mem_map.1 hlabel
  exact ((mem_entries_edit_remove hlist).1 hv).2 rfl

/-! ## Where a vocabulary comes from -/

/-- One edit: a vocabulary is in the list because the edit bound it, or because it was there and the edit did
not take it away. -/
theorem mem_entries_edit (hlist : list.labels.Nodup) :
    v ∈ (list.edit e).entries ↔ e.Binds list v ∨ v ∈ list.entries ∧ ¬ e.Unbinds v.label := by
  cases e with
  | add w =>
    by_cases hfree : w.label ∈ list.labels
    · have hnew : ¬ (w = v ∧ v.label ∉ list.labels) := by
        rintro ⟨rfl, hv⟩
        exact hv hfree
      rw [edit_of_not_answer (answer_add.not.2 (not_not_intro hfree))]
      simp [Edit.Binds, Edit.Unbinds, hnew]
    · rw [entries_edit_add hfree, List.mem_append, List.mem_singleton]
      simp only [Edit.Binds, Edit.Unbinds, not_false_eq_true, and_true]
      rw [or_comm]
      exact or_congr_left ⟨fun h => ⟨h.symm, h ▸ hfree⟩, fun h => h.1.symm⟩
  | remove label =>
    rw [mem_entries_edit_remove hlist]
    simp [Edit.Binds, Edit.Unbinds, eq_comm]
  | collect vocabularies =>
    rw [edit, mem_entries_ofList]
    simp [Edit.Binds, Edit.Unbinds]

theorem edited_append_singleton (edits : List Edit) (e : Edit) :
    edited (edits ++ [e]) = (edited edits).edit e :=
  List.foldl_concat ..

/-- All edits: a vocabulary is in the list exactly if some edit bound it and none that came later took it
away. -/
theorem mem_entries_edited (edits : List Edit) : v ∈ (edited edits).entries ↔
    ∃ before e after, edits = before ++ e :: after ∧ e.Binds (edited before) v ∧
      ∀ later ∈ after, ¬ later.Unbinds v.label := by
  -- the last edit is the one that `mem_entries_edit` is about
  induction edits using List.reverseRecOn with
  | nil => simp [edited, empty]
  | append_singleton edits last ih =>
    rw [edited_append_singleton, mem_entries_edit (nodup_labels_edited edits), ih]
    constructor
    · rintro (hbinds | ⟨⟨before, e, after, rfl, hbinds, hkept⟩, hlast⟩)
      · exact ⟨edits, last, [], rfl, hbinds, by simp⟩
      · refine ⟨before, e, after ++ [last], by simp, hbinds, fun later hlater => ?_⟩
        obtain hlater | hlater := List.mem_append.1 hlater
        · exact hkept later hlater
        · exact List.mem_singleton.1 hlater ▸ hlast
    · rintro ⟨before, e, after, hedits, hbinds, hkept⟩
      rcases List.eq_nil_or_concat' after with rfl | ⟨rest, final, rfl⟩
      · obtain ⟨rfl, hlast⟩ := List.append_inj' hedits rfl
        exact .inl ((List.singleton_inj.1 hlast) ▸ hbinds)
      · rw [← List.cons_append, ← List.append_assoc] at hedits
        obtain ⟨rfl, hlast⟩ := List.append_inj' hedits rfl
        obtain rfl := List.singleton_inj.1 hlast
        exact .inr ⟨⟨before, e, rest, rfl, hbinds, fun later h => hkept later (by simp [h])⟩,
          hkept last (by simp)⟩

end VocabularyList

open VocabularyList

/-- **A vocabulary list keeps the first binding of a label, in the order of the bindings.** After any edits no
label is bound twice. Adding is answered true exactly for a free label, and then appends at the end; otherwise
the list stays as it is. Taking out is answered true exactly for a bound label, and then takes out that
vocabulary only and frees the label; otherwise the list stays as it is. A label is looked up to the whole
vocabulary that the latest edit which could bind it bound, unless it was taken out since.

A list is collected by an edit, so that the histories which start with one are those of a collected list, such
as the predefined one. -/
theorem vocabularies_keep_first_binding (edits : List Edit) :
    let list := edited edits
    list.labels.Nodup ∧
      (∀ v, (list.answer (.add v) = true ↔ v.label ∉ list.labels) ∧
        (v.label ∉ list.labels → (list.edit (.add v)).entries = list.entries ++ [v]) ∧
        (v.label ∈ list.labels → list.edit (.add v) = list)) ∧
      (∀ label, (list.answer (.remove label) = true ↔ label ∈ list.labels) ∧
        (label ∈ list.labels → ∃ before v after, list.entries = before ++ v :: after ∧ v.label = label ∧
          (list.edit (.remove label)).entries = before ++ after) ∧
        (label ∉ list.labels → list.edit (.remove label) = list) ∧
        ∀ v, v.label = label → (list.edit (.remove label)).answer (.add v) = true) ∧
      ∀ label v, list.find? label = some v ↔ v.label = label ∧
        ∃ before e after, edits = before ++ e :: after ∧ e.Binds (edited before) v ∧
          ∀ later ∈ after, ¬ later.Unbinds label := by
  intro list
  have hlist : list.labels.Nodup := nodup_labels_edited edits
  refine ⟨hlist, fun v => ⟨answer_add, entries_edit_add, fun h => ?_⟩,
    fun label => ⟨answer_remove, exists_entries_edit_remove, fun h => ?_, ?_⟩, fun label v => ?_⟩
  · exact edit_of_not_answer (answer_add.not.2 (not_not_intro h))
  · exact edit_of_not_answer (answer_remove.not.2 h)
  · rintro v rfl
    exact answer_add.2 (notMem_labels_edit_remove hlist)
  · rw [find?_eq_some_iff hlist]
    exact and_congr_right fun hlabel => hlabel ▸ mem_entries_edited edits

/-- A predefined label is kept against another vocabulary until it is taken out; then the other is added at
the end and looked up. -/
theorem vocabularies_keep_first_binding_again :
    let foaf : Vocabulary := ⟨"foaf", "http://a/", "http://a/terms", .url⟩
    let tried : List Edit := [.collect predefined.entries, .add foaf]
    let freed : List Edit := tried ++ [.remove "foaf"]
    (edited tried = predefined ∧ (edited tried).answer (.add foaf) = false) ∧
      (edited freed).labels = ["rdf", "rdfs", "owl", "xsd", "vcard"] ∧
      ((edited freed).edit (.add foaf)).entries = (edited freed).entries ++ [foaf] ∧
      (edited (freed ++ [.add foaf])).find? "foaf" = some foaf := by
  intro foaf tried freed
  have hlabels : (edited freed).labels = ["rdf", "rdfs", "owl", "xsd", "vcard"] := by decide
  have hfree : foaf.label ∉ (edited freed).labels := by decide
  have hbound : foaf.label ∈ (edited tried).labels := by decide
  refine ⟨⟨by decide, ?_⟩, hlabels, ?_, ?_⟩
  · rw [Bool.eq_false_iff, Ne, ((vocabularies_keep_first_binding tried).2.1 foaf).1]
    exact not_not_intro hbound
  · exact ((vocabularies_keep_first_binding freed).2.1 foaf).2.1 hfree
  · exact ((vocabularies_keep_first_binding (freed ++ [.add foaf])).2.2.2 "foaf" foaf).2
      ⟨rfl, freed, .add foaf, [], rfl, ⟨rfl, hfree⟩, by simp⟩

end TableGraph
