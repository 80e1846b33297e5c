import TableGraph.BlankLabel.Identity
import TableGraph.Proofs.BlankLabel.Sanitizing
import TableGraph.Proofs.Iri.Repairable

/-!
# What labels of blank nodes are made of

However a blank node is named, by a seed, by a row and a column, or by counting, its label is not empty
and has no blank or format characters.
-/

namespace TableGraph

open Unicode (category inRanges isBlankFormat separatorRanges controlRanges)
open Text (IsStripped)

/-! ## Characters that show -/

theorem not_inRanges_of_graphic {n : Nat} (hlo : 0x21 ≤ n) (hhi : n ≤ 0x7E) :
    inRanges n separatorRanges = false ∧ inRanges n controlRanges = false := by
  have hall : ∀ n < 0x7F, 0x21 ≤ n →
      inRanges n separatorRanges = false ∧ inRanges n controlRanges = false := by
    decide +kernel
  exact hall n (by omega) hlo

theorem isBlankFormat_of_graphic {c : Char} (hlo : 0x21 ≤ c.toNat) (hhi : c.toNat ≤ 0x7E) :
    isBlankFormat c = false := by
  obtain ⟨hseparator, hcontrol⟩ := not_inRanges_of_graphic hlo hhi
  unfold isBlankFormat category
  rw [hseparator, hcontrol]
  split
  · rename_i h
    split at h
    · cases h
    split at h <;> cases h
  · rename_i h
    split at h
    · cases h
    split at h <;> cases h
  · rfl

theorem isBlankFormat_of_isAlphanum {c : Char} (h : c.isAlphanum = true) : isBlankFormat c = false := by
  rw [Iri.isAlphanum_iff] at h
  exact isBlankFormat_of_graphic (by omega) (by omega)

namespace Text

theorem isStripped_append {a b : String} (ha : IsStripped a) (hb : IsStripped b) :
    IsStripped (a ++ b) := by
  intro c hc
  rw [String.toList_append] at hc
  rcases List.mem_append.1 hc with hc | hc
  · exact ha c hc
  · exact hb c hc

end Text

/-! ## Numbers -/

theorem isAlphanum_digitChar {d : Nat} (h : d < 16) : (Nat.digitChar d).isAlphanum = true := by
  have hall : ∀ d < 16, (Nat.digitChar d).isAlphanum = true := by decide
  exact hall d h

theorem isAlphanum_of_mem_toDigits {n : Nat} {c : Char} (h : c ∈ Nat.toDigits 16 n) :
    c.isAlphanum = true := by
  induction n using Nat.strongRecOn with
  | _ n ih =>
    rw [Nat.toDigits_eq_if (by decide)] at h
    split at h
    · rename_i hn
      obtain rfl := List.mem_singleton.1 h
      exact isAlphanum_digitChar hn
    · rcases List.mem_append.1 h with h | h
      · exact ih (n / 16) (by omega) h
      · obtain rfl := List.mem_singleton.1 h
        exact isAlphanum_digitChar (Nat.mod_lt n (by decide))

theorem isStripped_toString (n : Nat) : IsStripped (toString n) := by
  intro c hc
  rw [Nat.toString_eq_ofList_toDigits, String.toList_ofList] at hc
  have hdigit := Nat.isDigit_of_mem_toDigits (by decide) (by decide) hc
  exact isBlankFormat_of_isAlphanum (by simp [Char.isAlphanum, hdigit])

/-! ## Labels -/

/-- A label with characters, none of them blank or a format character. -/
structure BlankId.IsWellFormed (id : BlankId) : Prop where
  ne_empty : id.label ≠ ""
  stripped : IsStripped id.label

instance : DecidablePred BlankId.IsWellFormed := fun id =>
  decidable_of_iff (id.label ≠ "" ∧ IsStripped id.label) ⟨fun h => ⟨h.1, h.2⟩, fun h => ⟨h.1, h.2⟩⟩

namespace BlankNodes

theorem isWellFormed_anonymousLabel (n : Nat) : BlankId.IsWellFormed ⟨anonymousLabel n⟩ where
  ne_empty h := by
    have hchars := congrArg String.toList h
    rw [anonymousLabel, String.toList_ofList] at hchars
    cases hchars
  stripped c hc := by
    rw [anonymousLabel, String.toList_ofList] at hc
    apply isBlankFormat_of_isAlphanum
    rcases List.mem_cons.1 hc with rfl | hc
    · decide
    unfold hexDigits at hc
    rcases List.mem_append.1 hc with hc | hc
    · obtain ⟨-, rfl⟩ := List.mem_replicate.1 hc
      decide
    · exact isAlphanum_of_mem_toDigits hc

theorem isWellFormed_append_row {before : String} (h : IsStripped before) (row : Nat) :
    BlankId.IsWellFormed ⟨before ++ toString row⟩ where
  ne_empty heq := by
    have hchars := congrArg String.toList heq
    rw [String.toList_append, Nat.toString_eq_ofList_toDigits, String.toList_ofList] at hchars
    exact absurd (List.append_eq_nil_iff.1 hchars).2 Nat.toDigits_ne_nil
  stripped := Text.isStripped_append h (isStripped_toString row)

/-! ## Naming -/

/-- The blank nodes of constants have labels. -/
def AreWellFormed (blanks : BlankNodes) : Prop :=
  ∀ place id, blanks.constants.lookup place = some id → id.IsWellFormed

theorem areWellFormed_fresh : AreWellFormed .fresh := by
  intro place id h
  cases h

theorem mint_wellFormed {blanks : BlankNodes} (h : blanks.AreWellFormed) :
    (mint blanks).2.AreWellFormed ∧ (mint blanks).1.IsWellFormed :=
  ⟨h, isWellFormed_anonymousLabel blanks.minted⟩

theorem name_wellFormed (seed : String) (rule : LabelRule) {blanks : BlankNodes}
    (h : blanks.AreWellFormed) :
    (name seed rule blanks).2.AreWellFormed ∧ (name seed rule blanks).1.IsWellFormed := by
  unfold name
  split
  · exact mint_wellFormed h
  · dsimp only
    split
    · exact mint_wellFormed h
    · rename_i hlabel
      refine ⟨h, ?_, rule.isStripped_sanitize seed⟩
      intro heq
      apply hlabel
      have hempty : rule.sanitize seed = "" := heq
      rw [hempty]
      rfl

theorem ofConstant_wellFormed (place : Address) (seed : String) (rule : LabelRule)
    {blanks : BlankNodes} (h : blanks.AreWellFormed) :
    (ofConstant place seed rule blanks).2.AreWellFormed ∧
      (ofConstant place seed rule blanks).1.IsWellFormed := by
  have hname := name_wellFormed seed rule h
  unfold ofConstant
  split
  · rename_i id hid
    exact ⟨h, h place id hid⟩
  · generalize name seed rule blanks = named at hname
    obtain ⟨made, after⟩ := named
    obtain ⟨hafter, hmade⟩ := hname
    refine ⟨?_, hmade⟩
    intro other id hlookup
    rw [List.lookup_cons] at hlookup
    split at hlookup
    · obtain rfl := Option.some.inj hlookup
      exact hmade
    · exact hafter other id hlookup

theorem ofCell_wellFormed (cell : CellSource) (row : Nat) {blanks : BlankNodes}
    (h : blanks.AreWellFormed) :
    (ofCell cell row blanks).2.AreWellFormed ∧ (ofCell cell row blanks).1.IsWellFormed := by
  unfold ofCell
  cases hname : cell.column.bind Iri.ofText? with
  | none =>
    cases cell.kind with
    | rowIndex | recordIndex => exact ⟨h, isWellFormed_append_row (by decide +kernel) row⟩
    | constant | column | expression => exact mint_wellFormed h
  | some name =>
    cases cell.kind with
    | rowIndex | recordIndex => exact ⟨h, isWellFormed_append_row (by decide +kernel) row⟩
    | constant | column | expression =>
      obtain ⟨column, -, hname⟩ := Option.bind_eq_some_iff.1 hname
      have hstripped : IsStripped (name ++ "_") := by
        refine Text.isStripped_append (fun c hc => ?_) (by decide +kernel)
        rcases Iri.mem_of_ofText? hname hc with rfl | ⟨-, hblank, -⟩
        · exact isBlankFormat_of_graphic (by decide) (by decide)
        · exact hblank
      exact ⟨h, isWellFormed_append_row hstripped row⟩

end BlankNodes

end TableGraph
