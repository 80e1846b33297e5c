import TableGraph.Proofs.BlankLabel.Labels

/-!
# Labels that are told apart

Anonymous blank nodes have labels of their own: counting gives each number another label
(`anonymousLabel_injective`), and none of them is a label made of a cell, in which there is an underscore
(`ofCell_cases`). The label of a constant is what sanitizing leaves of its seed; where that is nothing,
the constant is anonymous (`name_eq`).
-/

namespace TableGraph

open Unicode (inRanges isWhiteSpace isBlankFormat whiteSpaceRanges letterRanges numberRanges
  separatorRanges controlRanges)

/-! ## Counting in hexadecimal digits -/

namespace BlankNodes

def ofHexDigits (digits : List Char) : Nat :=
  digits.foldl (fun n c => 16 * n + (Text.hexValue? c).getD 0) 0

theorem ofHexDigits_concat (digits : List Char) (c : Char) :
    ofHexDigits (digits ++ [c]) = 16 * ofHexDigits digits + (Text.hexValue? c).getD 0 := by
  rw [ofHexDigits, List.foldl_append]
  rfl

theorem hexValue?_digitChar {d : Nat} (h : d < 16) : Text.hexValue? (Nat.digitChar d) = some d := by
  have hall : ∀ d < 16, Text.hexValue? (Nat.digitChar d) = some d := by decide
  exact hall d h

theorem ofHexDigits_zeros_append (zeros : Nat) (digits : List Char) :
    ofHexDigits (List.replicate zeros '0' ++ digits) = ofHexDigits digits := by
  induction zeros with
  | zero => rfl
  | succ zeros ih => exact ih

theorem ofHexDigits_toDigits (n : Nat) : ofHexDigits (Nat.toDigits 16 n) = n := by
  induction n using Nat.strongRecOn with
  | _ n ih =>
    rw [Nat.toDigits_eq_if (by decide)]
    split
    · rename_i h
      rw [← List.nil_append [n.digitChar], ofHexDigits_concat, hexValue?_digitChar h]
      exact Nat.zero_add n
    · rw [ofHexDigits_concat, ih (n / 16) (by omega), hexValue?_digitChar (Nat.mod_lt n (by decide))]
      exact Nat.div_add_mod n 16

theorem anonymousLabel_injective {m n : Nat} (h : anonymousLabel m = anonymousLabel n) : m = n := by
  have hchars := String.ofList_injective h
  have hvalues := congrArg ofHexDigits (List.cons.inj hchars).2
  simpa only [hexDigits, ofHexDigits_zeros_append, ofHexDigits_toDigits] using hvalues

theorem underscore_notMem_anonymousLabel (n : Nat) : '_' ∉ (anonymousLabel n).toList := by
  intro h
  rw [anonymousLabel, String.toList_ofList, List.mem_cons] at h
  rcases h with h | h
  · exact absurd h (by decide)
  · have hdigit : Char.isAlphanum '_' = true := by
      rcases List.mem_append.1 h with h | h
      · exact absurd (List.mem_replicate.1 h).2 (by decide)
      · exact isAlphanum_of_mem_toDigits h
    exact absurd hdigit (by decide)

/-! ## Blank nodes of cells -/

/-- The blank node of a cell is called by what it reads, and then its label is no anonymous one, or it is
anonymous. -/
theorem ofCell_cases (cell : CellSource) (row : Nat) :
    (∃ id, ofCell cell row = pure id ∧ ∀ n, id.label ≠ anonymousLabel n) ∨ ofCell cell row = mint := by
  have hapart {label : String} (h : '_' ∈ label.toList) (n : Nat) : label ≠ anonymousLabel n := by
    rintro rfl
    exact underscore_notMem_anonymousLabel n h
  unfold ofCell
  split
  · exact .inl ⟨_, rfl, hapart (by simp [String.toList_append])⟩
  · exact .inl ⟨_, rfl, hapart (by simp [String.toList_append])⟩
  · exact .inl ⟨_, rfl, hapart (by simp [String.toList_append])⟩
  · exact .inr rfl

end BlankNodes

/-! ## Blank nodes of constants -/

theorem isBlankFormat_of_isWhiteSpace {c : Char} (h : isWhiteSpace c = true) : isBlankFormat c = true := by
  have hall : ∀ r ∈ whiteSpaceRanges, ∀ offset < r.2 - r.1 + 1,
      inRanges (r.1 + offset) letterRanges = false ∧ inRanges (r.1 + offset) numberRanges = false ∧
        (inRanges (r.1 + offset) separatorRanges || inRanges (r.1 + offset) controlRanges) = true := by
    decide +kernel
  obtain ⟨r, hr, hlo, hhi⟩ := Unicode.exists_range_of_inRanges h
  obtain ⟨hletter, hnumber, hblank⟩ := hall r hr (c.toNat - r.1) (by omega)
  rw [Nat.add_sub_cancel' hlo] at hletter hnumber hblank
  unfold isBlankFormat Unicode.category
  rw [hletter, hnumber]
  rcases Bool.or_eq_true_iff.1 hblank with hseparator | hcontrol
  · rw [hseparator]
    rfl
  · rw [hcontrol]
    cases inRanges c.toNat separatorRanges <;> rfl

theorem Text.stripSpace_of_trim {s : String} (h : trim s = "") : stripSpace s = "" := by
  have hnone : (s.toList.filter fun c => !isBlankFormat c) = [] := by
    rw [List.filter_eq_nil_iff]
    intro c hc
    rw [isBlankFormat_of_isWhiteSpace (trim_eq_empty_iff.1 h c hc)]
    exact Bool.false_ne_true
  rw [stripSpace, hnone, String.ofList_nil]

theorem LabelRule.sanitize_of_trim (rule : LabelRule) {seed : String} (h : Text.trim seed = "") :
    rule.sanitize seed = "" := by
  rw [sanitize, Text.stripSpace_of_trim h]
  rfl

namespace BlankNodes

/-- Sanitizing alone decides how a constant is named: white space is nothing to it. -/
theorem name_eq (seed : String) (rule : LabelRule) :
    name seed rule = if rule.sanitize seed = "" then mint else pure ⟨rule.sanitize seed⟩ := by
  unfold name
  split
  · rename_i h
    rw [if_pos (rule.sanitize_of_trim (String.isEmpty_iff.1 h))]
  · simp only [String.isEmpty_iff]

/-- The label that a constant gets after so many anonymous blank nodes. -/
def constantLabel (seed : String) (rule : LabelRule) (minted : Nat) : String :=
  if rule.sanitize seed = "" then anonymousLabel minted else rule.sanitize seed

theorem ofConstant_of_unnamed {place : Address} {blanks : BlankNodes}
    (h : blanks.constants.lookup place = none) (seed : String) (rule : LabelRule) :
    ofConstant place seed rule blanks =
      (⟨constantLabel seed rule blanks.minted⟩,
        { constants := (place, ⟨constantLabel seed rule blanks.minted⟩) :: blanks.constants
          minted := if rule.sanitize seed = "" then blanks.minted + 1 else blanks.minted }) := by
  rw [ofConstant, h, name_eq]
  by_cases hlabel : rule.sanitize seed = ""
  · simp only [constantLabel, hlabel, if_true]
    rfl
  · simp only [constantLabel, hlabel, if_false]
    rfl

end BlankNodes

end TableGraph
