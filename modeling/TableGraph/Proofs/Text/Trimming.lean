import Mathlib.Data.List.TakeWhile
import TableGraph.Text

/-!
# Text that stripping and trimming leave alone

A text without blank and format characters is what `stripSpace` leaves, and a text that neither starts
nor ends with white space is what `trim` leaves.
-/

namespace TableGraph.Text

open Unicode (isBlankFormat isWhiteSpace)

/-! ## Stripped text -/

/-- No character is blank or a format character. -/
def IsStripped (s : String) : Prop :=
  ∀ c ∈ s.toList, isBlankFormat c = false

instance : DecidablePred IsStripped := fun s =>
  decidable_of_iff ((s.toList.all fun c => !isBlankFormat c) = true) (by simp [IsStripped])

theorem stripSpace_of_isStripped {s : String} (h : IsStripped s) : stripSpace s = s := by
  have hfilter : (s.toList.filter fun c => !isBlankFormat c) = s.toList :=
    List.filter_eq_self.2 fun c hc => by simp [h c hc]
  rw [stripSpace, hfilter, String.ofList_toList]

theorem isStripped_stripSpace (s : String) : IsStripped (stripSpace s) := by
  intro c hc
  rw [toList_stripSpace] at hc
  simpa using (List.mem_filter.1 hc).2

/-! ## Trimmed text -/

/-- Neither the first character nor the last is white space. -/
def IsTrimmed (s : List Char) : Prop :=
  (∀ c ∈ s.head?, isWhiteSpace c = false) ∧ ∀ c ∈ s.getLast?, isWhiteSpace c = false

instance : DecidablePred IsTrimmed := fun s =>
  decidable_of_iff
    ((s.head?.all fun c => !isWhiteSpace c) = true ∧ (s.getLast?.all fun c => !isWhiteSpace c) = true)
    (by simp [IsTrimmed, Option.all_eq_true])

theorem dropWhile_of_head? {p : Char → Bool} {s : List Char} (h : ∀ c ∈ s.head?, p c = false) :
    s.dropWhile p = s := by
  cases s with
  | nil => rfl
  | cons c rest => exact List.dropWhile_cons_of_neg (by simp [h c rfl])

theorem dropEndWhile_of_getLast? {p : Char → Bool} {s : List Char}
    (h : ∀ c ∈ s.getLast?, p c = false) : dropEndWhile p s = s := by
  rw [← List.head?_reverse] at h
  rw [dropEndWhile, dropWhile_of_head? h, List.reverse_reverse]

theorem getLast?_dropEndWhile (p : Char → Bool) (s : List Char) :
    ∀ c ∈ (dropEndWhile p s).getLast?, p c = false := by
  intro c hc
  rw [dropEndWhile, List.getLast?_reverse] at hc
  have h := List.head?_dropWhile_not p s.reverse
  rw [hc] at h
  exact h

theorem trim_of_isTrimmed {s : String} (h : IsTrimmed s.toList) : trim s = s := by
  rw [trim, dropWhile_of_head? h.1, dropEndWhile_of_getLast? h.2, String.ofList_toList]

theorem isTrimmed_trim (s : String) : IsTrimmed (trim s).toList := by
  rw [trim, String.toList_ofList]
  refine ⟨fun c hc => ?_, getLast?_dropEndWhile _ _⟩
  -- the start of what is left was there before the end was taken off
  obtain ⟨dropped, -, happend⟩ :=
    exists_dropEndWhile_append isWhiteSpace (s.toList.dropWhile isWhiteSpace)
  have hhead : c ∈ (s.toList.dropWhile isWhiteSpace).head? := by
    rw [← happend, List.head?_append, Option.mem_def.1 hc]
    rfl
  have h := List.head?_dropWhile_not isWhiteSpace s.toList
  rw [hhead] at h
  exact h

theorem trim_eq_empty_iff {s : String} : trim s = "" ↔ ∀ c ∈ s.toList, isWhiteSpace c = true := by
  constructor
  · intro h
    have hchars := congrArg String.toList h
    rw [trim, String.toList_ofList, String.toList_empty] at hchars
    obtain ⟨dropped, hdropped, happend⟩ :=
      exists_dropEndWhile_append isWhiteSpace (s.toList.dropWhile isWhiteSpace)
    rw [hchars, List.nil_append] at happend
    intro c hc
    rw [← List.takeWhile_append_dropWhile (p := isWhiteSpace) (l := s.toList)] at hc
    rcases List.mem_append.1 hc with hc | hc
    · exact List.all_eq_true.1 List.all_takeWhile c hc
    · exact hdropped c (happend ▸ hc)
  · intro h
    rw [trim, List.dropWhile_eq_nil_iff.2 h]
    rfl

theorem isTrimmed_trimStart (before : List Char) {s : String} (h : IsTrimmed (before ++ s.toList)) :
    IsTrimmed (trimStart s).toList := by
  rw [trimStart, String.toList_ofList]
  refine ⟨fun c hc => ?_, fun c hc => ?_⟩
  · have hhead := List.head?_dropWhile_not isWhiteSpace s.toList
    rw [hc] at hhead
    exact hhead
  · obtain ⟨dropped, hsuffix⟩ := List.dropWhile_suffix (l := s.toList) isWhiteSpace
    refine h.2 c ?_
    rw [← hsuffix, ← List.append_assoc, List.getLast?_append, Option.mem_def.1 hc]
    rfl

end TableGraph.Text
