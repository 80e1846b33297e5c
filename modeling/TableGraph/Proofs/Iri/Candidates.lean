import TableGraph.Proofs.Iri.Resolved

/-!
# What candidates come to

A candidate for an IRI comes to nothing, to an absolute IRI or to an error. It comes to nothing only where
there is nothing to read, or nothing to read it against (`resolveCandidate_eq_none_iff`). An absolute IRI
stands for itself over every base (`resolveCandidate_of_isAbsolute`), and so does what a candidate has come
to once (`candidates_are_settled`).
-/

namespace TableGraph.Iri

variable {base : Option Iri} {candidate : String}

/-! ## References -/

theorem parse_eq_ok_iff {text : String} {i : Iri} :
    parse text = .ok i ↔ Reference.parse text = .ok (.absolute i) := by
  rw [parse, read, Reference.parse]
  split <;> simp_all

theorem not_isAbsolute_of_relative {tail : Tail} (h : Reference.parse candidate = .ok (.relative tail)) :
    ¬ IsAbsolute candidate := by
  rintro ⟨i, hi⟩
  rw [parse_eq_ok_iff, h] at hi
  cases hi

theorem IsAbsolute.isEmpty_eq (h : IsAbsolute candidate) : candidate.isEmpty = false := by
  rw [Bool.eq_false_iff, Ne, String.isEmpty_iff]
  rintro rfl
  exact not_isAbsolute_of_relative rfl h

/-! ## Candidates -/

theorem resolveCandidate_of_isAbsolute (base : Option Iri) (h : IsAbsolute candidate) :
    resolveCandidate base candidate = .ok (some candidate) := by
  have hempty := h.isEmpty_eq
  obtain ⟨i, hi⟩ := h
  have hread := parse_eq_ok_iff.1 hi
  simp only [resolveCandidate, hempty, hread, text_of_parse hi, Bool.false_eq_true, if_false]

theorem resolveCandidate_of_relative {tail : Tail} (h : Reference.parse candidate = .ok (.relative tail)) :
    resolveCandidate none candidate = .ok none := by
  simp only [resolveCandidate, h, ite_self]

theorem resolveCandidate_of_fault {fault : Fault} (hne : candidate ≠ "")
    (h : Reference.parse candidate = .error fault) :
    resolveCandidate none candidate = .error (.malformedIri candidate fault) := by
  have hempty : candidate.isEmpty = false := by simpa using hne
  simp only [resolveCandidate, hempty, h, Bool.false_eq_true, if_false]

theorem resolveCandidate_over (base : Iri) (hne : candidate ≠ "") (h : ¬ IsAbsolute candidate) :
    resolveCandidate (some base) candidate =
      match resolveWithSlash base candidate with
      | .ok iri => .ok (some iri.text)
      | .error fault => .error (.malformedIri candidate fault) := by
  have hempty : candidate.isEmpty = false := by simpa using hne
  rcases hread : Reference.parse candidate with fault | iri | tail
  · cases hresolve : resolveWithSlash base candidate <;>
      simp only [resolveCandidate, hempty, hread, hresolve, Bool.false_eq_true, if_false]
  · exact absurd ⟨iri, parse_eq_ok_iff.2 hread⟩ h
  · cases hresolve : resolveWithSlash base candidate <;>
      simp only [resolveCandidate, hempty, hread, hresolve, Bool.false_eq_true, if_false]

theorem resolveCandidate_over_cases (base : Iri) (hne : candidate ≠ "") :
    (∃ iri, resolveCandidate (some base) candidate = .ok (some iri)) ∨
      ∃ fault, resolveCandidate (some base) candidate = .error (.malformedIri candidate fault) := by
  by_cases h : IsAbsolute candidate
  · exact .inl ⟨candidate, resolveCandidate_of_isAbsolute _ h⟩
  · rw [resolveCandidate_over base hne h]
    cases resolveWithSlash base candidate with
    | ok iri => exact .inl ⟨iri.text, rfl⟩
    | error fault => exact .inr ⟨fault, rfl⟩

theorem resolveCandidate_eq_none_iff : resolveCandidate base candidate = .ok none ↔
    candidate = "" ∨ base = none ∧ ∃ tail, Reference.parse candidate = .ok (.relative tail) := by
  constructor
  · intro hnone
    by_cases hne : candidate = ""
    · exact .inl hne
    refine .inr ?_
    cases base with
    | some base =>
      rcases resolveCandidate_over_cases base hne with ⟨iri, h⟩ | ⟨fault, h⟩ <;>
        · rw [h] at hnone
          cases hnone
    | none =>
      rcases hread : Reference.parse candidate with fault | iri | tail
      · rw [resolveCandidate_of_fault hne hread] at hnone
        cases hnone
      · rw [resolveCandidate_of_isAbsolute none ⟨iri, parse_eq_ok_iff.2 hread⟩] at hnone
        cases hnone
      · exact ⟨rfl, tail, rfl⟩
  · rintro (rfl | ⟨rfl, tail, htail⟩)
    · rfl
    · exact resolveCandidate_of_relative htail

/-- **Candidates are settled once and for all.** A candidate comes to nothing exactly if it is empty, or
relative where there is no base; over a base any other candidate comes to an IRI or to an error that names
it. The IRI is absolute, and comes to itself over every base. An absolute IRI comes to itself. -/
theorem candidates_are_settled (hbase : ∀ b ∈ base, b.IsValid) (candidate : String) :
    (resolveCandidate base candidate = .ok none ↔
      candidate = "" ∨ base = none ∧ ∃ tail, Reference.parse candidate = .ok (.relative tail)) ∧
    (base ≠ none → candidate ≠ "" → (∃ iri, resolveCandidate base candidate = .ok (some iri)) ∨
      ∃ fault, resolveCandidate base candidate = .error (.malformedIri candidate fault)) ∧
    (∀ iri, resolveCandidate base candidate = .ok (some iri) →
      IsAbsolute iri ∧ ∀ other, resolveCandidate other iri = .ok (some iri)) ∧
    (IsAbsolute candidate → resolveCandidate base candidate = .ok (some candidate)) := by
  refine ⟨resolveCandidate_eq_none_iff, fun hsome hne => ?_, fun iri hiri => ?_,
    resolveCandidate_of_isAbsolute base⟩
  · obtain ⟨b, rfl⟩ := Option.ne_none_iff_exists'.1 hsome
    exact resolveCandidate_over_cases b hne
  · have habsolute := isAbsolute_of_resolveCandidate hbase hiri
    exact ⟨habsolute, fun other => resolveCandidate_of_isAbsolute other habsolute⟩

/-- A local name behind a colon is found below the root, and then is the same over every base. -/
theorem candidates_are_settled_behind_colon :
    let base : Iri := ⟨"http".toList, ⟨some ⟨none, "ex.org".toList, none⟩, ['/'], none, none⟩⟩
    (∀ b ∈ some base, b.IsValid) ∧
      resolveCandidate (some base) ":x" = .ok (some "http://ex.org/:x") ∧
      ∀ other, resolveCandidate other "http://ex.org/:x" = .ok (some "http://ex.org/:x") := by
  intro base
  have hread : read "http://ex.org/".toList = .ok base := by decide +kernel
  have hbase : ∀ b ∈ some base, b.IsValid := by
    rintro b ⟨⟩
    exact isValid_of_read hread
  have hcandidate : resolveCandidate (some base) ":x" = .ok (some "http://ex.org/:x") := by decide +kernel
  obtain ⟨-, -, hsettled, -⟩ := candidates_are_settled hbase ":x"
  exact ⟨hbase, hcandidate, (hsettled _ hcandidate).2⟩

end TableGraph.Iri
