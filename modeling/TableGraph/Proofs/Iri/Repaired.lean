import Mathlib.Data.List.Infix
import TableGraph.Proofs.Iri.Repairable
import TableGraph.Proofs.Text.Trimming

/-!
# What a repair leaves

A repaired text is a clean reference (`IsCleanReference`): it has no blank or format characters, none that
an IRI never contains, and no two underscores in a row. A clean reference is not repaired any more
(`ofText?_of_isCleanReference`), so repairing is a projection (`repairing_projects`).
-/

namespace TableGraph.Iri

open Text (underscoreRunsFrom underscoreRuns collapseUnderscores IsStripped)
open Unicode (isBlankFormat)

/-! ## Runs of underscores -/

theorem underscoreRuns_ne_nil {p : Char → Bool} {s : List Char} (h : s ≠ []) : underscoreRuns p s ≠ [] := by
  cases s with
  | nil => exact absurd rfl h
  | cons c rest => cases hc : p c <;> simp [underscoreRuns, underscoreRunsFrom, hc]

theorem underscoreRuns_eq_self {p : Char → Bool} {s : List Char} (h : ∀ c ∈ s, p c = false) :
    underscoreRuns p s = s := by
  rw [underscoreRuns]
  induction s with
  | nil => rfl
  | cons c rest ih =>
    obtain ⟨hc, hrest⟩ := List.forall_mem_cons.1 h
    rw [underscoreRunsFrom, if_neg (by simp [hc]), ih hrest]

theorem underscoreRuns_of_notMem {p : Char → Bool} {s : List Char} (h : '_' ∉ underscoreRuns p s) :
    underscoreRuns p s = s := by
  rw [underscoreRuns] at h ⊢
  induction s with
  | nil => rfl
  | cons c rest ih =>
    rw [underscoreRunsFrom] at h ⊢
    split at h
    · exact absurd List.mem_cons_self h
    · rename_i hc
      rw [if_neg hc, ih fun hmem => h (List.mem_cons_of_mem c hmem)]

/-- In the middle of a run of underscores no further one is written, and never two in a row. -/
theorem not_infix_underscoreRunsFrom (inside : Bool) (s : List Char) :
    (inside = true → (underscoreRunsFrom (· == '_') inside s).head? ≠ some '_') ∧
      ¬ "__".toList <:+: underscoreRunsFrom (· == '_') inside s := by
  induction s generalizing inside with
  | nil => simp [underscoreRunsFrom]
  | cons c rest ih =>
    obtain ⟨hhead, hinside⟩ := ih true
    by_cases hc : c = '_'
    · rw [underscoreRunsFrom, if_pos (by simp [hc])]
      cases inside with
      | true => exact ih true
      | false =>
        refine ⟨fun hin => absurd hin Bool.false_ne_true, fun hdouble => ?_⟩
        rcases List.infix_cons_iff.1 hdouble with hstart | hdouble
        · obtain ⟨more, hmore⟩ := (List.cons_prefix_cons.1 hstart).2
          exact hhead rfl (by rw [← hmore]; rfl)
        · exact hinside hdouble
    · rw [underscoreRunsFrom, if_neg (by simpa using hc)]
      refine ⟨fun _ => by simpa using hc, fun hdouble => ?_⟩
      rcases List.infix_cons_iff.1 hdouble with hstart | hdouble
      · exact hc (List.cons_prefix_cons.1 hstart).1.symm
      · exact (ih false).2 hdouble

theorem not_infix_collapseUnderscores (s : List Char) : ¬ "__".toList <:+: collapseUnderscores s :=
  (not_infix_underscoreRunsFrom false s).2

theorem collapseUnderscores_eq_self {s : List Char} (h : ¬ "__".toList <:+: s) :
    collapseUnderscores s = s := by
  suffices hfrom : ∀ inside, (inside = true → s.head? ≠ some '_') →
      underscoreRunsFrom (· == '_') inside s = s from hfrom false nofun
  induction s with
  | nil => exact fun _ _ => rfl
  | cons c rest ih =>
    rw [List.infix_cons_iff, not_or] at h
    obtain ⟨hnone, hrest⟩ := h
    intro inside hinside
    by_cases hc : c = '_'
    · subst hc
      have hout : inside = false := by simpa using hinside
      have hnext : rest.head? ≠ some '_' := by
        intro hnext
        obtain ⟨more, rfl⟩ := List.head?_eq_some_iff.1 hnext
        exact hnone ⟨more, rfl⟩
      simp [underscoreRunsFrom, hout, ih hrest true fun _ => hnext]
    · simp [underscoreRunsFrom, hc, ih hrest false nofun]

theorem repairPass_of_notMem {pass : List Char → List Char} (hpass : pass ∈ repairPasses) {s : List Char}
    (h : '_' ∉ pass s) : pass s = s := by
  simp only [repairPasses, List.mem_cons, List.not_mem_nil, or_false] at hpass
  rcases hpass with rfl | rfl | rfl | rfl | rfl | rfl | rfl
  case inr.inl =>
    unfold underscoreLeadingSlashes at h ⊢
    dsimp only at h ⊢
    split at h
    · exact absurd List.mem_cons_self h
    · rename_i hkept
      rw [if_neg hkept]
  all_goals exact underscoreRuns_of_notMem h

theorem eq_of_ofText? {s repaired : String} (h : ofText? s = some repaired) (hnone : '_' ∉ repaired.toList) :
    repaired = s := by
  obtain ⟨chars, hchars, rfl⟩ := Option.map_eq_some_iff.1 h
  rw [String.toList_ofList] at hnone
  unfold repair at hchars
  split at hchars
  · cases hchars
  · have hcollapsed {t : List Char} (ht : '_' ∉ collapseUnderscores t) : collapseUnderscores t = t :=
      underscoreRuns_of_notMem ht
    have hkept : '_' ∉ chars → chars = s.toList := by
      refine (of_repairWith (P := fun t => '_' ∉ t → t = s.toList) ?_ (fun ht => ?_) hchars).1
      · intro pass hpass t ht hpassed
        have hsame := hcollapsed hpassed
        rw [hsame] at hpassed ⊢
        have hleft := repairPass_of_notMem hpass hpassed
        rw [hleft] at hpassed ⊢
        exact ht hpassed
      · have hsame := hcollapsed ht
        rw [hsame] at ht ⊢
        exact underscoreRuns_of_notMem ht
    rw [hkept hnone, String.ofList_toList]

/-- A word without underscores that is left as it is comes from no other text. -/
theorem ofText?_eq_word_iff {s word : String} (hword : ofText? word = some word) (hnone : '_' ∉ word.toList) :
    ofText? s = some word ↔ s = word := by
  constructor
  · intro h
    exact (eq_of_ofText? h hnone).symm
  · rintro rfl
    exact hword

/-! ## Clean references -/

/-- A reference without the characters that no IRI contains, and without underscores in a row. -/
structure IsCleanReference (text : String) : Prop where
  reference : isReference text.toList = true
  underscores : ¬ "__".toList <:+: text.toList
  stripped : IsStripped text
  allowed : ∀ c ∈ text.toList, isNeverAllowed c = false

theorem repairPass_ne_nil {pass : List Char → List Char} (hpass : pass ∈ repairPasses) {s : List Char}
    (h : s ≠ []) : pass s ≠ [] := by
  simp only [repairPasses, List.mem_cons, List.not_mem_nil, or_false] at hpass
  rcases hpass with rfl | rfl | rfl | rfl | rfl | rfl | rfl
  case inr.inl =>
    unfold underscoreLeadingSlashes
    dsimp only
    split
    · exact List.cons_ne_nil _ _
    · exact h
  all_goals exact underscoreRuns_ne_nil h

theorem isReference_of_repair {s repaired : List Char} (h : repair s = some repaired) :
    (repaired ≠ [] ∧ ¬ "__".toList <:+: repaired) ∧ isReference repaired = true := by
  unfold repair at h
  split at h
  · cases h
  · rename_i hs
    have hcollapsed {t : List Char} (ht : t ≠ []) :
        collapseUnderscores t ≠ [] ∧ ¬ "__".toList <:+: collapseUnderscores t :=
      ⟨underscoreRuns_ne_nil ht, not_infix_collapseUnderscores t⟩
    refine of_repairWith (P := fun t => t ≠ [] ∧ ¬ "__".toList <:+: t) ?_ ?_ h
    · exact fun pass hpass t ht => hcollapsed (repairPass_ne_nil hpass ht.1)
    · exact hcollapsed (underscoreRuns_ne_nil (mt List.isEmpty_iff.2 hs))

theorem isCleanReference_of_ofText? {s repaired : String} (h : ofText? s = some repaired) :
    repaired ≠ "" ∧ IsCleanReference repaired := by
  have hunderscore : isBlankFormat '_' = false ∧ isNeverAllowed '_' = false := by decide +kernel
  have hmem (c : Char) (hc : c ∈ repaired.toList) : isBlankFormat c = false ∧ isNeverAllowed c = false := by
    rcases mem_of_ofText? h hc with rfl | ⟨-, hok⟩
    · exact hunderscore
    · exact hok
  obtain ⟨chars, hchars, hrepaired⟩ := Option.map_eq_some_iff.1 h
  obtain rfl : chars = repaired.toList := by rw [← hrepaired, String.toList_ofList]
  obtain ⟨⟨hne, hunderscores⟩, href⟩ := isReference_of_repair hchars
  refine ⟨?_, href, hunderscores, fun c hc => (hmem c hc).1, fun c hc => (hmem c hc).2⟩
  rintro rfl
  exact hne String.toList_empty

theorem ofText?_of_isCleanReference {s : String} (hs : s ≠ "") (h : IsCleanReference s) :
    ofText? s = some s := by
  have hempty : s.toList.isEmpty = false := by simpa using hs
  have hsafe : underscoreRuns (fun c => isBlankFormat c || isNeverAllowed c) s.toList = s.toList :=
    underscoreRuns_eq_self fun c hc => by rw [h.stripped c hc, h.allowed c hc]; rfl
  have hrepair : repair s.toList = some s.toList := by
    rw [repair, hempty, hsafe, collapseUnderscores_eq_self h.underscores]
    simp [repairPasses, repairWith, h.reference]
  rw [ofText?, hrepair, Option.map_some, String.ofList_toList]

/-- **Repairing is a projection onto clean references.** Only the empty text cannot be repaired. Any other
becomes a clean reference, which a second repair leaves as it is; and a text that is a clean reference
already is its own repair. -/
theorem repairing_projects (s : String) :
    (ofText? s = none ↔ s = "") ∧
      (s ≠ "" → ∃ repaired, ofText? s = some repaired ∧ IsCleanReference repaired ∧
        ofText? repaired = some repaired ∧ (IsCleanReference s → repaired = s)) := by
  have hrepairs (hs : s ≠ "") : ∃ repaired, ofText? s = some repaired ∧ IsCleanReference repaired ∧
      ofText? repaired = some repaired ∧ (IsCleanReference s → repaired = s) := by
    obtain ⟨repaired, hrepaired⟩ := exists_ofText? hs
    obtain ⟨hne, hclean⟩ := isCleanReference_of_ofText? hrepaired
    refine ⟨repaired, hrepaired, hclean, ofText?_of_isCleanReference hne hclean, fun hs' => ?_⟩
    rw [ofText?_of_isCleanReference hs hs'] at hrepaired
    exact (Option.some.inj hrepaired).symm
  refine ⟨⟨fun hnone => ?_, ?_⟩, hrepairs⟩
  · by_contra hs
    obtain ⟨repaired, hrepaired, -⟩ := hrepairs hs
    rw [hnone] at hrepaired
    cases hrepaired
  · rintro rfl
    rfl

/-- A colon in the first segment is the last delimiter that is given up. -/
example : ofText? "2:1  <odds>" = some "2_1_odds_" := by decide +kernel

end TableGraph.Iri
