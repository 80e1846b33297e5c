import TableGraph.Sink

/-!
# Graphs without repeats

The order of terms is that of their kinds and texts, one after the other, so it is a total order, and
two terms that it does not tell apart are the same. In a sorted list repeats stand next to each other:
`dedupe` leaves a strictly ascending list of the same triples.
-/

namespace TableGraph

open Std (TransOrd LawfulEqOrd TransCmp LawfulEqCmp)

/-! ## The order of terms -/

namespace Term

/-- The number of a kind: IRIs, blank nodes, literals. -/
def rank : Term → Nat
  | .iri _ => 0
  | .blank _ => 1
  | .literal .. => 2

/-- The text that a term is ordered by first within its kind. -/
def ownText : Term → String
  | .iri text => text
  | .blank id => id.label
  | .literal value _ _ => value

def datatypeText : Term → Option String
  | .literal _ datatype _ => datatype
  | _ => none

def languageText : Term → Option String
  | .literal _ _ language => language
  | _ => none

theorem compare_eq (a b : Term) :
    Term.compare a b =
      compareLex (compareOn rank) (compareLex (compareOn ownText)
        (compareLex (compareOn datatypeText) (compareOn languageText))) a b := by
  cases a <;> cases b <;> first
    | rfl
    | simp [Term.compare, compareLex, compareOn, rank, ownText, datatypeText, languageText]

instance : TransOrd Term := by
  have hcmp : (Ord.compare : Term → Term → Ordering) =
      compareLex (compareOn rank) (compareLex (compareOn ownText)
        (compareLex (compareOn datatypeText) (compareOn languageText))) := by
    funext a b
    exact compare_eq a b
  unfold TransOrd
  rw [hcmp]
  infer_instance

instance : LawfulEqOrd Term where
  eq_of_compare {a b} h := by
    have hcompare : Term.compare a b = .eq := h
    cases a with
    | iri text =>
      cases b with
      | iri other => rw [Std.compare_eq_iff_eq.1 hcompare]
      | blank | literal => cases hcompare
    | blank id =>
      cases b with
      | blank other =>
        obtain ⟨label⟩ := id
        obtain rfl : label = other.label := Std.compare_eq_iff_eq.1 hcompare
        rfl
      | iri | literal => cases hcompare
    | literal value datatype language =>
      cases b with
      | literal value' datatype' language' =>
        obtain ⟨hvalue, hrest⟩ := Ordering.then_eq_eq.1 hcompare
        obtain ⟨hdatatype, hlanguage⟩ := Ordering.then_eq_eq.1 hrest
        rw [Std.compare_eq_iff_eq.1 hvalue, Std.compare_eq_iff_eq.1 hdatatype,
          Std.compare_eq_iff_eq.1 hlanguage]
      | iri | blank => cases hcompare

end Term

namespace Triple

instance : TransOrd Triple :=
  inferInstanceAs (TransCmp (compareLex (compareOn Triple.subject)
    (compareLex (compareOn Triple.property) (compareOn Triple.object))))

instance : LawfulEqOrd Triple where
  eq_of_compare {a b} h := by
    have hparts : a.subject = b.subject ∧ a.property = b.property ∧ a.object = b.object := by
      have hcompare : Triple.compare a b = .eq := h
      simpa only [Triple.compare, Ordering.then_eq_eq, Std.compare_eq_iff_eq] using hcompare
    cases a
    cases b
    obtain ⟨rfl, rfl, rfl⟩ := hparts
    rfl

end Triple

/-! ## Repeats -/

namespace Graph

section
variable {α : Type} [DecidableEq α]

theorem mem_dropRepeats {l : List α} {a : α} : a ∈ dropRepeats l ↔ a ∈ l := by
  induction l with
  | nil => rfl
  | cons x rest ih =>
    rw [dropRepeats]
    split
    · rename_i hhead
      rw [ih, List.mem_cons]
      have hx : x ∈ rest := List.mem_of_mem_head? hhead
      constructor
      · exact .inr
      · rintro (rfl | ha)
        · exact hx
        · exact ha
    · rw [List.mem_cons, List.mem_cons, ih]

theorem pairwise_dropRepeats [Ord α] [TransOrd α] [LawfulEqOrd α] {l : List α}
    (h : l.Pairwise fun a b => (compare a b).isLE = true) :
    (dropRepeats l).Pairwise fun a b => compare a b = .lt := by
  induction l with
  | nil => exact .nil
  | cons x rest ih =>
    obtain ⟨hx, hrest⟩ := List.pairwise_cons.1 h
    rw [dropRepeats]
    split
    · exact ih hrest
    · rename_i hhead
      refine List.pairwise_cons.2 ⟨fun a ha => ?_, ih hrest⟩
      rw [mem_dropRepeats] at ha
      have hne : x ≠ a := by
        rintro rfl
        -- whatever stands between two equals is equal to both
        cases rest with
        | nil => cases ha
        | cons y more =>
          apply hhead
          have hxy := hx y List.mem_cons_self
          have hyx : (compare y x).isLE = true := by
            rcases List.mem_cons.1 ha with rfl | ha
            · exact hxy
            · exact (List.pairwise_cons.1 hrest).1 x ha
          have heq : compare x y = .eq := Std.OrientedCmp.isLE_antisymm hxy hyx
          rw [List.head?_cons, Std.compare_eq_iff_eq.1 heq]
      have hle := hx a ha
      rw [Ordering.isLE_iff_eq_lt_or_eq_eq] at hle
      rcases hle with hlt | heq
      · exact hlt
      · exact absurd (Std.compare_eq_iff_eq.1 heq) hne

omit [DecidableEq α] in
theorem nodup_of_ascending [Ord α] [Std.ReflOrd α] {l : List α}
    (h : l.Pairwise fun a b => compare a b = .lt) : l.Nodup := by
  refine h.imp fun {a b} hab => ?_
  rintro rfl
  rw [Std.ReflOrd.compare_self] at hab
  cases hab

omit [DecidableEq α] in
/-- Strictly ascending lists of the same elements are the same. -/
theorem eq_of_ascending [Ord α] [TransOrd α] {l l' : List α}
    (h : l.Pairwise fun a b => compare a b = .lt) (h' : l'.Pairwise fun a b => compare a b = .lt)
    (hmem : ∀ a, a ∈ l ↔ a ∈ l') : l = l' := by
  have hperm : l.Perm l' := (List.perm_ext_iff_of_nodup (nodup_of_ascending h) (nodup_of_ascending h')).2 hmem
  refine hperm.eq_of_pairwise (fun a b _ _ hab hba => ?_) h h'
  rw [Std.OrientedCmp.gt_of_lt hab] at hba
  cases hba

theorem dropRepeats_of_pairwise [Ord α] [Std.ReflOrd α] {l : List α}
    (h : l.Pairwise fun a b => compare a b = .lt) : dropRepeats l = l := by
  induction l with
  | nil => rfl
  | cons x rest ih =>
    obtain ⟨hx, hrest⟩ := List.pairwise_cons.1 h
    have hhead : rest.head? ≠ some x := by
      intro hhead
      have hlt := hx x (List.mem_of_mem_head? hhead)
      rw [Std.ReflOrd.compare_self] at hlt
      cases hlt
    rw [dropRepeats, if_neg hhead, ih hrest]

end

/-! ## Graphs -/

theorem toList_sort (g : Graph) :
    g.sort.toList = g.toList.mergeSort fun a b => (compare a b).isLE := rfl

theorem toList_dedupe (g : Graph) : g.dedupe.toList = dropRepeats g.sort.toList := rfl

theorem perm_sort (g : Graph) : g.sort.toList.Perm g.toList := by
  rw [toList_sort]
  exact List.mergeSort_perm _ _

theorem pairwise_sort (g : Graph) : g.sort.toList.Pairwise fun a b => (compare a b).isLE = true := by
  rw [toList_sort]
  apply List.pairwise_mergeSort
  · intro a b c hab hbc
    exact TransCmp.isLE_trans hab hbc
  · intro a b
    rw [Bool.or_eq_true]
    cases hab : compare a b with
    | lt | eq => exact .inl rfl
    | gt => exact .inr (by rw [Std.OrientedCmp.lt_of_gt hab]; rfl)

theorem mem_dedupe {g : Graph} {t : Triple} : t ∈ g.dedupe.toList ↔ t ∈ g.toList := by
  rw [toList_dedupe, mem_dropRepeats, g.perm_sort.mem_iff]

theorem pairwise_dedupe (g : Graph) : g.dedupe.toList.Pairwise fun a b => compare a b = .lt := by
  rw [toList_dedupe]
  exact pairwise_dropRepeats g.pairwise_sort

theorem dedupe_of_pairwise {g : Graph} (h : g.toList.Pairwise fun a b => compare a b = .lt) :
    g.dedupe.toList = g.toList := by
  have hsorted : g.sort.toList = g.toList := by
    rw [toList_sort]
    exact List.mergeSort_of_pairwise (h.imp fun {a b} hab => by rw [hab]; rfl)
  rw [toList_dedupe, hsorted, dropRepeats_of_pairwise h]

end Graph

end TableGraph
