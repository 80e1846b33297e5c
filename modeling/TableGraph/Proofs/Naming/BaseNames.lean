import TableGraph.Proofs.Iri.Candidates
import TableGraph.Proofs.Iri.Directories
import TableGraph.Proofs.Naming.WellFormed
import TableGraph.Proofs.Text.Trimming
import TableGraph.Transform

/-!
# Names below the base

The empty label stands for the base unless it is bound. Without a label a name is resolved against the
base; with the empty one it is the text of the base and the path behind it, once the path behind a colon
has been resolved. A path that goes down from a directory is the same IRI either way
(`empty_label_agrees`).
-/

namespace TableGraph.Naming

open Iri (Reference Tail)
open Text (IsStripped stripSpace_of_isStripped)

/-- A relative reference that goes down from the base, a directory for which the empty label stands. -/
structure Descends (n : Naming) (path : String) (t : Tail) : Prop where
  base : n.base.IsValid
  directory : n.base.tail.IsDirectory
  unbound : n.vocabularies.namespace? "" = none
  stripped : IsStripped path
  relative : Reference.parse path = .ok (.relative t)
  descending : t.IsDescending

variable {n : Naming} {path : String} {t : Tail}

namespace Descends

theorem path_ne (h : n.Descends path t) : path ≠ "" := by
  rintro rfl
  obtain rfl := Reference.relative.inj (Except.ok.inj h.relative)
  exact h.descending.path_ne rfl

theorem isEmpty_eq (h : n.Descends path t) : path.isEmpty = false := by
  simpa using h.path_ne

theorem namespace?_eq (h : n.Descends path t) : n.namespace? "" = some n.base.text := by
  simp [namespace?, h.unbound]

theorem resolve_eq (h : n.Descends path t) :
    n.base.resolve path = .ok ⟨n.base.scheme, n.base.tail.below t⟩ :=
  Iri.resolve_below h.base h.directory h.descending h.relative

theorem text_eq (h : n.Descends path t) :
    Iri.text ⟨n.base.scheme, n.base.tail.below t⟩ = n.base.text ++ path :=
  Iri.text_below h.directory h.descending h.relative

/-! ### Both ways -/

theorem resolve_none (h : n.Descends path t) :
    n.resolve none path = .ok (some (n.base.text ++ path)) := by
  have hcandidate : Iri.resolveCandidate (some n.base) path = .ok (some (n.base.text ++ path)) := by
    rw [Iri.resolveCandidate_over n.base h.path_ne (Iri.not_isAbsolute_of_relative h.relative)]
    simp only [Iri.resolveWithSlash, h.resolve_eq, h.text_eq]
  simp only [resolve, stripSpace_of_isStripped h.stripped, h.isEmpty_eq, PrefixedName.withPrefix,
    hcandidate, Option.bind_none, Bool.false_eq_true, if_false]

theorem resolve_empty (h : n.Descends path t) :
    n.resolve (some "") path = .ok (some (n.base.text ++ path)) := by
  have hname : PrefixedName.withPrefix (some "") path = ":" ++ path := rfl
  have hne : ":" ++ path ≠ "" := by simp
  -- the path has to be resolvable behind its colon, though what it comes to there is not used
  have hcandidate := Iri.resolveCandidate_over n.base hne (Iri.not_isAbsolute_colon path)
  rw [Iri.resolveWithSlash_colon n.base h.descending h.relative] at hcandidate
  have habsolute : Iri.IsAbsolute (n.base.text ++ path) :=
    ⟨_, h.text_eq ▸ Iri.parse_text (Iri.isValid_resolve h.base h.resolve_eq)⟩
  simp only [resolve, stripSpace_of_isStripped h.stripped, h.isEmpty_eq, hname, hcandidate,
    Option.bind_some, h.namespace?_eq, concat_of_isAbsolute habsolute, Bool.false_eq_true, if_false]
  rfl

end Descends

/-- **The empty label and no label mean the same below a directory.** Where the empty label stands for the
base, and the base is a directory, a path that goes down from it means the text of the base followed by
the path, with the empty label as without one. -/
theorem empty_label_agrees (h : n.Descends path t) :
    n.resolve none path = .ok (some (n.base.text ++ path)) ∧
      n.resolve (some "") path = .ok (some (n.base.text ++ path)) :=
  ⟨h.resolve_none, h.resolve_empty⟩

/-- A path below the default base, with a query and a fragment. -/
theorem empty_label_agrees_alice :
    let n : Naming := ⟨Transform.defaultBase, .predefined⟩
    let alice := "http://localhost:3333/people/Alice?v=1#me"
    n.Descends "people/Alice?v=1#me" ⟨none, "people/Alice".toList, some "v=1".toList, some "me".toList⟩ ∧
      n.resolve none "people/Alice?v=1#me" = .ok (some alice) ∧
      n.resolve (some "") "people/Alice?v=1#me" = .ok (some alice) := by
  intro n alice
  have hread : Iri.read "http://localhost:3333/".toList = .ok n.base := by decide +kernel
  have h : n.Descends "people/Alice?v=1#me"
      ⟨none, "people/Alice".toList, some "v=1".toList, some "me".toList⟩ := by
    refine ⟨Iri.isValid_of_read hread, ?_, by decide +kernel, by decide +kernel, by decide +kernel, ?_⟩
    · constructor <;> decide +kernel
    · constructor <;> decide +kernel
  have hbase : n.base.text ++ "people/Alice?v=1#me" = alice := by decide +kernel
  exact ⟨h, hbase ▸ empty_label_agrees h⟩

/-- Over a base that is no directory, a path takes the place of its last segment without a label, and is
written behind it with the empty one. -/
example :
    let n : Naming := ⟨⟨"http".toList, ⟨some ⟨none, "ex.org".toList, none⟩, "/a".toList, none, none⟩⟩, .empty⟩
    n.resolve none "b" = .ok (some "http://ex.org/b") ∧
      n.resolve (some "") "b" = .ok (some "http://ex.org/ab") := by
  decide +kernel

end TableGraph.Naming
