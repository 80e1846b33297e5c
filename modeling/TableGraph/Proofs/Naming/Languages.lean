import TableGraph.Proofs.Iri.Candidates
import TableGraph.Proofs.Naming.WellFormed
import TableGraph.Transform

/-!
# Languages of literals

A language fixes the datatype of a literal, `rdf:langString`. A declared datatype counts before a language,
and nothing keeps it from being `rdf:langString` itself: in the namespace of a label, or by a name that is
resolved against the base (`datatype?_eq_rdfLangString_iff`). Such a literal is a language string without a
language, and there is no other (`languages_go_with_langStrings`).
-/

namespace TableGraph

open Iri (IsAbsolute resolveCandidate resolveCandidate_of_isAbsolute)
open Standard (rdfLangString)

/-! ## Built-in datatypes -/

namespace Standard

theorem xsd_append_ne_rdfLangString (localName : String) : xsd ++ localName ≠ rdfLangString := by
  intro h
  have hstart : xsd.toList <+: rdfLangString.toList := ⟨localName.toList, by rw [← String.toList_append, h]⟩
  exact absurd hstart (by decide +kernel)

theorem xsdLocalName?_rdfLangString : xsdLocalName? rdfLangString = none := by
  decide +kernel

theorem eq_of_xsdLocalName? {name localName : String} (h : xsdLocalName? name = some localName) :
    name = "xsd:" ++ localName := by
  unfold xsdLocalName? at h
  split at h
  · rename_i rest hname
    dsimp only at h
    split at h
    · obtain rfl := Option.some.inj h
      rw [← String.toList_inj, hname]
      simp
    · cases h
  · cases h

theorem isAbsolute_of_isXsdName {name : String} (h : isXsdName name = true) : IsAbsolute name := by
  have hall : ∀ localName ∈ xsdDatatypes, IsAbsolute ("xsd:" ++ localName) := by decide +kernel
  obtain ⟨localName, hlocal⟩ := Option.isSome_iff_exists.1 h
  rw [eq_of_xsdLocalName? hlocal]
  exact hall localName (mem_of_xsdLocalName? hlocal)

end Standard

theorem PrefixedName.datatype?_eq_some_iff {base : Option Iri} {name iri : String} :
    PrefixedName.datatype? base none name = some iri ↔ resolveCandidate base name = .ok (some iri) := by
  have hplain : PrefixedName.withPrefix none name = name := rfl
  unfold PrefixedName.datatype?
  dsimp only
  rw [hplain]
  by_cases hname : Standard.isXsdName name = true
  · rw [if_pos hname, resolveCandidate_of_isAbsolute base (Standard.isAbsolute_of_isXsdName hname)]
    simp
  · rw [if_neg hname]
    cases resolveCandidate base name <;> simp

namespace Naming

/-! ## Datatypes -/

/-- A declaration that means the datatype of language strings: its value behind the namespace of its
label, or without a label its expanded value as a candidate for an IRI. -/
def DeclaresLangString (n : Naming) (datatype : IriName) : Prop :=
  let value := Text.stripSpace datatype.path
  value ≠ "" ∧
    match datatype.label with
    | some label => ∃ ns, n.namespace? label = some ns ∧ ns ++ value = rdfLangString
    | none =>
      resolveCandidate (some n.base) (PrefixedName.expand n.namespace? value) = .ok (some rdfLangString)

variable {n : Naming}

theorem concat_eq_rdfLangString_iff {ns path : String} :
    concat ns path = .ok rdfLangString ↔ ns ++ path = rdfLangString := by
  constructor
  · intro h
    unfold concat at h
    dsimp only at h
    split at h
    · exact Except.ok.inj h
    · cases h
  · intro h
    have habsolute : IsAbsolute (ns ++ path) := h ▸ Standard.isAbsolute_rdfLangString
    rw [concat_of_isAbsolute habsolute, h]

/-- The declarations of the datatype of language strings are those that come to its IRI. -/
theorem datatype?_eq_rdfLangString_iff {datatype : IriName} :
    n.datatype? datatype = some rdfLangString ↔ n.DeclaresLangString datatype := by
  obtain ⟨label, path⟩ := datatype
  unfold datatype? DeclaresLangString
  dsimp only
  by_cases hvalue : Text.stripSpace path = ""
  · simp [hvalue]
  have hempty : (Text.stripSpace path).isEmpty = false := by simpa using hvalue
  simp only [hempty, Bool.false_eq_true, if_false, ne_eq, hvalue, not_false_eq_true, true_and]
  cases label with
  | some label =>
    cases hns : n.namespace? label with
    | none => simp [hns]
    | some ns => simp [hns, Outcome.toOption_eq_some_iff, concat_eq_rdfLangString_iff]
  | none =>
    dsimp only
    rw [← PrefixedName.datatype?_eq_some_iff]
    cases PrefixedName.datatype? (some n.base) none
      (PrefixedName.expand n.namespace? (Text.stripSpace path)) with
    | none => simp
    | some iri =>
      dsimp only
      cases hiri : Standard.xsdLocalName? iri with
      | none => rfl
      | some localName =>
        have hne : iri ≠ rdfLangString := by
          rintro rfl
          rw [Standard.xsdLocalName?_rdfLangString] at hiri
          cases hiri
        simp [Standard.xsd_append_ne_rdfLangString, hne]

/-! ## Literals -/

/-- **A language goes with `rdf:langString`, and `rdf:langString` with a language unless it is declared.** A
literal has a language exactly if its datatype is `rdf:langString` and has not been declared to be. Where
it has been declared, it is the datatype, and there is no language. -/
theorem languages_go_with_langStrings {raw : String} {datatype : Option IriName} {language : Option String}
    {term : Term} (h : n.literal? raw datatype language = some term) :
    ∃ kind tag, term = .literal raw kind tag ∧
      (tag.isSome ↔ kind = some rdfLangString ∧ ∀ d ∈ datatype, ¬ n.DeclaresLangString d) ∧
      ∀ d ∈ datatype, n.DeclaresLangString d → kind = some rdfLangString ∧ tag = none := by
  simp only [← datatype?_eq_rdfLangString_iff]
  obtain ⟨-, ⟨iri, hiri, rfl⟩ | ⟨hnone, hterm⟩⟩ := literal?_cases h
  · obtain ⟨d, rfl, hd⟩ := Option.bind_eq_some_iff.1 hiri
    refine ⟨some iri, none, rfl, ?_, ?_⟩
    · simp [hd]
    · rintro d ⟨⟩ hdeclared
      exact ⟨hd ▸ hdeclared, rfl⟩
  · have hundeclared : ∀ d ∈ datatype, ¬ n.datatype? d = some rdfLangString := by
      rintro d ⟨⟩ hdeclared
      rw [Option.bind_some, hdeclared] at hnone
      cases hnone
    rcases hterm with ⟨tag, -, rfl⟩ | rfl
    · exact ⟨some rdfLangString, some tag, rfl, by simpa using hundeclared,
        fun d hd hdeclared => absurd hdeclared (hundeclared d hd)⟩
    · exact ⟨none, none, rfl, by simp, fun d hd hdeclared => absurd hdeclared (hundeclared d hd)⟩

/-- A datatype whose label is not bound gives way to a language. -/
theorem languages_go_with_langStrings_french :
    let n : Naming := ⟨Transform.defaultBase, .predefined⟩
    let datatype : IriName := ⟨some "kinds", "text"⟩
    n.literal? "chat" (some datatype) (some " fr ") = some (.langString "chat" "fr") ∧
      ¬ n.DeclaresLangString datatype := by
  intro n datatype
  have hliteral : n.literal? "chat" (some datatype) (some " fr ") = some (.langString "chat" "fr") := by
    decide +kernel
  obtain ⟨kind, tag, hterm, htag, -⟩ := languages_go_with_langStrings hliteral
  obtain ⟨-, -, rfl⟩ := Term.literal.inj hterm
  exact ⟨hliteral, (htag.1 rfl).2 datatype rfl⟩

/-- A literal that is declared to be a language string has no language, though one is given. -/
theorem declared_langString_without_language :
    let n : Naming := ⟨Transform.defaultBase, .ofList [{ label := "rdf", ns := Standard.rdf }]⟩
    n.literal? "a" (some ⟨some "rdf", "langString"⟩) (some "en") =
        some (.literal "a" (some rdfLangString) none) ∧
      ¬ ∀ (n : Naming) (raw value : String) (datatype : Option IriName) (language kind tag : Option String),
        n.literal? raw datatype language = some (.literal value kind tag) →
          (kind = some rdfLangString ↔ tag.isSome) := by
  intro n
  have hliteral : n.literal? "a" (some ⟨some "rdf", "langString"⟩) (some "en") =
      some (.literal "a" (some rdfLangString) none) := by
    decide +kernel
  refine ⟨hliteral, fun hall => ?_⟩
  have htag := (hall n _ _ _ _ _ _ hliteral).1 rfl
  cases htag

end Naming

end TableGraph
