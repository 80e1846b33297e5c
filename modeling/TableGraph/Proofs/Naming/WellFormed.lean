import TableGraph.Naming
import TableGraph.Proofs.BlankLabel.Labels
import TableGraph.Proofs.Iri.Resolved

/-!
# Well-formed terms

A term is well-formed if its IRIs are absolute, its label is one, and its literal has a value, whose
language is that of a language string. Over a valid base, whatever a name or a value is turned into is
well-formed: of the routes from text to an IRI, each ends in text that was read as an absolute IRI.
-/

namespace TableGraph

open Iri (IsAbsolute Spells isFragmentChar spells_of_isAlphanum isAbsolute_append
  isAbsolute_of_resolveCandidate)

/-- A term that may stand in an RDF graph. -/
def Term.IsWellFormed : Term → Prop
  | .iri text => IsAbsolute text
  | .blank id => id.IsWellFormed
  | .literal value datatype language =>
    value ≠ "" ∧ (∀ d ∈ datatype, IsAbsolute d) ∧
      ∀ tag ∈ language, datatype = some Standard.rdfLangString ∧ isLanguageTag tag = true

/-- A triple that may stand in an RDF graph. -/
structure Triple.IsWellFormed (t : Triple) : Prop where
  subject_resource : t.subject.isLiteral = false
  subject : t.subject.IsWellFormed
  property : IsAbsolute t.property
  object : t.object.IsWellFormed

/-! ## Standard vocabularies -/

namespace Standard

theorem isAbsolute_rdfType : IsAbsolute rdfType := by
  decide +kernel

theorem isAbsolute_rdfLangString : IsAbsolute rdfLangString := by
  decide +kernel

theorem spells_of_mem_xsdDatatypes {localName : String} (h : localName ∈ xsdDatatypes) :
    Spells isFragmentChar localName.toList := by
  have hall : (xsdDatatypes.all fun localName => localName.toList.all Char.isAlphanum) = true := by
    decide +kernel
  have hname : ∀ c ∈ localName.toList, c.isAlphanum = true :=
    List.all_eq_true.1 (List.all_eq_true.1 hall localName h)
  refine (spells_of_isAlphanum hname).mono fun c hc => ?_
  simp [isFragmentChar, Iri.isPathChar, Iri.isPlainSegmentChar, hc]

theorem isAbsolute_xsd {localName : String} (h : localName ∈ xsdDatatypes) :
    IsAbsolute (xsd ++ localName) := by
  let opening : Iri :=
    { scheme := "http".toList
      tail :=
        { authority := some ⟨none, "www.w3.org".toList, none⟩
          path := "/2001/XMLSchema".toList
          query := none
          fragment := some [] } }
  have hread : Iri.parse xsd = .ok opening := by
    decide +kernel
  exact isAbsolute_append hread rfl (spells_of_mem_xsdDatatypes h)

theorem mem_of_xsdLocalName? {name localName : String} (h : xsdLocalName? name = some localName) :
    localName ∈ xsdDatatypes := by
  unfold xsdLocalName? at h
  split at h
  · dsimp only at h
    split at h
    · rename_i hbuiltin
      obtain rfl := Option.some.inj h
      exact List.contains_iff_mem.1 hbuiltin
    · cases h
  · cases h

end Standard

namespace Naming

variable {n : Naming}

/-! ## IRIs -/

theorem concat_of_isAbsolute {ns path : String} (h : IsAbsolute (ns ++ path)) :
    concat ns path = .ok (ns ++ path) := by
  obtain ⟨i, hi⟩ := h
  simp only [concat, hi]

theorem isAbsolute_of_concat {ns path iri : String} (h : concat ns path = .ok iri) : IsAbsolute iri := by
  unfold concat at h
  dsimp only at h
  split at h
  · rename_i i hi
    obtain rfl := Except.ok.inj h
    exact ⟨i, hi⟩
  · cases h

theorem isAbsolute_of_resolve (hbase : n.base.IsValid) {label : Option String} {raw iri : String}
    (h : n.resolve label raw = .ok (some iri)) : IsAbsolute iri := by
  unfold resolve at h
  dsimp only at h
  split at h
  · cases h
  · split at h
    · cases h
    · cases h
    · rename_i candidate hcandidate
      split at h
      · obtain ⟨joined, hjoined, hsome⟩ := Outcome.map_eq_ok_iff.1 h
        obtain rfl := Option.some.inj hsome
        exact isAbsolute_of_concat hjoined
      · obtain rfl := Option.some.inj (Except.ok.inj h)
        refine isAbsolute_of_resolveCandidate ?_ hcandidate
        rintro b ⟨⟩
        exact hbase

theorem isAbsolute_of_iri? (hbase : n.base.IsValid) {name : IriName} {iri : String}
    (h : n.iri? name = some iri) : IsAbsolute iri := by
  unfold iri? at h
  split at h
  · rename_i resolved hresolved
    rw [h] at hresolved
    exact isAbsolute_of_resolve hbase hresolved
  · cases h

theorem exists_iri_of_resource? (hbase : n.base.IsValid) {label : Option String} {raw : String}
    {term : Term} (h : n.resource? label raw = some term) : ∃ iri, term = .iri iri ∧ IsAbsolute iri := by
  obtain ⟨iri, hiri, rfl⟩ := Option.map_eq_some_iff.1 h
  exact ⟨iri, rfl, isAbsolute_of_iri? hbase hiri⟩

theorem exists_iri_of_resourceOfValue? (hbase : n.base.IsValid) {label : Option String} {raw : String}
    {term : Term} (h : n.resourceOfValue? label raw = some term) :
    ∃ iri, term = .iri iri ∧ IsAbsolute iri := by
  unfold resourceOfValue? at h
  dsimp only at h
  split at h
  · split at h <;> exact exists_iri_of_resource? hbase h
  · exact exists_iri_of_resource? hbase h

/-! ## Literals -/

theorem isAbsolute_of_datatype? (hbase : n.base.IsValid) {datatype : IriName} {iri : String}
    (h : n.datatype? datatype = some iri) : IsAbsolute iri := by
  unfold datatype? at h
  dsimp only at h
  split at h
  · cases h
  · split at h
    · split at h
      · cases h
      · exact isAbsolute_of_concat (Outcome.toOption_eq_some_iff.1 h)
    · split at h
      · cases h
      · rename_i name hname
        split at h
        · rename_i localName hlocal
          obtain rfl := Option.some.inj h
          exact Standard.isAbsolute_xsd (Standard.mem_of_xsdLocalName? hlocal)
        · -- a name that is not built-in was resolved
          rename_i hlocal
          obtain rfl := Option.some.inj h
          unfold PrefixedName.datatype? at hname
          dsimp only at hname
          split at hname
          · rename_i hbuiltin
            obtain rfl := Option.some.inj hname
            rw [Standard.isXsdName, hlocal] at hbuiltin
            cases hbuiltin
          · split at hname
            · rename_i resolved hresolved
              rw [hname] at hresolved
              refine isAbsolute_of_resolveCandidate ?_ hresolved
              rintro b ⟨⟩
              exact hbase
            · cases hname

/-- What a literal is made of: its datatype if that can be used, or else its language if that can. -/
theorem literal?_cases {raw : String} {datatype : Option IriName} {language : Option String} {term : Term}
    (h : n.literal? raw datatype language = some term) :
    raw ≠ "" ∧ ((∃ iri, datatype.bind n.datatype? = some iri ∧ term = .typed raw iri) ∨
      datatype.bind n.datatype? = none ∧
        ((∃ tag, isLanguageTag tag = true ∧ term = .langString raw tag) ∨ term = .plain raw)) := by
  unfold literal? at h
  split at h
  · cases h
  rename_i hraw
  refine ⟨fun heq => hraw (by rw [heq]; rfl), ?_⟩
  split at h
  · rename_i iri hiri
    exact .inl ⟨iri, hiri, (Option.some.inj h).symm⟩
  rename_i hdatatype
  refine .inr ⟨hdatatype, ?_⟩
  split at h
  · rename_i tag _
    obtain rfl := Option.some.inj h
    split
    · rename_i htag
      exact .inl ⟨tag, htag, rfl⟩
    · exact .inr rfl
  · exact .inr (Option.some.inj h).symm

theorem isWellFormed_of_literal? (hbase : n.base.IsValid) {raw : String} {datatype : Option IriName}
    {language : Option String} {term : Term} (h : n.literal? raw datatype language = some term) :
    term.IsWellFormed := by
  obtain ⟨hvalue, ⟨iri, hiri, rfl⟩ | ⟨-, ⟨tag, htag, rfl⟩ | rfl⟩⟩ := literal?_cases h
  · obtain ⟨name, -, hname⟩ := Option.bind_eq_some_iff.1 hiri
    refine ⟨hvalue, ?_, by simp⟩
    rintro d ⟨⟩
    exact isAbsolute_of_datatype? hbase hname
  · refine ⟨hvalue, ?_, ?_⟩
    · rintro d ⟨⟩
      exact Standard.isAbsolute_rdfLangString
    · rintro tag ⟨⟩
      exact ⟨rfl, htag⟩
  · exact ⟨hvalue, by simp, by simp⟩

end Naming

/-! ## Terms of nodes -/

/-- A term that may be a subject: well-formed, and no literal. -/
def Term.IsSubject (term : Term) : Prop :=
  term.isLiteral = false ∧ term.IsWellFormed

theorem Term.isSubject_of_exists_iri {term : Term} (h : ∃ iri, term = .iri iri ∧ IsAbsolute iri) :
    term.IsSubject := by
  obtain ⟨iri, rfl, hiri⟩ := h
  exact ⟨rfl, hiri⟩

end TableGraph
