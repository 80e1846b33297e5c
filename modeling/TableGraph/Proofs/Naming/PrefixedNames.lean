import Mathlib.Data.List.Infix
import TableGraph.Proofs.Iri.Candidates
import TableGraph.Proofs.Iri.Endings
import TableGraph.Proofs.Naming.WellFormed
import TableGraph.Proofs.Text.Trimming
import TableGraph.Proofs.Vocabulary.Edits
import TableGraph.Transform

/-!
# Names with a bound prefix

A local part in the namespace of a bound label is written as one text or as two, for a datatype or for a
resource. A datatype finds the label before the first colon, and a label that is given with a resource is
bound already. A resource in one text has its label recognized only if the text is an IRI, which is so if
the label has the form of a scheme and the local part no closing bracket (`isAbsolute_name_iff`).
-/

namespace TableGraph

open Iri (IsAbsolute IsScheme)
open Text (cutAt_eq_some_iff)

/-! ## Texts with a colon -/

namespace PrefixedName

variable {label localPart : String}

theorem toList_name (label localPart : String) :
    (label ++ ":" ++ localPart).toList = label.toList ++ ':' :: localPart.toList := by
  simp

theorem isEmpty_name (label localPart : String) : (label ++ ":" ++ localPart).isEmpty = false := by
  rw [Bool.eq_false_iff, Ne, String.isEmpty_iff]
  intro h
  have htext := congrArg String.toList h
  simp at htext

theorem hasAuthorityMark_iff {s : List Char} : hasAuthorityMark s = true ↔ "://".toList <:+: s := by
  have hmark : "://".toList = [':', '/', '/'] := rfl
  rw [hmark]
  induction s with
  | nil => simp [hasAuthorityMark]
  | cons c rest ih =>
    rw [hasAuthorityMark, Bool.or_eq_true, List.isPrefixOf_iff_prefix, List.infix_cons_iff]
    exact or_congr_right ih

theorem hasAuthorityMark_append {label localPart : List Char} (hlabel : ':' ∉ label)
    (hslashes : ¬ "//".toList <+: localPart) (hmark : ¬ "://".toList <:+: localPart) :
    hasAuthorityMark (label ++ ':' :: localPart) = false := by
  rw [← Bool.not_eq_true, hasAuthorityMark_iff] at *
  induction label with
  | nil =>
    rw [List.nil_append, List.infix_cons_iff]
    rintro (hstart | hinside)
    · exact hslashes (List.cons_prefix_cons.1 hstart).2
    · exact hmark hinside
  | cons c rest ih =>
    rw [List.mem_cons, not_or] at hlabel
    rw [List.cons_append, List.infix_cons_iff]
    rintro (hstart | hinside)
    · exact hlabel.1 (List.cons_prefix_cons.1 hstart).1
    · exact ih hlabel.2 hinside

theorem expand_name {namespaceOf : String → Option String} {ns : String}
    (hbound : namespaceOf label = some ns) (hlabel : ':' ∉ label.toList)
    (hslashes : ¬ "//".toList <+: localPart.toList)
    (hmark : ¬ "://".toList <:+: localPart.toList) :
    expand namespaceOf (label ++ ":" ++ localPart) = ns ++ localPart := by
  have hcut : Text.cutAt ':' (label ++ ":" ++ localPart).toList = some (label.toList, localPart.toList) :=
    cutAt_eq_some_iff.2 ⟨hlabel, (toList_name label localPart).symm⟩
  have hname := toList_name label localPart ▸ hasAuthorityMark_append hlabel hslashes hmark
  simp only [expand, hname, hcut, String.ofList_toList, hbound, Bool.false_eq_true, if_false]

theorem colon_notMem_scheme {value : String} {i : Iri} (h : Iri.parse value = .ok i) : ':' ∉ i.scheme := by
  intro hmem
  exact absurd ((Iri.isValid_of_read h).scheme.2 _ hmem) (by decide)

theorem scheme_eq_of_parse (hlabel : ':' ∉ label.toList) {i : Iri}
    (h : Iri.parse (label ++ ":" ++ localPart) = .ok i) :
    i.scheme = label.toList ∧ i.tail.chars = localPart.toList := by
  have hchars := Iri.chars_of_read h
  have hcut := cutAt_eq_some_iff.2 ⟨colon_notMem_scheme h, hchars⟩
  rw [cutAt_eq_some_iff.2 ⟨hlabel, (toList_name label localPart).symm⟩] at hcut
  obtain ⟨hfirst, hsecond⟩ := Prod.mk.inj (Option.some.inj hcut)
  exact ⟨hfirst.symm, hsecond.symm⟩

theorem authority_eq_none (hslashes : ¬ "//".toList <+: localPart.toList) {t : Iri.Tail}
    (h : t.chars = localPart.toList) : t.authority = none := by
  cases hauthority : t.authority with
  | none => rfl
  | some a =>
    refine absurd ⟨a.chars ++ t.path ++ Iri.marked '?' t.query ++ Iri.marked '#' t.fragment, ?_⟩ hslashes
    rw [← h, Iri.Tail.chars, hauthority]
    simp [Iri.authorityChars]

theorem split?_name (hlabel : ':' ∉ label.toList) (hslashes : ¬ "//".toList <+: localPart.toList)
    (h : IsAbsolute (label ++ ":" ++ localPart)) :
    split? (label ++ ":" ++ localPart) = some (label, localPart) := by
  obtain ⟨i, hi⟩ := h
  obtain ⟨hscheme, htail⟩ := scheme_eq_of_parse hlabel hi
  simp only [split?, hi, authority_eq_none hslashes htail, hscheme, htail, String.ofList_toList,
    Option.isSome_none, Bool.false_eq_true, if_false]

theorem split?_eq_none {value : String} (h : ¬ IsAbsolute value) : split? value = none := by
  cases hread : Iri.parse value with
  | ok i => exact absurd ⟨i, hread⟩ h
  | error fault => simp only [split?, hread]

/-- A name that ends as an IRI does is one itself, if its label is a scheme and no bracket closes in it. -/
theorem isAbsolute_name_iff (hlabel : ':' ∉ label.toList) (hslashes : ¬ "//".toList <+: localPart.toList)
    (hstripped : Text.IsStripped localPart) {ns : String} (habsolute : IsAbsolute (ns ++ localPart)) :
    IsAbsolute (label ++ ":" ++ localPart) ↔ IsScheme label.toList ∧ ']' ∉ localPart.toList := by
  constructor
  · rintro ⟨i, hi⟩
    have hvalid := Iri.isValid_of_read hi
    obtain ⟨hscheme, htail⟩ := scheme_eq_of_parse hlabel hi
    refine ⟨hscheme ▸ hvalid.scheme, ?_⟩
    have hpath := hvalid.tail.path.not_mem (c := ']') (by decide) (by decide) (by decide)
    have hmarked (mark : Char) (hmark : ']' ≠ mark) {part : Option (List Char)}
        (hpart : ∀ s ∈ part, ']' ∉ s) : ']' ∉ Iri.marked mark part := by
      cases part with
      | none => exact List.not_mem_nil
      | some s => exact List.not_mem_cons_of_ne_of_not_mem hmark (hpart s rfl)
    have hquery := hmarked '?' (by decide) fun q hq =>
      (hvalid.tail.query q hq).not_mem (by decide) (by decide) (by decide)
    have hfragment := hmarked '#' (by decide) fun f hf =>
      (hvalid.tail.fragment f hf).not_mem (by decide) (by decide) (by decide)
    rw [← htail, Iri.Tail.chars, authority_eq_none hslashes htail]
    simp [Iri.authorityChars, hpath, hquery, hfragment]
  · rintro ⟨hscheme, hbracket⟩
    obtain ⟨i, hi⟩ := habsolute
    have hsuffix : localPart.toList <:+ i.chars :=
      ⟨ns.toList, by rw [Iri.chars_of_read hi, String.toList_append]⟩
    obtain ⟨t, ht, -, hchars⟩ :=
      Iri.exists_tail_of_suffix (Iri.isValid_of_read hi) hsuffix hbracket hstripped hslashes
    let whole : Iri := ⟨label.toList, t⟩
    have htext : whole.text = label ++ ":" ++ localPart := by
      apply String.toList_inj.1
      rw [toList_name, Iri.text, String.toList_ofList, Iri.chars, hchars]
    exact ⟨whole, htext ▸ Iri.parse_text ⟨hscheme, ht⟩⟩

end PrefixedName

namespace Naming

variable {n : Naming} {label localPart ns : String}

/-- A bound label and a local part that make an absolute IRI, which is not the name of a built-in
datatype. -/
structure Binds (n : Naming) (label localPart ns : String) : Prop where
  bound : n.vocabularies.namespace? label = some ns
  label_ne : label ≠ ""
  label_stripped : Text.IsStripped label
  label_colon : ':' ∉ label.toList
  local_ne : localPart ≠ ""
  local_stripped : Text.IsStripped localPart
  local_slashes : ¬ "//".toList <+: localPart.toList
  local_mark : ¬ "://".toList <:+: localPart.toList
  absolute : IsAbsolute (ns ++ localPart)
  not_builtin : Standard.isXsdName (ns ++ localPart) = false

namespace Binds

theorem namespace?_eq (h : n.Binds label localPart ns) : n.namespace? label = some ns := by
  simp only [Naming.namespace?, h.bound]

theorem isEmpty_eq (h : n.Binds label localPart ns) : localPart.isEmpty = false := by
  rw [Bool.eq_false_iff, Ne, String.isEmpty_iff]
  exact h.local_ne

theorem stripSpace_name (h : n.Binds label localPart ns) :
    Text.stripSpace (label ++ ":" ++ localPart) = label ++ ":" ++ localPart := by
  refine Text.stripSpace_of_isStripped fun c hc => ?_
  rw [PrefixedName.toList_name, List.mem_append, List.mem_cons] at hc
  rcases hc with hc | rfl | hc
  · exact h.label_stripped c hc
  · decide +kernel
  · exact h.local_stripped c hc

/-! ### Datatypes -/

theorem datatype?_label (h : n.Binds label localPart ns) :
    n.datatype? ⟨some label, localPart⟩ = some (ns ++ localPart) := by
  simp only [datatype?, Text.stripSpace_of_isStripped h.local_stripped, h.isEmpty_eq, h.namespace?_eq,
    concat_of_isAbsolute h.absolute, Bool.false_eq_true, if_false]
  rfl

theorem datatype?_name (h : n.Binds label localPart ns) :
    n.datatype? ⟨none, label ++ ":" ++ localPart⟩ = some (ns ++ localPart) := by
  have hempty := PrefixedName.isEmpty_name label localPart
  have hexpand := PrefixedName.expand_name h.namespace?_eq h.label_colon h.local_slashes h.local_mark
  have hlocalName : Standard.xsdLocalName? (ns ++ localPart) = none := by
    simpa [Standard.isXsdName] using h.not_builtin
  have hresolve := Iri.resolveCandidate_of_isAbsolute (some n.base) h.absolute
  have hdatatype :
      PrefixedName.datatype? (some n.base) none (ns ++ localPart) = some (ns ++ localPart) := by
    simp only [PrefixedName.datatype?, PrefixedName.withPrefix, h.not_builtin, hresolve,
      Bool.false_eq_true, if_false]
  simp only [datatype?, h.stripSpace_name, hempty, hexpand, hdatatype, hlocalName, Bool.false_eq_true,
    if_false]

/-! ### Resources -/

theorem resource?_label (h : n.Binds label localPart ns) {candidate : String}
    (hresolve : Iri.resolveCandidate (some n.base) (label ++ ":" ++ localPart) = .ok (some candidate)) :
    n.resource? (some label) localPart = some (.iri (ns ++ localPart)) := by
  simp only [resource?, iri?, resolve, Text.stripSpace_of_isStripped h.local_stripped, h.isEmpty_eq,
    PrefixedName.withPrefix, hresolve, Option.bind_some, h.namespace?_eq, concat_of_isAbsolute h.absolute,
    Bool.false_eq_true, if_false]
  rfl

theorem resource?_label_eq_none (h : n.Binds label localPart ns)
    (hresolve : ¬ ∃ candidate,
      Iri.resolveCandidate (some n.base) (label ++ ":" ++ localPart) = .ok (some candidate)) :
    n.resource? (some label) localPart = none := by
  have hname : PrefixedName.withPrefix (some label) localPart = label ++ ":" ++ localPart := rfl
  simp only [resource?, iri?, resolve, Text.stripSpace_of_isStripped h.local_stripped, h.isEmpty_eq, hname,
    Bool.false_eq_true, if_false]
  rcases hcandidate : Iri.resolveCandidate (some n.base) (label ++ ":" ++ localPart) with fault | _ | iri
  · rfl
  · rfl
  · exact absurd ⟨iri, hcandidate⟩ hresolve

theorem isAbsolute_name_iff (h : n.Binds label localPart ns) :
    IsAbsolute (label ++ ":" ++ localPart) ↔ IsScheme label.toList ∧ ']' ∉ localPart.toList :=
  PrefixedName.isAbsolute_name_iff h.label_colon h.local_slashes h.local_stripped h.absolute

theorem resourceOfValue?_label (h : n.Binds label localPart ns) :
    n.resourceOfValue? (some label) localPart = n.resource? (some label) localPart := by
  change n.resource? (some label) (Text.stripSpace localPart) = _
  rw [Text.stripSpace_of_isStripped h.local_stripped]

theorem resourceOfValue?_name (h : n.Binds label localPart ns)
    (habsolute : IsAbsolute (label ++ ":" ++ localPart)) :
    n.resourceOfValue? none (label ++ ":" ++ localPart) = n.resource? (some label) localPart := by
  have hsplit := PrefixedName.split?_name h.label_colon h.local_slashes habsolute
  have hcontains : n.vocabularies.contains label = true := by
    rw [← Bool.not_eq_false, ← VocabularyList.namespace?_eq_none_iff, h.bound]
    exact Option.some_ne_none ns
  unfold resourceOfValue?
  simp only [h.stripSpace_name, hsplit, hcontains, if_true]

theorem resourceOfValue?_name_of_not_isAbsolute (h : n.Binds label localPart ns)
    (habsolute : ¬ IsAbsolute (label ++ ":" ++ localPart)) :
    n.resourceOfValue? none (label ++ ":" ++ localPart) = n.resource? none (label ++ ":" ++ localPart) := by
  unfold resourceOfValue?
  simp only [h.stripSpace_name, PrefixedName.split?_eq_none habsolute]

end Binds

end Naming

/-- **A bound name means the same as a datatype however it is written, and as a resource where its label
is a scheme.** A datatype is the namespace followed by the local part, whether the label stands apart or
in front of a colon. So is a resource, written either way, if the label has the form of a scheme and no
bracket closes in the local part. A name in one text whose label has not is read as it stands. With the
label apart a resource is still the namespace followed by the local part if the name can be resolved over
the base, and none if it cannot. -/
theorem bound_names_agree (n : Naming) {label localPart ns : String} (h : n.Binds label localPart ns) :
    let name := label ++ ":" ++ localPart
    let iri := ns ++ localPart
    let isRecognized := IsScheme label.toList ∧ ']' ∉ localPart.toList
    let isResolved := ∃ candidate, Iri.resolveCandidate (some n.base) name = .ok (some candidate)
    n.datatype? ⟨some label, localPart⟩ = some iri ∧ n.datatype? ⟨none, name⟩ = some iri ∧
    (isRecognized → n.resourceOfValue? (some label) localPart = some (.iri iri) ∧
      n.resourceOfValue? none name = some (.iri iri)) ∧
    (¬ isRecognized → n.resourceOfValue? none name = n.resource? none name) ∧
    (isResolved → n.resourceOfValue? (some label) localPart = some (.iri iri)) ∧
    (¬ isResolved → n.resourceOfValue? (some label) localPart = none) := by
  intro name iri isRecognized isResolved
  rw [h.resourceOfValue?_label]
  refine ⟨h.datatype?_label, h.datatype?_name, fun hrecognized => ?_, fun hrecognized => ?_, ?_, ?_⟩
  · -- an IRI is resolved to itself
    have habsolute := h.isAbsolute_name_iff.2 hrecognized
    have hresource := h.resource?_label (Iri.resolveCandidate_of_isAbsolute (some n.base) habsolute)
    exact ⟨hresource, (h.resourceOfValue?_name habsolute).trans hresource⟩
  · exact h.resourceOfValue?_name_of_not_isAbsolute (mt h.isAbsolute_name_iff.1 hrecognized)
  · rintro ⟨candidate, hcandidate⟩
    exact h.resource?_label hcandidate
  · exact h.resource?_label_eq_none

/-- Among the predefined vocabularies, `foaf:Person` is one IRI everywhere. -/
theorem bound_names_agree_person :
    let n : Naming := ⟨Transform.defaultBase, .predefined⟩
    let person := "http://xmlns.com/foaf/0.1/Person"
    n.Binds "foaf" "Person" "http://xmlns.com/foaf/0.1/" ∧
      n.datatype? ⟨some "foaf", "Person"⟩ = some person ∧ n.datatype? ⟨none, "foaf:Person"⟩ = some person ∧
      n.resourceOfValue? (some "foaf") "Person" = some (.iri person) ∧
      n.resourceOfValue? none "foaf:Person" = some (.iri person) := by
  intro n person
  have h : n.Binds "foaf" "Person" "http://xmlns.com/foaf/0.1/" := by
    constructor <;> decide +kernel
  have hscheme : IsScheme "foaf".toList :=
    ⟨⟨'f', "oaf".toList, rfl, rfl⟩, List.all_eq_true.1 (by decide +kernel)⟩
  obtain ⟨hlabel, hname, hrecognized, -⟩ := bound_names_agree n h
  obtain ⟨hresource, hvalue⟩ := hrecognized ⟨hscheme, by decide +kernel⟩
  exact ⟨h, hlabel, hname, hresource, hvalue⟩

/-- With an underscore in its label a name is read as a path below the base. With a percent sign in its
label, or a closing bracket in its local part, it cannot be resolved, and a resource is none. -/
theorem bound_names_disagree_without_scheme :
    let foaf := "http://xmlns.com/foaf/0.1/"
    let vocabularies : VocabularyList := .ofList
      [{ label := "my_ns", ns := foaf }, { label := "100%", ns := foaf }, { label := "ip", ns := "http://[" }]
    let n : Naming := ⟨Transform.defaultBase, vocabularies⟩
    (n.Binds "my_ns" "Person" foaf ∧ n.datatype? ⟨none, "my_ns:Person"⟩ = some (foaf ++ "Person") ∧
      n.resourceOfValue? (some "my_ns") "Person" = some (.iri (foaf ++ "Person")) ∧
      n.resourceOfValue? none "my_ns:Person" = some (.iri "http://localhost:3333/my_ns:Person") ∧
      n.resourceOfValue? none "my_ns:Person" ≠ n.resourceOfValue? (some "my_ns") "Person") ∧
    (n.Binds "100%" "Person" foaf ∧ n.datatype? ⟨none, "100%:Person"⟩ = some (foaf ++ "Person") ∧
      n.resourceOfValue? (some "100%") "Person" = none) ∧
    n.Binds "ip" "::1]/" "http://[" ∧ n.datatype? ⟨none, "ip:::1]/"⟩ = some "http://[::1]/" ∧
      n.resourceOfValue? (some "ip") "::1]/" = none := by
  intro foaf vocabularies n
  refine ⟨⟨?_, ?_⟩, ⟨?_, ?_⟩, ?_, ?_⟩
  · constructor <;> decide +kernel
  · decide +kernel
  · constructor <;> decide +kernel
  · decide +kernel
  · constructor <;> decide +kernel
  · decide +kernel

end TableGraph
