import TableGraph.Proofs.Naming.PrefixedNames

/-!
# Where a prefix ends

A prefixed name is recognized in two ways: `split?` reads the whole text as an IRI and cuts it behind the
scheme, `colonPosition?` looks for the first colon and reads the text only if something stands on both sides
of it. Both cut at the first colon (`split?_eq_some_iff`, `exists_name_of_colonPosition?`), and of the names
with something on both sides they recognize the same (`colonPosition?_name_iff`).
-/

namespace TableGraph

namespace Text

theorem utf8ByteSize_ofList (s : List Char) : (String.ofList s).utf8ByteSize = byteLength s := by
  induction s with
  | nil => rfl
  | cons c rest ih =>
    rw [byteLength, ← ih, ← List.singleton_append, String.ofList_append, String.utf8ByteSize_append,
      ← String.singleton_eq_ofList, String.utf8ByteSize_singleton]

theorem byteLength_toList (s : String) : byteLength s.toList = s.utf8ByteSize := by
  rw [← utf8ByteSize_ofList, String.ofList_toList]

end Text

theorem Iri.isWhiteSpace_of_isSchemeChar {c : Char} (h : isSchemeChar c = true) :
    Unicode.isWhiteSpace c = false := by
  have hgraphic : 0x21 ≤ c.toNat ∧ c.toNat ≤ 0x7E := by
    simp only [isSchemeChar, Bool.or_eq_true, beq_iff_eq] at h
    rcases h with ((halphanum | rfl) | rfl) | rfl
    · rw [isAlphanum_iff] at halphanum
      omega
    all_goals decide
  have houtside : ∀ r ∈ Unicode.whiteSpaceRanges, r.2 < 0x21 ∨ 0x7E < r.1 := by decide
  rw [Unicode.isWhiteSpace, ← Bool.not_eq_true]
  intro hspace
  obtain ⟨r, hr, hlo, hhi⟩ := Unicode.exists_range_of_inRanges hspace
  rcases houtside r hr with hbefore | hbehind <;> omega

namespace PrefixedName

open Text (cutAt_eq_some_iff byteLength_toList)

variable {value label localPart : String}

/-- An absolute IRI without an authority. -/
def IsBare (value : String) : Prop :=
  ∃ i, Iri.parse value = .ok i ∧ i.tail.authority = none

/-! ## Splitting -/

/-- An IRI without an authority is split at its first colon, and nothing else is split. -/
theorem split?_eq_some_iff : split? value = some (label, localPart) ↔
    IsBare value ∧ value = label ++ ":" ++ localPart ∧ ':' ∉ label.toList := by
  constructor
  · intro h
    unfold split? at h
    split at h
    · rename_i scheme tail hread
      split at h
      · cases h
      · rename_i hauthority
        obtain ⟨rfl, rfl⟩ := Prod.mk.inj (Option.some.inj h)
        refine ⟨⟨_, hread, Option.not_isSome_iff_eq_none.1 hauthority⟩, ?_, ?_⟩
        · rw [← String.toList_inj, toList_name, String.toList_ofList, String.toList_ofList]
          exact (Iri.chars_of_read hread).symm
        · rw [String.toList_ofList]
          exact colon_notMem_scheme hread
    · cases h
  · rintro ⟨⟨i, hi, hauthority⟩, rfl, hlabel⟩
    obtain ⟨hscheme, htail⟩ := scheme_eq_of_parse hlabel hi
    simp only [split?, hi, hauthority, hscheme, htail, String.ofList_toList, Option.isSome_none,
      Bool.false_eq_true, if_false]

theorem isSome_split?_iff : (split? value).isSome = true ↔ IsBare value := by
  constructor
  · intro h
    obtain ⟨⟨label, localPart⟩, hsplit⟩ := Option.isSome_iff_exists.1 h
    exact (split?_eq_some_iff.1 hsplit).1
  · rintro ⟨i, hi, hauthority⟩
    simp only [split?, hi, hauthority, Option.isSome_none, Option.isSome_some, Bool.false_eq_true, if_false]

theorem isScheme_of_split? (h : split? value = some (label, localPart)) : Iri.IsScheme label.toList := by
  obtain ⟨⟨i, hi, -⟩, rfl, hlabel⟩ := split?_eq_some_iff.1 h
  obtain ⟨hscheme, -⟩ := scheme_eq_of_parse hlabel hi
  exact hscheme ▸ (Iri.isValid_of_read hi).scheme

/-! ## The colon -/

theorem cutAt_name (hlabel : ':' ∉ label.toList) :
    Text.cutAt ':' (label ++ ":" ++ localPart).toList = some (label.toList, localPart.toList) :=
  cutAt_eq_some_iff.2 ⟨hlabel, (toList_name label localPart).symm⟩

/-- Where something stands on both sides of the first colon, the whole text has to be an IRI. -/
theorem colonPosition?_name_iff {i : Nat} (hlabel : ':' ∉ label.toList) (hne : label ≠ "")
    (hlocal : localPart ≠ "") : colonPosition? (label ++ ":" ++ localPart) = some i ↔
      IsBare (label ++ ":" ++ localPart) ∧ label.utf8ByteSize = i := by
  have hlabelEmpty : label.toList.isEmpty = false := by simpa using hne
  have hlocalEmpty : localPart.toList.isEmpty = false := by simpa using hlocal
  simp only [colonPosition?, cutAt_name hlabel, hlabelEmpty, hlocalEmpty, Bool.false_eq_true, if_false,
    byteLength_toList]
  constructor
  · intro h
    split at h
    · rename_i iri hread
      split at h
      · cases h
      · rename_i hauthority
        exact ⟨⟨iri, Iri.parse_eq_ok_iff.2 hread, Option.not_isSome_iff_eq_none.1 hauthority⟩,
          Option.some.inj h⟩
    · cases h
  · rintro ⟨⟨iri, hiri, hauthority⟩, rfl⟩
    simp only [Iri.parse_eq_ok_iff.1 hiri, hauthority, Option.isSome_none, Bool.false_eq_true, if_false]

theorem colonPosition?_alone (hlabel : ':' ∉ label.toList) (hne : label ≠ "")
    (hspace : ∀ c ∈ label.toList, Unicode.isWhiteSpace c = false) :
    colonPosition? (label ++ ":" ++ "") = some label.utf8ByteSize := by
  have hlabelEmpty : label.toList.isEmpty = false := by simpa using hne
  have hany : (label ++ ":" ++ "").toList.any Unicode.isWhiteSpace = false := by
    rw [toList_name, List.any_append, List.any_cons, Bool.or_eq_false_iff]
    refine ⟨List.any_eq_false.2 fun c hc => ?_, by decide⟩
    simp [hspace c hc]
  simp only [colonPosition?, cutAt_name hlabel, hlabelEmpty, hany, byteLength_toList, String.toList_empty,
    List.isEmpty_nil, Bool.false_eq_true, if_false, if_true]

theorem exists_name_of_colonPosition? {i : Nat} (h : colonPosition? value = some i) :
    ∃ label localPart, value = label ++ ":" ++ localPart ∧ ':' ∉ label.toList ∧
      label.utf8ByteSize = i := by
  unfold colonPosition? at h
  split at h
  · cases h
  · rename_i label localPart hcut
    obtain ⟨hlabel, happend⟩ := cutAt_eq_some_iff.1 hcut
    have hposition : Text.byteLength label = i := by
      split at h
      · rename_i hempty
        obtain rfl := List.isEmpty_iff.1 hempty
        exact Option.some.inj h
      split at h
      · split at h
        · cases h
        · exact Option.some.inj h
      split at h
      · split at h
        · cases h
        · exact Option.some.inj h
      · cases h
    refine ⟨String.ofList label, String.ofList localPart, ?_, ?_, ?_⟩
    · rw [← String.toList_inj, toList_name, String.toList_ofList, String.toList_ofList]
      exact happend.symm
    · rwa [String.toList_ofList]
    · rw [Text.utf8ByteSize_ofList, hposition]

end PrefixedName

open PrefixedName

/-- **The two ways to recognize a prefixed name agree.** What is split is a prefix, the first colon and a
local part, and the position of the colon is told as the length of the prefix in bytes. Where conversely a
position is told with something before and behind it, the first colon stands there, and the text is split
into what comes before and behind. Exactly the absolute IRIs without an authority are split. -/
theorem recognized_prefixes_agree (value : String) :
    (∀ label localPart, split? value = some (label, localPart) →
      value = label ++ ":" ++ localPart ∧ ':' ∉ label.toList ∧
        colonPosition? value = some label.utf8ByteSize) ∧
    (∀ i, colonPosition? value = some i → 0 < i → i + 1 < value.utf8ByteSize →
      ∃ label localPart, value = label ++ ":" ++ localPart ∧ ':' ∉ label.toList ∧
        label.utf8ByteSize = i ∧ split? value = some (label, localPart)) ∧
    ((split? value).isSome = true ↔ ∃ i, Iri.parse value = .ok i ∧ i.tail.authority = none) := by
  refine ⟨fun label localPart hsplit => ?_, fun i hposition hbefore hbehind => ?_, isSome_split?_iff⟩
  · obtain ⟨hbare, rfl, hlabel⟩ := split?_eq_some_iff.1 hsplit
    obtain ⟨⟨c, rest, hscheme, -⟩, hall⟩ := isScheme_of_split? hsplit
    have hne : label ≠ "" := by
      rintro rfl
      cases hscheme
    refine ⟨rfl, hlabel, ?_⟩
    by_cases hlocal : localPart = ""
    · subst hlocal
      exact colonPosition?_alone hlabel hne fun c hc => Iri.isWhiteSpace_of_isSchemeChar (hall c hc)
    · exact (colonPosition?_name_iff hlabel hne hlocal).2 ⟨hbare, rfl⟩
  · obtain ⟨label, localPart, rfl, hlabel, rfl⟩ := exists_name_of_colonPosition? hposition
    have hne : label ≠ "" := by
      rintro rfl
      exact absurd hbefore (by decide)
    have hlocal : localPart ≠ "" := by
      rintro rfl
      have hsize : (label ++ ":" ++ "").utf8ByteSize = label.utf8ByteSize + 1 := by
        rw [String.append_empty, String.utf8ByteSize_append]
        rfl
      omega
    have hbare := ((colonPosition?_name_iff hlabel hne hlocal).1 hposition).1
    exact ⟨label, localPart, rfl, hlabel, rfl, split?_eq_some_iff.2 ⟨hbare, rfl, hlabel⟩⟩

/-- The prefix of this name is found, though a character of its local part takes up two bytes. -/
theorem recognized_prefixes_agree_cafe :
    split? "foaf:Café" = some ("foaf", "Café") ∧ colonPosition? "foaf:Café" = some 4 ∧
      ∃ label localPart, "foaf:Café" = label ++ ":" ++ localPart ∧ label.utf8ByteSize = 4 ∧
        split? "foaf:Café" = some (label, localPart) := by
  have hsplit : split? "foaf:Café" = some ("foaf", "Café") := by decide +kernel
  have hposition := ((recognized_prefixes_agree "foaf:Café").1 _ _ hsplit).2.2
  have hbehind : 4 + 1 < "foaf:Café".utf8ByteSize := by decide
  obtain ⟨label, localPart, hvalue, -, hlabel, hparts⟩ :=
    (recognized_prefixes_agree "foaf:Café").2.1 4 hposition (by decide) hbehind
  exact ⟨hsplit, hposition, label, localPart, hvalue, hlabel, hparts⟩

end TableGraph
