import TableGraph.Proofs.Document.Nesting
import TableGraph.Proofs.Json.Texts

/-!
# Saved texts

A transform is saved as strings in arrays and objects. The keys of an object are different, since each part
is written with its fields in order, whichever of them it has, and vocabularies have different labels
(`isTextual_toJson`). A transform that was loaded is saved no deeper than two levels or than what it was
loaded from; so a text that could be read is saved as one that can, and that is loaded again
(`saving_nests_no_deeper`).
-/

namespace TableGraph

namespace Json

/-- Textual values under some of the keys, in their order. -/
structure IsKeyed (names : List String) (entries : List (String × Json)) : Prop where
  keys : (entries.map (·.1)).Sublist names
  values : ∀ e ∈ entries, e.2.IsTextual

namespace IsKeyed

theorem isTextual {names : List String} {entries : List (String × Json)} (h : IsKeyed names entries)
    (hnames : names.Nodup) : (object entries).IsTextual :=
  .object (hnames.sublist h.keys) h.values

theorem nil {names : List String} : IsKeyed names [] :=
  ⟨List.nil_sublist names, nofun⟩

theorem entry {key : String} {value : Option Json} (h : ∀ v ∈ value, v.IsTextual) :
    IsKeyed [key] (Json.entry key value) := by
  refine ⟨?_, forall_mem_entry.2 h⟩
  cases value with
  | none => exact List.nil_sublist _
  | some v => exact List.Sublist.refl _

theorem ofString (key : String) (s : Option String) : IsKeyed [key] (Json.entry key (s.map .string)) := by
  refine entry fun v hv => ?_
  obtain ⟨text, -, rfl⟩ := Option.map_eq_some_iff.1 hv
  exact .string text

theorem ofMap {key : String} {write : α → Json} (h : ∀ a, (write a).IsTextual) (value : Option α) :
    IsKeyed [key] (Json.entry key (value.map write)) := by
  refine entry fun v hv => ?_
  obtain ⟨a, -, rfl⟩ := Option.map_eq_some_iff.1 hv
  exact h a

theorem ofList {key : String} {items : List Json} (h : ∀ v ∈ items, v.IsTextual) :
    IsKeyed [key] (listEntry key items) := by
  refine entry fun v hv => ?_
  unfold array? at hv
  split at hv
  · cases hv
  · obtain rfl := Option.some.inj hv
    exact .array h

theorem append {names more : List String} {entries others : List (String × Json)}
    (h : IsKeyed names entries) (h' : IsKeyed more others) : IsKeyed (names ++ more) (entries ++ others) :=
  ⟨List.map_append ▸ h.keys.append h'.keys, List.forall_mem_append.2 ⟨h.values, h'.values⟩⟩

theorem cons {key : String} {value : Json} {names : List String} {entries : List (String × Json)}
    (hvalue : value.IsTextual) (h : IsKeyed names entries) :
    IsKeyed (key :: names) ((key, value) :: entries) :=
  ⟨h.keys.cons_cons key, List.forall_mem_cons.2 ⟨hvalue, h.values⟩⟩

end IsKeyed

end Json

namespace Document

open Json (IsKeyed)

/-! ## Parts of documents -/

theorem ValueSource.isTextual_toJson (s : ValueSource) : s.toJson.IsTextual :=
  (IsKeyed.cons (.string _) ((IsKeyed.ofString "columnName" _).append (.ofString "constant" _))).isTextual
    (by decide)

theorem StoredExpression.isTextual_toJson (e : StoredExpression) : e.toJson.IsTextual := by
  have hcode : IsKeyed ["code"] [("code", .string e.code)] := .cons (.string _) .nil
  exact ((IsKeyed.ofString "language" _).append hcode).isTextual (by decide)

theorem StoredName.isKeyed_entries (name : StoredName) : IsKeyed ["prefix", "valueSource"] name.entries :=
  (IsKeyed.ofString "prefix" _).append (.ofMap ValueSource.isTextual_toJson _)

theorem StoredName.isTextual_toJson (name : StoredName) : name.toJson.IsTextual :=
  name.isKeyed_entries.isTextual (by decide)

theorem StoredType.isTextual_toJson (type : StoredType) : type.toJson.IsTextual := by
  have hdatatype : IsKeyed ["datatype"] _ := .ofMap StoredName.isTextual_toJson type.datatype
  have hrest := hdatatype.append (.ofString "language" type.language)
  exact (IsKeyed.cons (.string _) hrest).isTextual (by decide)

theorem NodeHead.isKeyed_entries (head : NodeHead) :
    IsKeyed ["prefix", "valueSource", "expression", "valueType"] head.entries :=
  (((IsKeyed.ofString "prefix" _).append (.ofMap ValueSource.isTextual_toJson _)).append
    (.ofMap StoredExpression.isTextual_toJson _)).append (.ofMap StoredType.isTextual_toJson _)

/-! ## Nodes -/

mutual

theorem StoredNode.isTextual_toJson (node : StoredNode) : node.toJson.IsTextual := by
  obtain ⟨head, types, properties⟩ := node
  have htypes : ∀ v ∈ types.map StoredName.toJson, v.IsTextual :=
    List.forall_mem_map.2 fun name _ => name.isTextual_toJson
  rw [StoredNode.toJson]
  exact ((head.isKeyed_entries.append (.ofList htypes)).append
    (.ofList (isTextual_propertiesToJson properties))).isTextual (by decide)

theorem isTextual_propertiesToJson (properties : List (StoredName × List StoredNode)) :
    ∀ v ∈ propertiesToJson properties, v.IsTextual := by
  match properties with
  | [] => exact nofun
  | (name, objects) :: rest =>
    have hobjects := isTextual_nodesToJson objects
    rw [propertiesToJson]
    refine List.forall_mem_cons.2 ⟨?_, isTextual_propertiesToJson rest⟩
    exact (name.isKeyed_entries.append (.ofList hobjects)).isTextual (by decide)

theorem isTextual_nodesToJson (nodes : List StoredNode) : ∀ v ∈ nodesToJson nodes, v.IsTextual := by
  match nodes with
  | [] => exact nofun
  | node :: rest =>
    rw [nodesToJson]
    exact List.forall_mem_cons.2 ⟨node.isTextual_toJson, isTextual_nodesToJson rest⟩

end

/-! ## Documents -/

theorem isTextual_saveVocabulary (v : Vocabulary) : (saveVocabulary v).toJson.IsTextual := by
  unfold saveVocabulary
  split
  · exact .string v.ns
  · have hrest := (IsKeyed.ofString "location" (some v.location)).append
      (.ofString "loctype" (some v.locationType.name))
    exact (IsKeyed.cons (.string v.ns) hrest).isTextual (by decide)

/-- A transform whose vocabularies have different labels is saved as strings, in arrays and objects. -/
theorem isTextual_toJson {t : Transform} (h : t.naming.vocabularies.labels.Nodup) :
    t.toJson.IsTextual := by
  have hnamespaces : (Json.object (t.naming.vocabularies.entries.map fun v =>
      (v.label, (saveVocabulary v).toJson))).IsTextual := by
    refine .object ?_ (List.forall_mem_map.2 fun v _ => isTextual_saveVocabulary v)
    rwa [List.map_map]
  have hroots : (Json.array (t.roots.map fun root => (saveNode true root).toJson)).IsTextual :=
    .array (List.forall_mem_map.2 fun root _ => StoredNode.isTextual_toJson _)
  have hkeyed : IsKeyed ["extension", "version", "baseIRI", "namespaces", "subjectMappings"] _ :=
    .cons (.string extensionName) (.cons (.string Transform.currentVersion)
      (.cons (.string t.naming.base.text) (.cons hnamespaces (.cons hroots .nil))))
  exact hkeyed.isTextual (by decide)

end Document

namespace Transform

open Document (isTextual_toJson)

theorem parse?_toText {read : ClassReader} {config : Config} {v : Json} {t : Transform}
    (h : ofJson config v read = .ok t) (hdepth : t.toJson.depth ≤ Json.maxLevels) : Json.parse? t.toText = some t.toJson := by
  obtain ⟨rule, -, hregular⟩ := isRegular_of_ofJson h
  exact Json.parse?_text (isTextual_toJson hregular.labels_nodup) hdepth

theorem exists_ofJson_toJson {read : ClassReader} {config : Config} {v : Json} {t : Transform}
    (h : ofJson config v read = .ok t) : ∃ again, ofJson config t.toJson read = .ok again := by
  obtain ⟨rule, hrule, -⟩ := isRegular_of_ofJson h
  have hread : Document.ofJson? t.toJson = some t.toDocument := Document.ofJson?_toJson rfl
  refine ⟨t.toDocument.load rule, ?_⟩
  rw [ofJson, hread, hrule]
  rfl

end Transform

/-- **Saving nests no deeper than loading.** With whatever settings and classes, the value that a loaded transform is
saved as is nested no deeper than two levels, or than the value it was loaded from. So a transform that
was loaded from a text is saved as a value that is not nested too deep for a text; the text it is saved as
is read as that value, and a transform is loaded from it. -/
theorem saving_nests_no_deeper (read : ClassReader) (config : Config) :
    (∀ (v : Json) (t : Transform), Transform.ofJson config v read = .ok t →
      t.toJson.depth ≤ max 2 v.depth) ∧
    ∀ (s : String) (t : Transform), Transform.ofText config s read = .ok t →
      t.toJson.depth ≤ Json.maxLevels ∧ Json.parse? t.toText = some t.toJson ∧
        ∃ again, Transform.ofText config t.toText read = .ok again := by
  refine ⟨fun v t h => Transform.depth_toJson_le_of_ofJson h, fun s t h => ?_⟩
  unfold Transform.ofText at h
  split at h
  · cases h
  · rename_i v hv
    have htwo : 2 ≤ Json.maxLevels := by decide
    have hdepth : t.toJson.depth ≤ Json.maxLevels :=
      calc t.toJson.depth
        _ ≤ max 2 v.depth := Transform.depth_toJson_le_of_ofJson h
        _ ≤ Json.maxLevels := Nat.max_le.2 ⟨htwo, Json.depth_le_of_parse? hv⟩
    have hparse := Transform.parse?_toText h hdepth
    obtain ⟨again, hagain⟩ := Transform.exists_ofJson_toJson h
    refine ⟨hdepth, hparse, again, ?_⟩
    rw [Transform.ofText, hparse]
    exact hagain

/-- A document in which one resource stands for the rows, with its parts in arrays. -/
theorem saving_nests_no_deeper_rows :
    let v : Json := .object [("subjectMappings", .array [.array [.null, .array [.string "row_index"]]])]
    let t : Transform := ⟨⟨Transform.defaultBase, .predefined⟩,
      [.resource (.cellIri ⟨.rowIndex, none, .cellValue⟩ none) [] []], Transform.currentVersion⟩
    (Transform.ofJson {} v = .ok t ∧ t.toJson.depth ≤ max 2 v.depth) ∧
      Transform.ofText {} v.text = .ok t ∧ t.toJson.depth ≤ Json.maxLevels ∧
        Json.parse? t.toText = some t.toJson ∧ ∃ again, Transform.ofText {} t.toText = .ok again := by
  intro v t
  have hload : Transform.ofJson {} v = .ok t := Outcome.toOption_eq_some_iff.1 (by decide +kernel)
  have hparse : Json.parse? v.text = some v := by decide +kernel
  have htext : Transform.ofText {} v.text = .ok t := by rwa [Transform.ofText, hparse]
  have hnests := saving_nests_no_deeper BlankLabel.CharacterSet.ofText? {}
  exact ⟨⟨hload, hnests.1 v t hload⟩, htext, hnests.2 _ t htext⟩

end TableGraph
