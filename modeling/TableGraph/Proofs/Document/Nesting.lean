import TableGraph.Proofs.Document.Heads
import TableGraph.Proofs.Document.Levels
import TableGraph.Proofs.Document.RoundTrip
import TableGraph.Proofs.Json.Nesting
import TableGraph.Proofs.Vocabulary.Edits

/-!
# How deep saved documents are nested

A value that a transform is saved as is nested no deeper than the value it was loaded from, but for the two
levels that saving always writes (`Transform.depth_toJson_le_of_ofJson`). A part of a document is written
where one was read, so what was read is written no deeper (`StoredNode.depth_le_of_ofJsonWithin?`); a node is
only loaded if it has a value source, which is as deep as the source, expression and value type that saving
adds (`depth_saveNode_le`, by induction on how deep the node is stored).
-/

namespace TableGraph

open Json (array listEntry depth_object_le_iff depth_array_le_iff depth_lt_of_mem_array
  depth_array_le_of_forall forall_mem_entry forall_mem_listEntry exists_depth_of_fields? depth_le_of_optional
  depth_le_of_withDefault)

namespace Document

/-! ## What is written -/

theorem ValueSource.depth_toJson (s : ValueSource) : s.toJson.depth = 1 := by
  obtain ⟨source, column, constant⟩ := s
  cases column <;> cases constant <;> rfl

theorem StoredExpression.depth_toJson (e : StoredExpression) : e.toJson.depth = 1 := by
  obtain ⟨language, code⟩ := e
  cases language <;> rfl

theorem depth_string_le {s : Option String} {n : Nat} : ∀ v ∈ s.map Json.string, v.depth ≤ n := by
  intro v hv
  obtain ⟨text, -, rfl⟩ := Option.map_eq_some_iff.1 hv
  exact Nat.zero_le n

variable {n : Nat}

theorem StoredName.forall_mem_entries {name : StoredName} :
    (∀ e ∈ name.entries, e.2.depth ≤ n) ↔ ∀ s ∈ name.valueSource, s.toJson.depth ≤ n := by
  rw [entries, List.forall_mem_append, forall_mem_entry, forall_mem_entry]
  simp [depth_string_le]

theorem StoredName.depth_toJson_le_iff {name : StoredName} :
    name.toJson.depth ≤ n + 1 ↔ ∀ s ∈ name.valueSource, s.toJson.depth ≤ n := by
  rw [toJson, depth_object_le_iff, forall_mem_entries]

theorem StoredType.depth_toJson_le_iff {type : StoredType} :
    type.toJson.depth ≤ n + 1 ↔ ∀ name ∈ type.datatype, name.toJson.depth ≤ n := by
  rw [toJson, depth_object_le_iff, List.cons_append, List.forall_mem_cons, List.forall_mem_append,
    forall_mem_entry, forall_mem_entry]
  simp [depth_string_le]

theorem NodeHead.forall_mem_entries {head : NodeHead} :
    (∀ e ∈ head.entries, e.2.depth ≤ n) ↔
      (∀ s ∈ head.valueSource, s.toJson.depth ≤ n) ∧ (∀ e ∈ head.expression, e.toJson.depth ≤ n) ∧
        ∀ t ∈ head.valueType, t.toJson.depth ≤ n := by
  rw [entries, List.forall_mem_append, List.forall_mem_append, List.forall_mem_append, forall_mem_entry,
    forall_mem_entry, forall_mem_entry, forall_mem_entry]
  simp [depth_string_le, and_assoc]

def propertyToJson (property : StoredName × List StoredNode) : Json :=
  .object (property.1.entries ++ listEntry "objectMappings" (property.2.map StoredNode.toJson))

theorem nodesToJson_eq (nodes : List StoredNode) : nodesToJson nodes = nodes.map StoredNode.toJson := by
  induction nodes with
  | nil => rfl
  | cons node rest ih => rw [nodesToJson, ih, List.map_cons]

theorem propertiesToJson_eq (properties : List (StoredName × List StoredNode)) :
    propertiesToJson properties = properties.map propertyToJson := by
  induction properties with
  | nil => rfl
  | cons property rest ih => rw [propertiesToJson, ih, nodesToJson_eq, List.map_cons, propertyToJson]

theorem depth_propertyToJson_le_iff {name : StoredName} {objects : List StoredNode} :
    (propertyToJson (name, objects)).depth ≤ n + 1 ↔ (∀ s ∈ name.valueSource, s.toJson.depth ≤ n) ∧
      (objects ≠ [] → (array (objects.map StoredNode.toJson)).depth ≤ n) := by
  rw [propertyToJson, depth_object_le_iff, List.forall_mem_append, StoredName.forall_mem_entries,
    forall_mem_listEntry, Ne, List.map_eq_nil_iff]

theorem StoredNode.depth_toJson_le_iff {head : NodeHead} {types : List StoredName}
    {properties : List (StoredName × List StoredNode)} :
    (StoredNode.mk head types properties).toJson.depth ≤ n + 1 ↔
      (∀ e ∈ head.entries, e.2.depth ≤ n) ∧
      (types ≠ [] → (array (types.map StoredName.toJson)).depth ≤ n) ∧
      (properties ≠ [] → (array (properties.map propertyToJson)).depth ≤ n) := by
  rw [toJson, depth_object_le_iff, List.forall_mem_append, List.forall_mem_append, forall_mem_listEntry,
    forall_mem_listEntry, propertiesToJson_eq, Ne, List.map_eq_nil_iff, Ne, List.map_eq_nil_iff, and_assoc]

/-! ## What was read -/

theorem ValueSource.depth_le_of_ofJson? {v : Json} {s : ValueSource} (h : ofJson? v = some s) :
    s.toJson.depth ≤ v.depth := by
  obtain ⟨values, hvalues, -⟩ := Option.bind_eq_some_iff.1 h
  obtain ⟨n, hn, -⟩ := exists_depth_of_fields? hvalues
  rw [depth_toJson]
  omega

theorem StoredExpression.depth_le_of_ofJson? {v : Json} {e : StoredExpression} (h : ofJson? v = some e) :
    e.toJson.depth ≤ v.depth := by
  obtain ⟨values, hvalues, -⟩ := Option.bind_eq_some_iff.1 h
  obtain ⟨n, hn, -⟩ := exists_depth_of_fields? hvalues
  rw [depth_toJson]
  omega

theorem StoredName.depth_le_of_ofJson? {v : Json} {name : StoredName} (h : ofJson? v = some name) :
    name.toJson.depth ≤ v.depth := by
  obtain ⟨values, hvalues, h⟩ := Option.bind_eq_some_iff.1 h
  obtain ⟨n, hn, hfields⟩ := exists_depth_of_fields? hvalues
  split at h
  · rename_i label source
    simp only [Option.bind_eq_bind, Option.bind_eq_some_iff] at h
    obtain ⟨_, -, _, hs, h⟩ := h
    obtain rfl := Option.some.inj h
    rw [hn, depth_toJson_le_iff]
    exact depth_le_of_optional (fun _ _ => ValueSource.depth_le_of_ofJson?) (hfields _ (by simp)) hs
  · cases h

theorem StoredType.depth_le_of_ofJson? {v : Json} {type : StoredType} (h : ofJson? v = some type) :
    type.toJson.depth ≤ v.depth := by
  obtain ⟨values, hvalues, h⟩ := Option.bind_eq_some_iff.1 h
  obtain ⟨n, hn, hfields⟩ := exists_depth_of_fields? hvalues
  split at h
  · rename_i kind datatype language
    simp only [Option.bind_eq_bind, Option.bind_eq_some_iff] at h
    obtain ⟨_, -, _, hdatatype, _, -, h⟩ := h
    obtain rfl := Option.some.inj h
    rw [hn, depth_toJson_le_iff]
    exact depth_le_of_optional (fun _ _ => StoredName.depth_le_of_ofJson?) (hfields _ (by simp)) hdatatype
  · cases h

theorem depth_le_of_propertyOfJson? {object : Json → Option StoredNode}
    (hobject : ∀ v stored, object v = some stored → stored.toJson.depth ≤ v.depth) {v : Json}
    {property : StoredName × List StoredNode} (h : propertyOfJson? object v = some property) :
    (propertyToJson property).depth ≤ v.depth := by
  obtain ⟨name, objects⟩ := property
  obtain ⟨label, source, os, hvalues, -, hs, hobjects⟩ := propertyOfJson?_eq_some_iff.1 h
  obtain ⟨n, hn, hfields⟩ := exists_depth_of_fields? hvalues
  rw [hn, depth_propertyToJson_le_iff]
  constructor
  · exact depth_le_of_optional (fun _ _ => ValueSource.depth_le_of_ofJson?) (hfields _ (by simp)) hs
  · exact depth_le_of_withDefault hobject (hfields _ (by simp)) hobjects

/-- A node is written no deeper than it was read, with whatever levels. -/
theorem StoredNode.depth_le_of_ofJsonWithin? {levels : Nat} {v : Json} {stored : StoredNode}
    (h : ofJsonWithin? levels v = some stored) : stored.toJson.depth ≤ v.depth := by
  induction levels generalizing v stored with
  | zero => cases h
  | succ levels ih =>
    obtain ⟨head, types, properties⟩ := stored
    obtain ⟨label, source, expression, type, ts, ps, hvalues, hhead, htypes, hproperties⟩ :=
      ofJsonWithin?_eq_some_iff.1 h
    obtain ⟨n, hn, hfields⟩ := exists_depth_of_fields? hvalues
    simp only [headOfFields, Option.bind_eq_bind, Option.bind_eq_some_iff] at hhead
    obtain ⟨_, -, _, hs, _, he, _, ht, hhead⟩ := hhead
    obtain rfl := Option.some.inj hhead
    rw [hn, depth_toJson_le_iff, NodeHead.forall_mem_entries]
    refine ⟨⟨?_, ?_, ?_⟩, ?_, ?_⟩
    · exact depth_le_of_optional (fun _ _ => ValueSource.depth_le_of_ofJson?) (hfields _ (by simp)) hs
    · exact depth_le_of_optional (fun _ _ => StoredExpression.depth_le_of_ofJson?) (hfields _ (by simp)) he
    · exact depth_le_of_optional (fun _ _ => StoredType.depth_le_of_ofJson?) (hfields _ (by simp)) ht
    · exact depth_le_of_withDefault (fun _ _ => StoredName.depth_le_of_ofJson?) (hfields _ (by simp)) htypes
    · exact depth_le_of_withDefault (fun _ _ => depth_le_of_propertyOfJson? fun _ _ => ih)
        (hfields _ (by simp)) hproperties

/-! ## What was loaded -/

theorem ValueSource.depth_lt {s : ValueSource} {name : StoredName} (h : name.valueSource = some s) :
    s.toJson.depth < name.toJson.depth := by
  obtain ⟨n, hn⟩ : ∃ n, name.toJson.depth = n + 1 := ⟨_, rfl⟩
  have hle := StoredName.depth_toJson_le_iff.1 (Nat.le_of_eq hn) s h
  omega

theorem StoredName.depth_lt {name : StoredName} {type : StoredType} (h : type.datatype = some name) :
    name.toJson.depth < type.toJson.depth := by
  obtain ⟨n, hn⟩ : ∃ n, type.toJson.depth = n + 1 := ⟨_, rfl⟩
  have hle := StoredType.depth_toJson_le_iff.1 (Nat.le_of_eq hn) name h
  omega

theorem depth_saveName (name : IriName) : (saveName name).toJson.depth = 2 := by
  obtain ⟨label, path⟩ := name
  cases label <;> rfl

theorem exists_of_constantPath {source : Option ValueSource} {path : String}
    (h : constantPath source = .ok path) : ∃ s, source = some s := by
  cases source with
  | none => cases h
  | some s => exact ⟨s, rfl⟩

theorem exists_of_usableSource {source : Option ValueSource} {used : UsableSource}
    (h : usableSource source = .ok used) : ∃ s, source = some s := by
  cases source with
  | none => cases h
  | some s => exact ⟨s, rfl⟩

/-- A name that can be used has a value source, and nothing else that is nested. -/
theorem two_le_depth_of_constantPath {name : StoredName} {path : String}
    (h : constantPath name.valueSource = .ok path) : 2 ≤ name.toJson.depth := by
  obtain ⟨s, hs⟩ := exists_of_constantPath h
  have hlt := ValueSource.depth_lt hs
  rw [ValueSource.depth_toJson] at hlt
  exact hlt

theorem depth_saveExpression_le (e : Expression) (hn : 1 ≤ n) :
    ∀ stored ∈ saveExpression e, stored.toJson.depth ≤ n := by
  intro stored _
  rwa [StoredExpression.depth_toJson]

theorem depth_saveResourceMaker_le (isRoot : Bool) (m : ResourceMaker) (hn : 1 ≤ n) :
    ∀ e ∈ (saveResourceMaker isRoot m).entries, e.2.depth ≤ n := by
  refine NodeHead.forall_mem_entries.2 ⟨fun s _ => ?_, depth_saveExpression_le _ hn, fun type htype => ?_⟩
  · rwa [ValueSource.depth_toJson]
  · simp only [saveResourceMaker] at htype
    split at htype
    · cases htype
    · obtain rfl := Option.some.inj htype
      exact hn

theorem depth_saveLiteralMaker_le (m : LiteralMaker) (hn : 1 ≤ n) (hdatatype : m.datatype ≠ none → 3 ≤ n) :
    ∀ e ∈ (saveLiteralMaker m).entries, e.2.depth ≤ n := by
  refine NodeHead.forall_mem_entries.2 ⟨fun s _ => ?_, depth_saveExpression_le _ hn, fun type htype => ?_⟩
  · rwa [ValueSource.depth_toJson]
  · obtain rfl := Option.some.inj htype
    obtain ⟨k, rfl⟩ : ∃ k, n = k + 1 := ⟨n - 1, by omega⟩
    rw [StoredType.depth_toJson_le_iff]
    intro name hname
    obtain ⟨datatype, hsome, rfl⟩ := Option.map_eq_some_iff.1 hname
    have hthree := hdatatype (by simp [hsome])
    rw [depth_saveName]
    omega

theorem three_le_depth_of_datatype {source : UsableSource} {e : Expression} {type : Option StoredType}
    (hdepth : ∀ t ∈ type, t.toJson.depth ≤ n) (h : (literalMaker source e type).datatype ≠ none) : 3 ≤ n := by
  obtain ⟨name, hname⟩ := Option.ne_none_iff_exists'.1 h
  obtain ⟨t, rfl, ht⟩ := Option.bind_eq_some_iff.1 hname
  obtain ⟨datatype, hdatatype, hname⟩ := Option.bind_eq_some_iff.1 ht
  unfold usableDatatype at hname
  split at hname
  · rename_i hpath
    have htwo := two_le_depth_of_constantPath hpath
    have hlt := StoredName.depth_lt hdatatype
    have hle := hdepth t rfl
    omega
  · cases hname

def saveProperty (property : Property) : StoredName × List StoredNode :=
  (saveName property.1, (property.2.map (saveNode false)).toList)

theorem saveProperties_eq (properties : List Property) :
    saveProperties properties = properties.map saveProperty := by
  induction properties with
  | nil => rfl
  | cons property rest ih =>
    obtain ⟨name, object⟩ := property
    cases object <;> rw [saveProperties, ih] <;> rfl

variable {rule : LabelRule}

theorem depth_flatMap_le {l : List α} {f : α → List β} {write : α → Json} {writeAgain : β → Json}
    (h : ∀ a ∈ l, ∀ b ∈ f a, (writeAgain b).depth ≤ (write a).depth)
    (hdepth : l ≠ [] → (array (l.map write)).depth ≤ n) (hne : (l.flatMap f).map writeAgain ≠ []) :
    (array ((l.flatMap f).map writeAgain)).depth ≤ n := by
  have hl : l ≠ [] := by
    rintro rfl
    exact hne rfl
  refine Nat.le_trans (depth_array_le_of_forall fun v hv => ?_) (hdepth hl)
  obtain ⟨b, hb, rfl⟩ := List.mem_map.1 hv
  obtain ⟨a, ha, hb⟩ := List.mem_flatMap.1 hb
  exact ⟨write a, List.mem_map_of_mem ha, h a ha b hb⟩

theorem depth_loadType_le {type : StoredName} {name : IriName} (h : name ∈ loadType type) :
    (saveName name).toJson.depth ≤ type.toJson.depth := by
  unfold loadType at h
  split at h
  · rename_i hpath
    rw [depth_saveName]
    exact two_le_depth_of_constantPath hpath
  · cases h

theorem exists_of_mem_loadProperty {stored : StoredName × List StoredNode} {property : Property}
    (h : property ∈ loadProperty rule stored) :
    (∃ s, stored.1.valueSource = some s) ∧
      ∀ node ∈ property.2, ∃ object ∈ stored.2, loadNode rule false object = .ok node := by
  unfold loadProperty at h
  split at h
  · rename_i hpath
    refine ⟨exists_of_constantPath hpath, fun node hnode => ?_⟩
    dsimp only at h
    split at h
    · obtain rfl := List.mem_singleton.1 h
      cases hnode
    · obtain ⟨object, hobject, rfl⟩ := List.mem_map.1 h
      exact ⟨object, hobject, Outcome.toOption_eq_some_iff.1 hnode⟩
  · cases h

theorem depth_loadProperty_le {stored : StoredName × List StoredNode} {property : Property}
    (hobject : ∀ object ∈ stored.2, ∀ node, loadNode rule false object = .ok node →
      (saveNode false node).toJson.depth ≤ object.toJson.depth)
    (h : property ∈ loadProperty rule stored) :
    (propertyToJson (saveProperty property)).depth ≤ (propertyToJson stored).depth := by
  obtain ⟨n, hn⟩ : ∃ n, (propertyToJson stored).depth = n + 1 := ⟨_, rfl⟩
  obtain ⟨hsource, hobjects⟩ := depth_propertyToJson_le_iff.1 (Nat.le_of_eq hn)
  obtain ⟨⟨s, hs⟩, hloaded⟩ := exists_of_mem_loadProperty h
  rw [hn, saveProperty, depth_propertyToJson_le_iff]
  constructor
  · rintro _ ⟨⟩
    have hle := hsource s hs
    rwa [ValueSource.depth_toJson] at hle ⊢
  · intro hne
    obtain ⟨name, object⟩ := property
    cases object with
    | none => exact absurd rfl hne
    | some node =>
      obtain ⟨object, hmem, hload⟩ := hloaded node rfl
      refine Nat.le_trans (depth_array_le_of_forall fun v hv => ?_) (hobjects (List.ne_nil_of_mem hmem))
      obtain rfl := List.mem_singleton.1 hv
      exact ⟨object.toJson, List.mem_map_of_mem hmem, hobject object hmem node hload⟩

theorem depth_lt_of_mem_objects {head : NodeHead} {types : List StoredName}
    {properties : List (StoredName × List StoredNode)} {property : StoredName × List StoredNode}
    (hproperty : property ∈ properties) {object : StoredNode} (hobject : object ∈ property.2) :
    object.toJson.depth < (StoredNode.mk head types properties).toJson.depth := by
  obtain ⟨n, hn⟩ : ∃ n, (StoredNode.mk head types properties).toJson.depth = n + 1 := by
    rw [StoredNode.toJson]
    exact ⟨_, rfl⟩
  obtain ⟨m, hm⟩ : ∃ m, (propertyToJson property).depth = m + 1 := ⟨_, rfl⟩
  have hproperties := (StoredNode.depth_toJson_le_iff.1 (Nat.le_of_eq hn)).2.2 (List.ne_nil_of_mem hproperty)
  have hobjects := (depth_propertyToJson_le_iff.1 (Nat.le_of_eq hm)).2 (List.ne_nil_of_mem hobject)
  have hinside := depth_lt_of_mem_array (List.mem_map_of_mem (f := propertyToJson) hproperty)
  have hbelow := depth_lt_of_mem_array (List.mem_map_of_mem (f := StoredNode.toJson) hobject)
  omega

theorem usableSource_of_loadHead {isRoot : Bool} {head : NodeHead} {type : ValueType} {source : UsableSource}
    (h : loadHead isRoot head = .ok (type, source)) : usableSource head.valueSource = .ok source := by
  obtain ⟨kind, -, h⟩ := Outcome.bind_eq_ok_iff.1 h
  split at h
  · cases h
  · obtain ⟨used, hused, h⟩ := Outcome.bind_eq_ok_iff.1 h
    obtain ⟨-, rfl⟩ := Prod.mk.inj (Except.ok.inj h)
    exact hused

/-- A node that was loaded is saved no deeper than it was stored. -/
theorem depth_saveNode_le {isRoot : Bool} {stored : StoredNode} {node : Node}
    (h : loadNode rule isRoot stored = .ok node) :
    (saveNode isRoot node).toJson.depth ≤ stored.toJson.depth := by
  obtain ⟨bound, hbound⟩ : ∃ bound, stored.toJson.depth < bound := ⟨_, Nat.lt_succ_self _⟩
  induction bound generalizing isRoot stored node with
  | zero => cases hbound
  | succ bound ih =>
    obtain ⟨head, types, properties⟩ := stored
    obtain ⟨n, hn⟩ : ∃ n, (StoredNode.mk head types properties).toJson.depth = n + 1 := by
      rw [StoredNode.toJson]
      exact ⟨_, rfl⟩
    obtain ⟨hhead, htypes, hproperties⟩ := StoredNode.depth_toJson_le_iff.1 (Nat.le_of_eq hn)
    obtain ⟨hsources, -, hkinds⟩ := NodeHead.forall_mem_entries.1 hhead
    rw [loadNode_eq] at h
    obtain ⟨⟨type, source⟩, hload, rfl⟩ := Outcome.map_eq_ok_iff.1 h
    obtain ⟨s, hs⟩ := exists_of_usableSource (usableSource_of_loadHead hload)
    have hone : 1 ≤ n := s.depth_toJson ▸ hsources s hs
    dsimp only
    split
    · rw [saveNode, hn, StoredNode.depth_toJson_le_iff]
      exact ⟨depth_saveLiteralMaker_le _ hone (three_le_depth_of_datatype hkinds), nofun, nofun⟩
    · rw [saveNode, saveProperties_eq, hn, StoredNode.depth_toJson_le_iff, List.map_map, List.map_map]
      refine ⟨depth_saveResourceMaker_le _ _ hone, fun hne => ?_, fun hne => ?_⟩
      · refine depth_flatMap_le (fun type _ name hname => depth_loadType_le hname) htypes ?_
        simpa using hne
      · refine depth_flatMap_le (fun stored hstored property hproperty => ?_) hproperties ?_
        · refine depth_loadProperty_le (fun object hobject node hnode => ih hnode ?_) hproperty
          have hlt : object.toJson.depth < (StoredNode.mk head types properties).toJson.depth :=
            depth_lt_of_mem_objects hstored hobject
          omega
        · simpa using hne

/-! ## Documents -/

theorem depth_saveVocabulary_le (v : Vocabulary) : (saveVocabulary v).toJson.depth ≤ 1 := by
  unfold saveVocabulary
  split
  · exact Nat.zero_le 1
  · exact Nat.le_refl 1

/-- A vocabulary has a location only if it was described, which takes an object. -/
theorem depth_loadVocabulary_le {label : String} {v : Json} {vocabulary : Vocabulary}
    (h : loadVocabulary label v = some vocabulary) :
    (saveVocabulary vocabulary).toJson.depth ≤ v.depth := by
  cases v with
  | string s =>
    obtain rfl := Option.some.inj h
    exact Nat.le_refl 0
  | object entries => exact Nat.le_trans (depth_saveVocabulary_le _) (Nat.succ_pos _)
  | null | bool | number | array => cases h

theorem depth_predefined : ∀ v ∈ VocabularyList.predefined.entries, (saveVocabulary v).toJson.depth = 0 := by
  decide +kernel

theorem mem_of_mem_ofList {l : List Vocabulary} : ∀ v ∈ (VocabularyList.ofList l).entries, v ∈ l := by
  intro v hv
  obtain ⟨before, after, rfl, -⟩ := VocabularyList.mem_entries_ofList.1 hv
  exact List.mem_append_cons_self

theorem depth_lt_of_ofJson? {v : Json} {d : Document} (h : Document.ofJson? v = some d) :
    (∀ entries ∈ d.namespaces, (Json.object entries).depth < v.depth) ∧
      ∀ items ∈ d.subjectMappings, (array items).depth < v.depth := by
  obtain ⟨values, hvalues, h⟩ := Option.bind_eq_some_iff.1 h
  obtain ⟨n, hn, hfields⟩ := exists_depth_of_fields? hvalues
  split at h
  · rename_i extension version base namespaces subjects
    simp only [Option.bind_eq_bind, Option.bind_eq_some_iff] at h
    obtain ⟨_, -, _, -, _, -, entries, hentries, items, hitems, h⟩ := h
    obtain rfl := Option.some.inj h
    have hentriesRead : ∀ v own, Json.entries? v = some own → (Json.object own).depth ≤ v.depth := by
      rintro (_ | _ | _ | _ | _ | _) own ⟨⟩
      exact Nat.le_refl _
    have hitemsRead : ∀ v own, Json.items? v = some own → (array own).depth ≤ v.depth := by
      rintro (_ | _ | _ | _ | _ | _) own ⟨⟩
      exact Nat.le_refl _
    simp only [hn, Nat.lt_succ_iff]
    exact ⟨depth_le_of_optional hentriesRead (hfields _ (by simp)) hentries,
      depth_le_of_optional hitemsRead (hfields _ (by simp)) hitems⟩
  · cases h

theorem depth_toJson_le_iff {t : Transform} :
    t.toJson.depth ≤ n + 2 ↔
      (∀ v ∈ t.naming.vocabularies.entries, (saveVocabulary v).toJson.depth ≤ n) ∧
        ∀ root ∈ t.roots, (saveNode true root).toJson.depth ≤ n := by
  have htoJson : t.toJson = .object
      [ ("extension", .string extensionName), ("version", .string Transform.currentVersion),
        ("baseIRI", .string t.naming.base.text),
        ("namespaces", .object (t.naming.vocabularies.entries.map fun v =>
          (v.label, (saveVocabulary v).toJson))),
        ("subjectMappings", .array (t.roots.map fun root => (saveNode true root).toJson)) ] := rfl
  rw [htoJson, depth_object_le_iff]
  simp only [List.forall_mem_cons, List.not_mem_nil, false_imp_iff, implies_true, and_true,
    depth_object_le_iff, depth_array_le_iff, List.forall_mem_map]
  simp [Json.depth]

theorem depth_toJson_load_le {d : Document}
    (hnamespaces : ∀ entries ∈ d.namespaces, (Json.object entries).depth ≤ n + 1)
    (hroots : ∀ items ∈ d.subjectMappings, (array items).depth ≤ n + 1) :
    (d.load rule).toJson.depth ≤ n + 2 := by
  rw [depth_toJson_le_iff]
  constructor
  · intro v hv
    cases hentries : d.namespaces with
    | none =>
      simp only [load, hentries, Option.map_none, Option.getD_none] at hv
      rw [depth_predefined v hv]
      exact Nat.zero_le n
    | some entries =>
      simp only [load, hentries, Option.map_some, Option.getD_some] at hv
      obtain ⟨⟨label, w⟩, hw, hload⟩ := List.mem_filterMap.1 (mem_of_mem_ofList v hv)
      exact Nat.le_trans (depth_loadVocabulary_le hload)
        (depth_object_le_iff.1 (hnamespaces entries hentries) _ hw)
  · intro root hroot
    obtain ⟨w, hw, hload⟩ := List.mem_filterMap.1 hroot
    obtain ⟨stored, hstored, hload⟩ := Option.bind_eq_some_iff.1 hload
    cases hitems : d.subjectMappings with
    | none => simp [hitems] at hw
    | some items =>
      rw [hitems, Option.getD_some] at hw
      calc (saveNode true root).toJson.depth
        _ ≤ stored.toJson.depth := depth_saveNode_le (Outcome.toOption_eq_some_iff.1 hload)
        _ ≤ w.depth := StoredNode.depth_le_of_ofJsonWithin? hstored
        _ ≤ n := depth_array_le_iff.1 (hroots items hitems) w hw

end Document

/-- A transform is saved no deeper than two levels, or than what it was loaded from. -/
theorem Transform.depth_toJson_le_of_ofJson {read : ClassReader} {config : Config} {v : Json} {t : Transform}
    (h : Transform.ofJson config v read = .ok t) : t.toJson.depth ≤ max 2 v.depth := by
  unfold Transform.ofJson at h
  split at h
  · cases h
  · rename_i d hd
    obtain ⟨rule, -, rfl⟩ := Outcome.map_eq_ok_iff.1 h
    obtain ⟨hnamespaces, hroots⟩ := Document.depth_lt_of_ofJson? hd
    obtain ⟨n, hn⟩ : ∃ n, max 2 v.depth = n + 2 := ⟨max 2 v.depth - 2, by omega⟩
    rw [hn]
    refine Document.depth_toJson_load_le (fun entries hentries => ?_) fun items hitems => ?_
    · have hlt := hnamespaces entries hentries
      omega
    · have hlt := hroots items hitems
      omega

end TableGraph
