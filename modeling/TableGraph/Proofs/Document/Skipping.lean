import TableGraph.Proofs.Document.Heads
import TableGraph.Proofs.Document.Levels

/-!
# Entries that are passed over

`withoutSkipped` takes out of a document what loading passes over: namespaces of no shape, roots that are
no nodes or cannot be used, and below a resource that can be used the types and properties that no
constant names. An object that cannot be used stays. What is left is loaded as the whole was, and nothing
of it is passed over (`IsKeptOf`). The induction is on the levels that a node is read with, since a node
of a smaller value is read with fewer.
-/

namespace TableGraph

namespace Document

open Json (fields? modifyField filterMapItems filterEntries keep? optional withDefault list?)

/-! ## Taking entries out -/

/-- Whether a constant names a type or a property. -/
def StoredName.isNamed (name : StoredName) : Bool :=
  (constantPath name.valueSource).isOk

def StoredNode.head : StoredNode → NodeHead
  | .mk head _ _ => head

/-- Whether the head is that of a usable resource, so that what stands below it is read. -/
def NodeHead.isOpen (head : NodeHead) : Bool :=
  match loadHead false head with
  | .ok (type, _) => !type.isLiteral
  | .error _ => false

def fieldNames : List String :=
  ["extension", "version", "baseIRI", "namespaces", "subjectMappings"]

/-- A property whose objects are changed, unless it is passed over. -/
def propertyWithoutSkipped (object : Json → Option StoredNode) (change : Json → Json) :
    Json → Option Json :=
  keep? (propertyOfJson? object) (fun property => property.1.isNamed)
    (modifyField propertyFields "objectMappings" (filterMapItems (keep? object (fun _ => true) change)))

/-- A node without what is passed over below it, with nodes nested at most so many levels deep. -/
def nodeWithoutSkipped : Nat → Json → Json
  | 0, v => v
  | levels + 1, v =>
    match StoredNode.ofJsonWithin? (levels + 1) v with
    | none => v
    | some stored =>
      if stored.head.isOpen then
        (v.modifyField nodeFields "typeMappings"
          (filterMapItems (keep? StoredName.ofJson? StoredName.isNamed id))).modifyField nodeFields
            "propertyMappings" (filterMapItems
              (propertyWithoutSkipped (StoredNode.ofJsonWithin? levels) (nodeWithoutSkipped levels)))
      else v

/-- A root without what is passed over below it, unless it is passed over itself. -/
def rootWithoutSkipped (v : Json) : Option Json :=
  keep? StoredNode.ofJson? (fun stored => (loadHead true stored.head).isOk)
    (nodeWithoutSkipped (v.depth + 1)) v

/-- A document without the entries that loading passes over. -/
def withoutSkipped (v : Json) : Json :=
  (v.modifyField fieldNames "namespaces"
    (filterEntries fun entry => (loadVocabulary entry.1 entry.2).isSome)).modifyField fieldNames
      "subjectMappings" (filterMapItems rootWithoutSkipped)

/-- Nothing below a node is passed over. -/
inductive StoredNode.IsClean : StoredNode → Prop
  /-- Below a node that is no usable resource nothing is read. -/
  | closed {stored : StoredNode} : stored.head.isOpen = false → IsClean stored
  | opened {head : NodeHead} {types : List StoredName}
    {properties : List (StoredName × List StoredNode)} :
    (∀ type ∈ types, type.isNamed = true) → (∀ property ∈ properties, property.1.isNamed = true) →
    (∀ property ∈ properties, ∀ object ∈ property.2, IsClean object) →
    IsClean (.mk head types properties)

/-- No entry of a document is passed over. -/
structure IsClean (d : Document) : Prop where
  namespaces : ∀ entries ∈ d.namespaces, ∀ entry ∈ entries,
    (loadVocabulary entry.1 entry.2).isSome = true
  roots : ∀ items ∈ d.subjectMappings, ∀ item ∈ items, ∃ stored,
    StoredNode.ofJson? item = some stored ∧ (loadHead true stored.head).isOk = true ∧ stored.IsClean

/-! ## Nodes -/

/-- What is kept of a node: it is loaded as the node was, and nothing below it is passed over. -/
structure StoredNode.IsKeptOf (rule : LabelRule) (stored kept : StoredNode) : Prop where
  head : kept.head = stored.head
  load : ∀ isRoot, loadNode rule isRoot kept = loadNode rule isRoot stored
  clean : kept.IsClean

theorem isNamed_eq_false {name : StoredName} (h : name.isNamed = false) :
    ∃ e, constantPath name.valueSource = .error e := by
  rw [StoredName.isNamed] at h
  cases hpath : constantPath name.valueSource with
  | ok path =>
    rw [hpath] at h
    cases h
  | error e => exact ⟨e, rfl⟩

theorem propertyOfJson?_withoutSkipped {rule : LabelRule} {levels : Nat}
    (hnode : ∀ v stored, StoredNode.ofJsonWithin? levels v = some stored →
      ∃ kept, StoredNode.ofJsonWithin? levels (nodeWithoutSkipped levels v) = some kept ∧
        stored.IsKeptOf rule kept)
    {v : Json} {property : StoredName × List StoredNode}
    (h : propertyOfJson? (StoredNode.ofJsonWithin? levels) v = some property) :
    ∃ kept, propertyOfJson? (StoredNode.ofJsonWithin? levels)
        (v.modifyField propertyFields "objectMappings" (filterMapItems
          (keep? (StoredNode.ofJsonWithin? levels) (fun _ => true) (nodeWithoutSkipped levels)))) =
          some kept ∧
      loadProperty rule kept = loadProperty rule property ∧
      kept.1 = property.1 ∧ ∀ object ∈ kept.2, object.IsClean := by
  obtain ⟨name, objects⟩ := property
  obtain ⟨label, source, os, hfields, hlabel, hsource, hobjects⟩ := propertyOfJson?_eq_some_iff.1 h
  let value (object : StoredNode) : List (Option Node) := [(loadNode rule false object).toOption]
  obtain ⟨kept, hkept, hvalue, hclean⟩ := Json.withDefault_filterMapItems (fun _ => true)
    (nodeWithoutSkipped levels) value StoredNode.IsClean (by simp)
    (fun item stored hitem _ => by
      obtain ⟨kept, hkept, hof⟩ := hnode item stored hitem
      exact ⟨kept, hkept, by simp only [value, hof.load], hof.clean⟩) hobjects
  refine ⟨(name, kept), ?_, ?_, rfl, hclean⟩
  · refine propertyOfJson?_eq_some_iff.2 ⟨label, source, _, ?_, hlabel, hsource, hkept⟩
    rw [Json.fields?_modifyField (by decide), hfields]
    rfl
  · rw [← List.map_eq_flatMap, ← List.map_eq_flatMap] at hvalue
    have hempty : kept.isEmpty = objects.isEmpty := by
      rw [← List.isEmpty_map, hvalue, List.isEmpty_map]
    have hpairs (own : IriName) :
        (kept.map fun object => (own, (loadNode rule false object).toOption)) =
          objects.map fun object => (own, (loadNode rule false object).toOption) := by
      have hpaired := congrArg (List.map (Prod.mk own)) hvalue
      rw [List.map_map, List.map_map] at hpaired
      exact hpaired
    simp only [loadProperty, hempty, hpairs]

/-- Without the entries that are passed over a node is still read, and loaded as before. -/
theorem ofJsonWithin?_withoutSkipped (rule : LabelRule) {levels : Nat} {v : Json} {stored : StoredNode}
    (h : StoredNode.ofJsonWithin? levels v = some stored) :
    ∃ kept, StoredNode.ofJsonWithin? levels (nodeWithoutSkipped levels v) = some kept ∧
      stored.IsKeptOf rule kept := by
  induction levels generalizing v stored with
  | zero => cases h
  | succ levels ih =>
    cases hopen : stored.head.isOpen with
    | false =>
      refine ⟨stored, ?_, rfl, fun _ => rfl, .closed hopen⟩
      simp only [nodeWithoutSkipped, h, hopen, Bool.false_eq_true, if_false]
    | true =>
      obtain ⟨head, types, properties⟩ := stored
      obtain ⟨label, source, expression, type, ts, ps, hfields, hhead, htypes, hproperties⟩ :=
        ofJsonWithin?_eq_some_iff.1 h
      obtain ⟨keptTypes, hkeptTypes, hsameTypes, hnamed⟩ := Json.withDefault_filterMapItems
        StoredName.isNamed id loadType (fun type => type.isNamed = true)
        (fun type hunnamed => by
          obtain ⟨e, he⟩ := isNamed_eq_false hunnamed
          rw [loadType, he])
        (fun item type hitem hnamed => ⟨type, hitem, rfl, hnamed⟩) htypes
      obtain ⟨keptProperties, hkeptProperties, hsameProperties, hclean⟩ := Json.withDefault_filterMapItems
        (fun property => property.1.isNamed) _ (loadProperty rule)
        (fun property => property.1.isNamed = true ∧ ∀ object ∈ property.2, object.IsClean)
        (fun property hunnamed => by
          obtain ⟨e, he⟩ := isNamed_eq_false hunnamed
          rw [loadProperty, he])
        (fun item property hitem hnamed => by
          obtain ⟨kept, hkept, hload, hname, hobjects⟩ :=
            propertyOfJson?_withoutSkipped (fun _ _ => ih) hitem
          exact ⟨kept, hkept, hload, hname ▸ hnamed, hobjects⟩) hproperties
      have hcleanNode : (StoredNode.mk head keptTypes keptProperties).IsClean :=
        .opened hnamed (fun property hp => (hclean property hp).1) fun property hp => (hclean property hp).2
      refine ⟨.mk head keptTypes keptProperties, ?_, rfl, fun isRoot => ?_, hcleanNode⟩
      · simp only [nodeWithoutSkipped, h, hopen, if_true]
        refine ofJsonWithin?_eq_some_iff.2
          ⟨label, source, expression, type, _, _, ?_, hhead, hkeptTypes, hkeptProperties⟩
        rw [Json.fields?_modifyField (by decide), Json.fields?_modifyField (by decide), hfields]
        rfl
      · rw [loadNode_eq, loadNode_eq, hsameTypes, hsameProperties]

/-! ## Roots -/

theorem isOk_loadNode (rule : LabelRule) (isRoot : Bool) (stored : StoredNode) :
    (loadNode rule isRoot stored).isOk = (loadHead isRoot stored.head).isOk := by
  obtain ⟨head, types, properties⟩ := stored
  rw [loadNode_eq, StoredNode.head]
  cases loadHead isRoot head <;> rfl

theorem ofJson?_withoutSkipped (rule : LabelRule) {v : Json} {stored : StoredNode}
    (h : StoredNode.ofJson? v = some stored) :
    ∃ kept, StoredNode.ofJson? (nodeWithoutSkipped (v.depth + 1) v) = some kept ∧
      stored.IsKeptOf rule kept := by
  obtain ⟨kept, hkept, hof⟩ := ofJsonWithin?_withoutSkipped rule h
  exact ⟨kept, ofJsonWithin?_of_depth_lt hkept (Nat.lt_succ_self _), hof⟩

theorem loadRoot_of_read (rule : LabelRule) {v : Json} {stored : StoredNode}
    (h : StoredNode.ofJson? v = some stored) : loadRoot rule v = (loadNode rule true stored).toOption := by
  rw [loadRoot, h]
  rfl

theorem isSome_rootWithoutSkipped (rule : LabelRule) (v : Json) :
    (rootWithoutSkipped v).isSome = (loadRoot rule v).isSome := by
  cases hread : StoredNode.ofJson? v with
  | none => simp [rootWithoutSkipped, keep?, loadRoot, hread]
  | some stored =>
    have hload : (loadRoot rule v).isSome = (loadHead true stored.head).isOk := by
      rw [loadRoot_of_read rule hread, ← isOk_loadNode rule]
      cases loadNode rule true stored <;> rfl
    rw [rootWithoutSkipped, hload]
    cases husable : (loadHead true stored.head).isOk with
    | false => rw [Json.keep?_of_unusable _ hread husable, Option.isSome_none]
    | true => rw [Json.keep?_of_usable _ hread husable, Option.isSome_some]

theorem bind_rootWithoutSkipped (rule : LabelRule) (v : Json) :
    (rootWithoutSkipped v).bind (loadRoot rule) = loadRoot rule v := by
  cases hkeep : rootWithoutSkipped v with
  | none =>
    have hnone : (loadRoot rule v).isSome = false := by
      rw [← isSome_rootWithoutSkipped, hkeep, Option.isSome_none]
    rw [Option.bind_none, Option.isNone_iff_eq_none.1 (Option.isSome_eq_false_iff.1 hnone)]
  | some w =>
    unfold rootWithoutSkipped keep? at hkeep
    obtain ⟨stored, hstored, rfl⟩ := Option.map_eq_some_iff.1 hkeep
    obtain ⟨hread, -⟩ := Option.filter_eq_some_iff.1 hstored
    obtain ⟨kept, hkept, hof⟩ := ofJson?_withoutSkipped rule hread
    rw [Option.bind_some, loadRoot_of_read rule hread, loadRoot_of_read rule hkept, hof.load]

theorem isClean_of_rootWithoutSkipped {v w : Json} (h : rootWithoutSkipped v = some w) :
    ∃ stored, StoredNode.ofJson? w = some stored ∧ (loadHead true stored.head).isOk = true ∧
      stored.IsClean := by
  unfold rootWithoutSkipped keep? at h
  obtain ⟨stored, hstored, rfl⟩ := Option.map_eq_some_iff.1 h
  obtain ⟨hread, husable⟩ := Option.filter_eq_some_iff.1 hstored
  -- which rule for labels there is does not matter
  obtain ⟨kept, hkept, hof⟩ := ofJson?_withoutSkipped .standard hread
  exact ⟨kept, hkept, hof.head ▸ husable, hof.clean⟩

/-! ## Documents -/

/-- A document without some of its namespaces and roots. -/
def keeping (d : Document) : Document :=
  { d with
    namespaces := d.namespaces.map (List.filter fun entry => (loadVocabulary entry.1 entry.2).isSome)
    subjectMappings := d.subjectMappings.map (List.filterMap rootWithoutSkipped) }

theorem ofJson?_withoutSkipped_eq (v : Json) :
    Document.ofJson? (withoutSkipped v) = (Document.ofJson? v).map keeping := by
  have hfields : fields? fieldNames (withoutSkipped v) = (fields? fieldNames v).map fun values =>
      (values.modify 3 (Option.map
        (filterEntries fun entry => (loadVocabulary entry.1 entry.2).isSome))).modify 4
          (Option.map (filterMapItems rootWithoutSkipped)) := by
    rw [withoutSkipped, Json.fields?_modifyField (by decide), Json.fields?_modifyField (by decide),
      Option.map_map]
    rfl
  unfold Document.ofJson?
  change (fields? fieldNames (withoutSkipped v) >>= _) = (fields? fieldNames v >>= _).map keeping
  rw [hfields]
  cases fields? fieldNames v with
  | none => rfl
  | some values =>
    -- only as many values as there are fields are read
    rcases values with
      _ | ⟨extension, _ | ⟨version, _ | ⟨base, _ | ⟨namespaces, _ | ⟨roots, _ | ⟨more, rest⟩⟩⟩⟩⟩⟩
    all_goals try rfl
    simp only [Option.map_some, List.modify_succ_cons, List.modify_zero_cons, Option.bind_eq_bind,
      Option.bind_some, Json.optional_filterEntries, Json.optional_filterMapItems]
    cases optional Json.string? extension <;> cases optional Json.string? version <;>
      cases optional StoredBase.ofJson? base <;> cases optional Json.entries? namespaces <;>
      cases optional Json.items? roots <;> rfl

theorem loadVocabularies_filter (entries : List (String × Json)) :
    loadVocabularies (entries.filter fun entry => (loadVocabulary entry.1 entry.2).isSome) =
      loadVocabularies entries := by
  rw [loadVocabularies, loadVocabularies, List.filterMap_filter]
  refine congrArg VocabularyList.ofList (List.filterMap_congr fun entry _ => ?_)
  obtain ⟨label, v⟩ := entry
  dsimp only
  cases loadVocabulary label v <;> rfl

theorem load_keeping (rule : LabelRule) (d : Document) : d.keeping.load rule = d.load rule := by
  have hvocabularies : d.keeping.namespaces.map loadVocabularies = d.namespaces.map loadVocabularies := by
    rw [keeping, Option.map_map]
    exact Option.map_congr fun entries _ => loadVocabularies_filter entries
  have hroots : (d.keeping.subjectMappings.getD []).filterMap (loadRoot rule) =
      (d.subjectMappings.getD []).filterMap (loadRoot rule) := by
    rw [keeping]
    cases d.subjectMappings with
    | none => rfl
    | some items =>
      rw [Option.map_some, Option.getD_some, Option.getD_some, List.filterMap_filterMap]
      exact List.filterMap_congr fun v _ => bind_rootWithoutSkipped rule v
  rw [load, load, hvocabularies, hroots]
  rfl

theorem isClean_keeping (d : Document) : d.keeping.IsClean where
  namespaces entries hentries entry hentry := by
    obtain ⟨own, -, rfl⟩ := Option.map_eq_some_iff.1 hentries
    exact (List.mem_filter.1 hentry).2
  roots items hitems item hitem := by
    obtain ⟨own, -, rfl⟩ := Option.map_eq_some_iff.1 hitems
    obtain ⟨v, -, hv⟩ := List.mem_filterMap.1 hitem
    exact isClean_of_rootWithoutSkipped hv

end Document

open Document

/-- **Entries that are passed over leave no trace.** Without the namespaces, roots, types and properties
that loading passes over, at whatever depth, a document is loaded as it was with them, and nothing that is
left is passed over. Exactly the roots that load are kept, each for itself. Whether a node can be used is a
matter of its head alone, and what stands below it counts entry by entry, so no entry spoils another or the
node above. An object that cannot be used leaves exactly one property at its place, and that without an
object. -/
theorem skipped_entries_leave_no_trace (read : ClassReader) (config : Config) (v : Json) :
    Transform.ofJson config (withoutSkipped v) read = Transform.ofJson config v read ∧
    (∀ d, Document.ofJson? (withoutSkipped v) = some d → d.IsClean) ∧
    (∀ rule root, (rootWithoutSkipped root).isSome = (loadRoot rule root).isSome) ∧
    (∀ rule isRoot head types properties,
      loadNode rule isRoot (.mk head types properties) =
        (loadHead isRoot head).map fun (type, source) =>
          let e := usableExpression head.expression
          if type.isLiteral then .literal (literalMaker source e head.valueType)
          else
            .resource (resourceMaker rule (type = .iri) source e head.label) (types.flatMap loadType)
              (properties.flatMap (loadProperty rule))) ∧
    (∀ rule name path before object after e, constantPath name.valueSource = .ok path →
      loadNode rule false object = .error e →
      let own (object : StoredNode) : Property :=
        (.ofParts name.label path, (loadNode rule false object).toOption)
      loadProperty rule (name, before ++ object :: after) =
        before.map own ++ (.ofParts name.label path, none) :: after.map own) := by
  refine ⟨?_, fun d hd => ?_, isSome_rootWithoutSkipped, fun rule => loadNode_eq, ?_⟩
  · unfold Transform.ofJson
    rw [ofJson?_withoutSkipped_eq]
    cases Document.ofJson? v with
    | none => rfl
    | some d =>
      cases config.labelRule read with
      | error e => rfl
      | ok rule => exact congrArg Except.ok (load_keeping rule d)
  · rw [ofJson?_withoutSkipped_eq] at hd
    obtain ⟨own, -, rfl⟩ := Option.map_eq_some_iff.1 hd
    exact isClean_keeping own
  · intro rule name path before object after e hpath hrefused
    exact loadProperty_of_refused hpath before after hrefused

/-- Of these roots only the last loads, and of its entries only the object that cannot be used stays. -/
example :
    let constant (path : String) : Json :=
      .object [("source", .string "constant"), ("constant", .string path)]
    let nameless : Json := .object [("valueSource", .object [("source", .string "constant")])]
    let refused : Json :=
      .object [("valueSource", constant "p"), ("objectMappings", .array [nameless])]
    let root (types properties : List Json) : Json :=
      .object [("valueSource", constant "r"), ("typeMappings", .array types),
        ("propertyMappings", .array properties)]
    let roots : List Json := [.string "root", nameless, root [nameless] [refused, nameless]]
    withoutSkipped (.object [("subjectMappings", .array roots)]) =
      .object [("subjectMappings", .array [root [] [refused]])] := by
  decide +kernel

end TableGraph
