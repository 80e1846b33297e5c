import TableGraph.Outcome
import TableGraph.Proofs.Document.Heads
import TableGraph.Proofs.Text.Trimming
import TableGraph.Proofs.Vocabulary.Edits

/-!
# Labels that are declared

A document declares labels and uses them: resources, types, properties and datatypes bear one each, if they
bear any. Loading keeps the labels that are declared as they are written, but those that are used without
their blank and format characters, at any depth (`labelUses_load`). A naming then finds for a label what the
first usable entry of that key declares (`namespace?_load`).
-/

namespace TableGraph

inductive Bearer
  | resource
  | type
  | property
  | datatype
  deriving DecidableEq, Repr

/-- A place for a label, and the label if there is one. -/
structure LabelUse where
  bearer : Bearer
  label : Option String
  deriving DecidableEq, Repr

/-- The same place, with the label without blank and format characters. -/
def LabelUse.stripped (use : LabelUse) : LabelUse :=
  { use with label := use.label.map Text.stripSpace }

/-! ## Labels of mapping trees -/

/-- The label of the IRIs that a maker makes. Blank nodes have none. -/
def ResourceMaker.labelUses : ResourceMaker → List LabelUse
  | .constantIri _ label _ | .cellIri _ label => [⟨.resource, label⟩]
  | .constantBlank .. | .cellBlank _ => []

/-- The label of a datatype, if there is one. -/
def LiteralMaker.labelUses (m : LiteralMaker) : List LabelUse :=
  m.datatype.toList.map fun name => ⟨.datatype, name.label⟩

namespace Node

mutual

/-- The labels of a tree: those of a node, of its types, and of each property with its object. -/
def labelUses : Node → List LabelUse
  | .resource maker types properties =>
    maker.labelUses ++ types.map (fun name => ⟨.type, name.label⟩) ++ labelUsesBelow properties
  | .literal maker => maker.labelUses

/-- The labels of properties, each before those of its object. -/
def labelUsesBelow : List (IriName × Option Node) → List LabelUse
  | [] => []
  | (name, none) :: rest => ⟨.property, name.label⟩ :: labelUsesBelow rest
  | (name, some object) :: rest => ⟨.property, name.label⟩ :: object.labelUses ++ labelUsesBelow rest

end

theorem labelUsesBelow_cons (name : IriName) (object : Option Node) (rest : List Property) :
    labelUsesBelow ((name, object) :: rest) =
      ⟨.property, name.label⟩ :: object.elim [] labelUses ++ labelUsesBelow rest := by
  cases object with
  | none | some object => rw [labelUsesBelow]; rfl

theorem labelUsesBelow_append (a b : List Property) :
    labelUsesBelow (a ++ b) = labelUsesBelow a ++ labelUsesBelow b := by
  induction a with
  | nil => rfl
  | cons property rest ih =>
    obtain ⟨name, object⟩ := property
    rw [List.cons_append, labelUsesBelow_cons, labelUsesBelow_cons, ih, List.append_assoc]

end Node

def Transform.labelUses (t : Transform) : List LabelUse :=
  t.roots.flatMap Node.labelUses

namespace Document

/-! ## Labels of stored nodes -/

/-- The label of a name, if the name is usable. -/
def StoredName.labelUses (bearer : Bearer) (name : StoredName) : List LabelUse :=
  match constantPath name.valueSource with
  | .ok _ => [⟨bearer, name.label⟩]
  | .error _ => []

def datatypeUses (type : Option StoredType) : List LabelUse :=
  (type.bind StoredType.datatype).toList.flatMap (StoredName.labelUses .datatype)

mutual

/-- The labels of what is usable of a node, which is nothing if the node is refused. -/
def StoredNode.labelUses (isRoot : Bool) : StoredNode → List LabelUse
  | .mk head types properties =>
    match loadHead isRoot head with
    | .error _ => []
    | .ok (type, _) =>
      if type.isLiteral then datatypeUses head.valueType
      else
        (if type = .iri then [⟨.resource, head.label⟩] else []) ++
          types.flatMap (StoredName.labelUses .type) ++ propertyUses properties

/-- The labels of usable properties. One with many objects is as many properties. -/
def propertyUses : List (StoredName × List StoredNode) → List LabelUse
  | [] => []
  | (name, objects) :: rest =>
    match constantPath name.valueSource with
    | .ok _ =>
      (if objects.isEmpty then [⟨.property, name.label⟩] else objectUses name.label objects) ++
        propertyUses rest
    | .error _ => propertyUses rest

/-- The label of a property before those of each of its objects. -/
def objectUses (label : Option String) : List StoredNode → List LabelUse
  | [] => []
  | object :: rest => ⟨.property, label⟩ :: object.labelUses false ++ objectUses label rest

end

end Document

/-- The labels that a document uses in what is usable of its roots. -/
def Document.labelUses (d : Document) : List LabelUse :=
  (d.subjectMappings.getD []).flatMap fun root =>
    (Document.StoredNode.ofJson? root).elim [] (Document.StoredNode.labelUses true)

namespace Document

variable {rule : LabelRule}

/-! ## Labels that are loaded -/

theorem labelUses_resourceMaker (isIri : Bool) (source : UsableSource) (e : Expression)
    (label : Option String) : (resourceMaker rule isIri source e label).labelUses =
      (if isIri then [⟨.resource, label⟩] else [] : List LabelUse).map LabelUse.stripped := by
  cases isIri <;> cases source <;> rfl

theorem labelUses_literalMaker (source : UsableSource) (e : Expression) (type : Option StoredType) :
    (literalMaker source e type).labelUses = (datatypeUses type).map LabelUse.stripped := by
  have hnamed : (literalMaker source e type).datatype =
      (type.bind StoredType.datatype).bind usableDatatype := (Option.bind_assoc _ _ _).symm
  rw [LiteralMaker.labelUses, hnamed, datatypeUses]
  cases type.bind StoredType.datatype with
  | none => rfl
  | some name =>
    rw [Option.bind_some, usableDatatype, Option.toList_some, List.flatMap_singleton, StoredName.labelUses]
    cases constantPath name.valueSource <;> rfl

theorem labelUses_loadTypes (types : List StoredName) :
    ((types.flatMap loadType).map fun name => ⟨.type, name.label⟩) =
      (types.flatMap (StoredName.labelUses .type)).map LabelUse.stripped := by
  rw [List.map_flatMap, List.map_flatMap]
  refine List.flatMap_congr fun type _ => ?_
  unfold loadType StoredName.labelUses
  cases constantPath type.valueSource <;> rfl

mutual

/-- Whatever is loaded of a node, its labels are those of the stored one, stripped. -/
theorem labelUses_loadNode (isRoot : Bool) (stored : StoredNode) :
    (loadNode rule isRoot stored).toOption.elim [] Node.labelUses =
      (stored.labelUses isRoot).map LabelUse.stripped := by
  match stored with
  | .mk head types properties =>
    rw [loadNode_eq, StoredNode.labelUses]
    cases loadHead isRoot head with
    | error e =>
      -- a node that is refused takes its labels and those below it along
      rfl
    | ok usable =>
      obtain ⟨type, source⟩ := usable
      simp only [Except.map, Except.toOption, Option.elim_some]
      split
      · exact labelUses_literalMaker _ _ _
      · rw [Node.labelUses, labelUses_resourceMaker, labelUses_loadTypes, labelUses_propertyUses properties,
          List.map_append, List.map_append]
        simp only [decide_eq_true_eq]

theorem labelUses_propertyUses (properties : List (StoredName × List StoredNode)) :
    Node.labelUsesBelow (properties.flatMap (loadProperty rule)) =
      (propertyUses properties).map LabelUse.stripped := by
  match properties with
  | [] => rfl
  | (name, objects) :: rest =>
    rw [List.flatMap_cons, Node.labelUsesBelow_append, labelUses_propertyUses rest, propertyUses,
      loadProperty]
    cases constantPath name.valueSource with
    | error e => rfl
    | ok path =>
      dsimp only
      rw [List.map_append]
      split
      · rfl
      · rw [labelUses_objectUses (.ofParts name.label path) name.label objects rfl]

theorem labelUses_objectUses (name : IriName) (label : Option String) (objects : List StoredNode)
    (h : name.label = label.map Text.stripSpace) :
    Node.labelUsesBelow (objects.map fun object => (name, (loadNode rule false object).toOption)) =
      (objectUses label objects).map LabelUse.stripped := by
  match objects with
  | [] => rfl
  | object :: rest =>
    rw [List.map_cons, Node.labelUsesBelow_cons, labelUses_loadNode false object,
      labelUses_objectUses name label rest h, objectUses, h, List.map_append, List.map_cons]
    rfl

end

theorem labelUses_loadRoot (root : Json) :
    (loadRoot rule root).elim [] Node.labelUses =
      ((StoredNode.ofJson? root).elim [] (StoredNode.labelUses true)).map LabelUse.stripped := by
  rw [loadRoot]
  cases StoredNode.ofJson? root with
  | none => rfl
  | some stored => exact labelUses_loadNode true stored

theorem labelUses_load (rule : LabelRule) (d : Document) :
    (d.load rule).labelUses = d.labelUses.map LabelUse.stripped := by
  rw [Transform.labelUses, Document.labelUses, load, List.filterMap_eq_flatMap_toList, List.flatMap_assoc,
    List.map_flatMap]
  refine List.flatMap_congr fun root _ => ?_
  rw [← labelUses_loadRoot]
  cases loadRoot rule root with
  | none => rfl
  | some node => exact List.append_nil _

/-! ## Labels that are declared -/

def StoredNamespace.ns : StoredNamespace → String
  | .plain ns | .described ns _ _ => ns

/-- What the first usable entry of a key declares. -/
def declared? (entries : List (String × Json)) (label : String) : Option String :=
  entries.findSome? fun entry =>
    if entry.1 = label then (StoredNamespace.ofJson? entry.2).map StoredNamespace.ns else none

theorem loadVocabulary_bind (key label : String) (v : Json) :
    (loadVocabulary key v).bind
        (Option.map (·.ns) ∘ Option.guard fun vocabulary => vocabulary.label == label) =
      if key = label then (StoredNamespace.ofJson? v).map StoredNamespace.ns else none := by
  unfold loadVocabulary
  rcases StoredNamespace.ofJson? v with _ | (ns | ⟨ns, location, loctype⟩)
  · exact (ite_self none).symm
  all_goals
    by_cases hkey : key = label
    · simp [hkey, Option.guard, StoredNamespace.ns]
    · simp [hkey, Option.guard]

theorem namespace?_loadVocabularies (entries : List (String × Json)) (label : String) :
    (loadVocabularies entries).namespace? label = declared? entries label := by
  rw [VocabularyList.namespace?, loadVocabularies, VocabularyList.find?_ofList,
    List.find?_eq_findSome?_guard, List.map_findSome?, ← List.head?_filterMap, List.filterMap_filterMap,
    List.head?_filterMap, declared?]
  exact congrArg (List.findSome? · entries) (funext fun entry => loadVocabulary_bind entry.1 label entry.2)

theorem namespace?_load (rule : LabelRule) {d : Document} {entries : List (String × Json)}
    (h : d.namespaces = some entries) (label : String) : (d.load rule).naming.namespace? label =
      (declared? entries label).or (if label = "" then some (d.load rule).naming.base.text else none) := by
  have hlookup : (d.load rule).naming.vocabularies.namespace? label = declared? entries label := by
    rw [← namespace?_loadVocabularies, load, h]
    rfl
  rw [Naming.namespace?, hlookup]
  cases declared? entries label with
  | some ns => rfl
  | none =>
    simp only [Option.none_or, String.isEmpty_iff]

end Document

open Document

/-- **A label that is used as it is declared is found, unless stripping changes it.** Wherever a resource, a
type, a property or a datatype of a document loads, at any depth, what is loaded bears its label without
blank and format characters, while the keys of namespaces are kept. So what is found for a label that is
declared is its own namespace exactly if the stripped label is declared with the same one, or is empty and
means a base of that text; a label without such characters always finds its own. -/
theorem declared_labels_are_found {read : ClassReader} {config : Config} {v : Json} {t : Transform}
    (h : Transform.ofJson config v read = .ok t) :
    ∃ d, Document.ofJson? v = some d ∧ t.labelUses = d.labelUses.map LabelUse.stripped ∧
      ∀ entries, d.namespaces = some entries → ∀ bearer label ns,
        ⟨bearer, some label⟩ ∈ d.labelUses → declared? entries label = some ns →
        let carried := Text.stripSpace label
        ⟨bearer, some carried⟩ ∈ t.labelUses ∧
          (t.naming.namespace? carried = some ns ↔
            declared? entries carried = some ns ∨
              (declared? entries carried = none ∧ carried = "" ∧ t.naming.base.text = ns)) ∧
          (Text.IsStripped label → t.naming.namespace? carried = some ns) := by
  unfold Transform.ofJson at h
  split at h
  · cases h
  · rename_i d hd
    obtain ⟨rule, -, rfl⟩ := Outcome.map_eq_ok_iff.1 h
    refine ⟨d, hd, labelUses_load rule d, fun entries hentries bearer label ns huse hdeclared => ?_⟩
    intro carried
    have hfound := namespace?_load rule hentries
    refine ⟨?_, ?_, fun hstripped => ?_⟩
    · rw [labelUses_load]
      exact List.mem_map_of_mem huse
    · rw [hfound]
      cases declared? entries carried with
      | some other => simp
      | none => simp
    · have hcarried : carried = label := Text.stripSpace_of_isStripped hstripped
      rw [hfound, hcarried, hdeclared]
      rfl

/-- The datatype of an object finds the namespace of its label. -/
theorem declared_labels_are_found_datatype :
    let named (path : String) : List (String × Json) :=
      [("prefix", .string "ex"),
        ("valueSource", .object [("source", .string "constant"), ("constant", .string path)])]
    let type : Json := .object [("type", .string "datatype_literal"), ("datatype", .object (named "int"))]
    let property : Json := .object
      (named "age" ++ [("objectMappings", .array [.object (named "1" ++ [("valueType", type)])])])
    let v : Json := .object
      [("namespaces", .object [("ex", .string "http://ex.org/")]),
        ("subjectMappings", .array [.object (named "s" ++ [("propertyMappings", .array [property])])])]
    ∃ t, Transform.ofJson {} v = .ok t ∧ ⟨.datatype, some "ex"⟩ ∈ t.labelUses ∧
      t.naming.namespace? "ex" = some "http://ex.org/" := by
  intro named type property v
  have hsome : (Transform.ofJson {} v).toOption.isSome = true := by decide +kernel
  have huses : ((Document.ofJson? v).map Document.labelUses) =
      some [⟨.resource, some "ex"⟩, ⟨.property, some "ex"⟩, ⟨.datatype, some "ex"⟩] := by decide +kernel
  obtain ⟨t, ht⟩ := Option.isSome_iff_exists.1 hsome
  have hload := Outcome.toOption_eq_some_iff.1 ht
  obtain ⟨d, hd, -, hfound⟩ := declared_labels_are_found hload
  have hentries :
      (Document.ofJson? v).bind Document.namespaces = some [("ex", .string "http://ex.org/")] := rfl
  rw [hd] at huses hentries
  have hmem : ⟨.datatype, some "ex"⟩ ∈ d.labelUses := by
    rw [Option.some.inj huses]
    decide
  have hdeclared : declared? [("ex", .string "http://ex.org/")] "ex" = some "http://ex.org/" := by
    decide +kernel
  obtain ⟨huse, -, hstripped⟩ := hfound _ hentries _ _ _ hmem hdeclared
  have hcarried : Text.stripSpace "ex" = "ex" := by decide +kernel
  rw [hcarried] at huse hstripped
  exact ⟨t, hload, huse, hstripped (by decide +kernel)⟩

/-- Used as it is declared, a label with a zero width space is not found. -/
theorem unstripped_label_is_not_found :
    let label := "foaf\u200b"
    let root : Json := .object
      [("prefix", .string label),
        ("valueSource", .object [("source", .string "constant"), ("constant", .string "Alice")])]
    let v : Json := .object
      [("namespaces", .object [(label, .string "http://xmlns.com/foaf/0.1/")]),
        ("subjectMappings", .array [root])]
    let d := Document.ofJson? v
    let t := (Transform.ofJson {} v).toOption
    d.map Document.labelUses = some [⟨.resource, some label⟩] ∧
      d.bind (fun d => d.namespaces.bind (declared? · label)) = some "http://xmlns.com/foaf/0.1/" ∧
      t.map Transform.labelUses = some [⟨.resource, some "foaf"⟩] ∧
      t.map (fun t => t.naming.namespace? "foaf") = some none := by
  decide +kernel

end TableGraph
