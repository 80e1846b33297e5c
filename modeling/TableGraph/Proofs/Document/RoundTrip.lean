import Mathlib.Data.List.Basic
import TableGraph.Document.Saving
import TableGraph.Iri.Spelling
import TableGraph.Proofs.Document.Codec
import TableGraph.Proofs.Document.Loaded

/-!
# Saving and loading

A regular transform is loaded back from the document that it is saved as, and what is loaded from any
document is regular. Both directions follow the tree: saving and loading are compared part by part, and
each default that saving leaves out is the one that loading puts in.
-/

namespace TableGraph

open Text (IsStripped IsTrimmed)
open Outcome (toOption_eq_some_iff)

namespace Document

variable {rule : LabelRule}

/-! ## Loading what was saved -/

theorem usableExpression_saveExpression {e : Expression} (h : e.IsStorable) :
    usableExpression (saveExpression e) = e := by
  unfold saveExpression
  by_cases hdefault : e.isDefault = true
  · rw [if_pos hdefault]
    simp only [Expression.isDefault, Expression.isIdentity, Bool.and_eq_true, beq_iff_eq] at hdefault
    obtain ⟨hcode, hlanguage⟩ := hdefault
    rw [usableExpression, Expression.cellValue, ← hcode, ← hlanguage]
  · have hstorable := h.resolve_left fun heq => hdefault (heq ▸ by decide)
    obtain ⟨hcode, htrimmed, hembedded⟩ := hstorable
    have htrim := Text.trim_of_isTrimmed htrimmed
    rw [if_neg hdefault]
    simp only [usableExpression, htrim, Expression.parse, hembedded]
    simp [hcode]

theorem usableType_name (type : ValueType) (datatype : Option StoredName) (language : Option String) :
    usableType (some ⟨type.name, datatype, language⟩) = .ok type := by
  cases type <;> rfl

theorem usableSource_saveCell {cell : CellSource} (h : cell.IsRegular) :
    usableSource (some (saveCell cell)) = .ok (.cell (cell.withExpression .cellValue)) := by
  obtain ⟨kind, column, e⟩ := cell
  rcases h with ⟨hindex, hcolumn⟩ | ⟨hkind, name, hcolumn, hname⟩
  · obtain rfl : column = none := hcolumn
    cases kind with
    | rowIndex | recordIndex => rfl
    | column | constant | expression => simp [CellSource.isIndex, SourceKind.isIndex] at hindex
  · obtain rfl : kind = .column := hkind
    obtain rfl : column = some name := hcolumn
    simp [usableSource, saveCell, CellSource.askedColumn, CellSource.isIndex, SourceKind.isIndex,
      SourceKind.name, SourceKind.ofName?, hname, CellSource.ofColumn, CellSource.withExpression]

theorem constantPath_saveConstant (text : String) : constantPath (some (saveConstant text)) = .ok text :=
  rfl

theorem stripSpace_label {label : Option String} (h : ∀ l ∈ label, IsStripped l) :
    label.map Text.stripSpace = label := by
  cases label with
  | none => rfl
  | some l => rw [Option.map_some, Text.stripSpace_of_isStripped (h l rfl)]

theorem ofParts_of_isRegular {name : IriName} (h : name.IsRegular) :
    IriName.ofParts name.label name.path = name := by
  rw [IriName.ofParts, stripSpace_label h.1, Text.stripSpace_of_isStripped h.2]

theorem usableNames_saveName {names : List IriName} (h : ∀ name ∈ names, name.IsRegular) :
    usableNames (names.map saveName) = names := by
  induction names with
  | nil => rfl
  | cons name rest ih =>
    have hname := ofParts_of_isRegular (h name (by simp))
    have hrest := ih fun other hother => h other (by simp [hother])
    rw [usableNames] at hrest ⊢
    simp only [List.map_cons, List.filterMap_cons, saveName, constantPath_saveConstant, hname]
    exact congrArg (name :: ·) hrest

theorem resourceMaker_saveResourceMaker {m : ResourceMaker} (h : m.IsRegular rule) (isRoot : Bool) :
    ∃ source, usableSource (saveResourceMaker isRoot m).valueSource = .ok source ∧
      resourceMaker rule (m.valueType = .iri) source m.expression (saveResourceMaker isRoot m).label = m := by
  cases m with
  | constantIri constant label e =>
    refine ⟨.constant constant, rfl, ?_⟩
    simp only [saveResourceMaker, resourceMaker, ResourceMaker.valueType, decide_true]
    rw [Text.stripSpace_of_isStripped h.1, stripSpace_label h.2]
    rfl
  | constantBlank seed e own =>
    refine ⟨.constant seed, rfl, ?_⟩
    obtain rfl : own = rule := h
    rfl
  | cellIri cell label =>
    refine ⟨_, usableSource_saveCell h.1, ?_⟩
    simp only [saveResourceMaker, resourceMaker, ResourceMaker.valueType, decide_true]
    rw [stripSpace_label h.2]
    rfl
  | cellBlank cell => exact ⟨_, usableSource_saveCell h, rfl⟩

theorem usableType_saveResourceMaker (isRoot : Bool) (m : ResourceMaker) :
    usableType (saveResourceMaker isRoot m).valueType = .ok m.valueType := by
  by_cases h : isRoot = true ∧ m.valueType = .iri
  · simp [saveResourceMaker, h, usableType]
  · simp [saveResourceMaker, h, usableType_name]

theorem isLiteral_valueType (m : ResourceMaker) : m.valueType.isLiteral = false := by
  cases m <;> rfl

theorem usableDatatype_saveName {name : IriName} (h : ∀ label ∈ name.label, IsStripped label) :
    usableDatatype (saveName name) = some name := by
  simp only [usableDatatype, saveName, constantPath_saveConstant]
  rw [IriName.ofDatatype, stripSpace_label h]

theorem literalMaker_saveLiteralMaker {m : LiteralMaker} (h : m.IsRegular) :
    ∃ source, usableSource (saveLiteralMaker m).valueSource = .ok source ∧
      literalMaker source m.expression (saveLiteralMaker m).valueType = m := by
  obtain ⟨source, datatype, language⟩ := m
  have hdatatype : (datatype.map saveName).bind usableDatatype = datatype := by
    cases datatype with
    | none => rfl
    | some name => exact usableDatatype_saveName (h.datatype name rfl)
  have hlanguage : language.bind Text.trimmed? = language := by
    cases language with
    | none => rfl
    | some tag =>
      obtain ⟨htrimmed, htag⟩ := h.language tag rfl
      simp [Text.trimmed?, Text.trim_of_isTrimmed htrimmed, htag]
  cases source with
  | constant text e =>
    refine ⟨.constant text, rfl, ?_⟩
    simp only [literalMaker, saveLiteralMaker, Option.bind_some, hdatatype, hlanguage]
    rfl
  | cell cell =>
    refine ⟨_, usableSource_saveCell (h.cell cell rfl), ?_⟩
    simp only [literalMaker, saveLiteralMaker, Option.bind_some, hdatatype, hlanguage]
    rfl

theorem isLiteral_valueType_literal (m : LiteralMaker) : m.valueType.isLiteral = true := by
  obtain ⟨source, datatype, language⟩ := m
  cases datatype <;> cases language <;> rfl

mutual

/-- A regular node is loaded back, as a root only if it can be one. -/
theorem loadNode_saveNode (isRoot : Bool) (node : Node) (hroot : isRoot = true → node.isResource = true)
    (h : node.Every (Node.IsRegular rule Expression.IsStorable)) :
    loadNode rule isRoot (saveNode isRoot node) = .ok node := by
  match node with
  | .resource m types properties =>
    obtain ⟨⟨hexpression, hmaker, htypes, hnames⟩, hobjects⟩ := h
    obtain ⟨source, hsource, hresource⟩ := resourceMaker_saveResourceMaker hmaker isRoot
    have he : usableExpression (saveResourceMaker isRoot m).expression = m.expression :=
      usableExpression_saveExpression hexpression
    have hproperties := loadProperties_saveProperties properties hnames hobjects
    rw [saveNode, loadNode, usableType_saveResourceMaker, hsource, he, usableNames_saveName htypes,
      hproperties]
    simp only [bind, Except.bind, isLiteral_valueType, Bool.and_false, Bool.false_eq_true, if_false,
      hresource]
    rfl
  | .literal m =>
    obtain ⟨hexpression, hmaker⟩ := h
    obtain ⟨source, hsource, hliteral⟩ := literalMaker_saveLiteralMaker hmaker
    have he : usableExpression (saveLiteralMaker m).expression = m.expression :=
      usableExpression_saveExpression hexpression
    have htype : usableType (saveLiteralMaker m).valueType = .ok m.valueType := usableType_name _ _ _
    have hobject : isRoot = false := by
      cases isRoot with
      | false => rfl
      | true => cases hroot rfl
    rw [saveNode, loadNode, htype, hsource, he, hobject]
    simp only [bind, Except.bind, isLiteral_valueType_literal, Bool.false_and, Bool.false_eq_true, if_false,
      if_true, hliteral]
    rfl

theorem loadProperties_saveProperties (properties : List (IriName × Option Node))
    (hnames : ∀ p ∈ properties, p.1.IsRegular)
    (h : Node.EveryObject (Node.IsRegular rule Expression.IsStorable) properties) :
    loadProperties rule (saveProperties properties) = properties := by
  match properties with
  | [] => rfl
  | (name, none) :: rest =>
    have hname := ofParts_of_isRegular (hnames (name, none) (by simp))
    have hrest := loadProperties_saveProperties rest (fun p hp => hnames p (by simp [hp])) h
    rw [saveProperties, loadProperties, saveName]
    simp only [constantPath_saveConstant, loadObjects, hname, hrest]
    rfl
  | (name, some object) :: rest =>
    have hname := ofParts_of_isRegular (hnames (name, some object) (by simp))
    have hobject := loadNode_saveNode false object (by simp) h.1
    have hrest := loadProperties_saveProperties rest (fun p hp => hnames p (by simp [hp])) h.2
    rw [saveProperties, loadProperties, saveName]
    simp only [constantPath_saveConstant, loadObjects, hname, hobject, hrest]
    rfl

end

/-! ## Documents that were saved -/

theorem ofName_name (type : LocationType) : LocationType.ofName type.name = type := by
  cases type <;> decide +kernel

theorem loadVocabulary_saveVocabulary (v : Vocabulary) :
    loadVocabulary v.label (saveVocabulary v).toJson = some v := by
  obtain ⟨label, ns, location, locationType⟩ := v
  rw [loadVocabulary, StoredNamespace.ofJson?_toJson]
  by_cases h : location = "" ∧ locationType = .nowhere
  · obtain ⟨rfl, rfl⟩ := h
    rfl
  · have hsaved : saveVocabulary ⟨label, ns, location, locationType⟩ =
        .described ns (some location) (some locationType.name) := by
      simp [saveVocabulary, h]
    rw [hsaved]
    simp [ofName_name]

theorem foldl_add_eq (known more : List Vocabulary) (h : ((known ++ more).map (·.label)).Nodup) :
    more.foldl VocabularyList.add ⟨known⟩ = ⟨known ++ more⟩ := by
  induction more generalizing known with
  | nil => simp
  | cons v rest ih =>
    have hnew : VocabularyList.contains ⟨known⟩ v.label = false := by
      rw [Bool.eq_false_iff, Ne, VocabularyList.contains_iff_mem_labels]
      intro hmem
      rw [List.map_append, List.nodup_append] at h
      exact h.2.2 v.label hmem v.label (by simp) rfl
    have hadd : VocabularyList.add ⟨known⟩ v = ⟨known ++ [v]⟩ := by
      simp [VocabularyList.add, VocabularyList.add?, hnew]
    rw [List.foldl_cons, hadd, ih (known ++ [v]) (by simpa using h)]
    simp

theorem loadVocabularies_saved {list : VocabularyList} (h : list.labels.Nodup) :
    loadVocabularies (list.entries.map fun v => (v.label, (saveVocabulary v).toJson)) = list := by
  have hofList : VocabularyList.ofList list.entries = list := foldl_add_eq [] list.entries h
  rw [loadVocabularies, List.filterMap_map]
  refine (congrArg VocabularyList.ofList ?_).trans hofList
  exact (List.filterMap_congr fun v _ => loadVocabulary_saveVocabulary v).trans List.filterMap_some

theorem loadBase_text {base : Iri} (hread : base.IsRead) (htrimmed : IsTrimmed base.text.toList) :
    loadBase (some (.text base.text)) = base := by
  obtain ⟨text, hparse⟩ := hread
  obtain rfl := Iri.text_of_parse hparse
  simp only [loadBase, StoredBase.iriText, Option.bind_some, Iri.parseBase,
    Text.trim_of_isTrimmed htrimmed, hparse]
  rfl

theorem loadRoot_saveNode {root : Node} (hroot : root.isResource = true)
    (h : root.Every (Node.IsRegular rule Expression.IsStorable)) :
    loadRoot rule (saveNode true root).toJson = some root := by
  rw [loadRoot, StoredNode.ofJson?_toJson]
  simp only [bind, Option.bind, loadNode_saveNode true root (fun _ => hroot) h]
  rfl

end Document

theorem Document.load_toDocument {rule : LabelRule} {t : Transform}
    (hversion : t.version = Transform.currentVersion) (h : t.IsRegular rule Expression.IsStorable) :
    t.toDocument.load rule = t := by
  have hroots : (t.roots.map fun root => (saveNode true root).toJson).filterMap (loadRoot rule) =
      t.roots := by
    have hload : ∀ root ∈ t.roots, loadRoot rule (saveNode true root).toJson = some root :=
      fun root hroot => loadRoot_saveNode (h.roots_resource root hroot) (h.nodes root hroot)
    rw [List.filterMap_map]
    exact (List.filterMap_congr hload).trans List.filterMap_some
  have hbase := loadBase_text h.base_read h.base_trimmed
  have hvocabularies := loadVocabularies_saved h.labels_nodup
  obtain ⟨⟨base, vocabularies⟩, roots, version⟩ := t
  obtain rfl : version = Transform.currentVersion := hversion
  simp only [Document.load, Transform.toDocument, Option.getD_some, Option.map_some, hbase,
    hvocabularies, hroots]

/-- **Saving keeps what can be loaded.** With settings that describe a rule for labels, whatever is read as
a class, a regular transform of the current version whose expressions are read as they are is loaded back
from the value that it is saved as. And whatever value a transform is loaded from, it is regular, with its
expressions trimmed. -/
theorem ofJson_toJson (read : ClassReader) (config : Config) :
    (∀ (rule : LabelRule) (t : Transform), config.labelRule read = .ok rule →
      t.version = Transform.currentVersion → t.IsRegular rule Expression.IsStorable →
      Transform.ofJson config t.toJson read = .ok t) ∧
    ∀ (v : Json) (t : Transform), Transform.ofJson config v read = .ok t →
      ∃ rule, config.labelRule read = .ok rule ∧ t.IsRegular rule Expression.IsTrimmed := by
  refine ⟨fun rule t hrule hversion hregular => ?_, fun v t hload => Transform.isRegular_of_ofJson hload⟩
  have hread : Document.ofJson? t.toJson = some t.toDocument := Document.ofJson?_toJson rfl
  have hload := Document.load_toDocument hversion hregular
  rw [Transform.ofJson, hread, hrule]
  exact congrArg Except.ok hload

/-- A person with a name from a column, and a property without an object. -/
theorem ofJson_toJson_person :
    let name : Node := .literal ⟨.cell ⟨.column, some "name", ⟨"grel", "value.trim()"⟩⟩,
      some ⟨some "xsd", "string"⟩, some "en"⟩
    let person : Node := .resource (.constantBlank "seed" .cellValue .standard)
      [⟨some "foaf", "Person"⟩] [(⟨some "foaf", "name"⟩, some name), (⟨none, "page"⟩, none)]
    let t : Transform := ⟨⟨Transform.defaultBase, .predefined⟩, [person], Transform.currentVersion⟩
    Transform.ofJson {} t.toJson = .ok t := by
  intro name person t
  have hrule : ({} : Config).labelRule = .ok .standard := rfl
  have hname : Node.IsRegular .standard Expression.IsStorable name := by
    refine ⟨.inr ⟨by decide, by decide, by decide⟩, ?_, ?_, ?_⟩
    · rintro cell ⟨⟩
      exact .inr ⟨rfl, "name", rfl, by decide⟩
    · decide
    · rintro tag ⟨⟩
      exact ⟨by decide, by decide⟩
  have hperson : Node.IsRegular .standard Expression.IsStorable person :=
    ⟨.inl rfl, rfl, by decide, by decide⟩
  have hregular : t.IsRegular .standard Expression.IsStorable :=
    { base_read := Document.isRead_defaultBase
      base_trimmed := Document.isTrimmed_defaultBase
      labels_nodup := VocabularyList.nodup_labels_ofList _
      roots_resource := by simp [t, person, Node.isResource]
      nodes := by
        intro root hroot
        obtain rfl := List.mem_singleton.1 hroot
        exact ⟨hperson, hname, trivial⟩ }
  exact (ofJson_toJson BlankLabel.CharacterSet.ofText? {}).1 .standard t hrule rfl hregular

end TableGraph
