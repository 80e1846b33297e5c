import TableGraph.Iri.Spelling
import TableGraph.Proofs.Document.Regular

/-!
# What is loaded is regular

Whatever a document holds, loading makes a regular transform of it, or fails. The induction is on the
stored nodes. Expressions are trimmed, but a language in front of code is taken off only once, so code
may be left that would be read otherwise.
-/

namespace TableGraph

open Text (IsStripped IsTrimmed)
open Outcome (bind_eq_ok_iff toOption_eq_some_iff mapError_eq_ok_iff)

theorem Node.everyObject_append {p : Node → Prop} {a b : List (IriName × Option Node)} :
    EveryObject p (a ++ b) ↔ EveryObject p a ∧ EveryObject p b := by
  induction a with
  | nil => simp [EveryObject]
  | cons property rest ih =>
    obtain ⟨name, object⟩ := property
    cases object with
    | none => simpa [EveryObject] using ih
    | some object => simp [EveryObject, ih, and_assoc]

theorem Node.everyObject_toOption {p : Node → Prop} {name : IriName} {object : Except TransformError Node}
    {rest : List (IriName × Option Node)} (hobject : ∀ node, object = .ok node → node.Every p)
    (hrest : EveryObject p rest) : EveryObject p ((name, object.toOption) :: rest) := by
  cases object with
  | error e => exact hrest
  | ok node => exact ⟨hobject node rfl, hrest⟩

/-! ## Expressions -/

namespace Expression

/-- An expression without white space at the ends of its code. -/
def IsTrimmed (e : Expression) : Prop :=
  Text.IsTrimmed e.code.toList

theorem append_of_embeddedLanguage? {code embedded rest : List Char}
    (h : embeddedLanguage? code = some (embedded, rest)) : embedded ++ ':' :: rest = code := by
  unfold embeddedLanguage? at h
  split at h
  · rename_i hcut
    split at h
    · obtain ⟨rfl, rfl⟩ := Prod.mk.inj (Option.some.inj h)
      exact (Text.cutAt_eq_some_iff.1 hcut).2
    · cases h
  · cases h

theorem isTrimmed_parse (language : Option String) (code : String) : (parse language code).IsTrimmed := by
  have htrimmed := Text.isTrimmed_trim code
  unfold parse
  dsimp only
  split
  · -- what is behind the language ends where the code ends
    rename_i embedded rest hembedded
    rw [← append_of_embeddedLanguage? hembedded] at htrimmed
    exact Text.isTrimmed_trimStart (embedded ++ [':']) (by simpa using htrimmed)
  · exact htrimmed

/-- Only the first language is taken off. -/
example : parse none "a:b:c" = ⟨"a", "b:c"⟩ := by
  decide +kernel

theorem isTrimmed_cellValue : cellValue.IsTrimmed := by
  unfold IsTrimmed
  decide

end Expression

namespace Document

variable {rule : LabelRule}

/-! ## Parts of nodes -/

theorem isTrimmed_usableExpression (e : Option StoredExpression) : (usableExpression e).IsTrimmed := by
  unfold usableExpression
  split
  · exact Expression.isTrimmed_cellValue
  split
  · exact Expression.isTrimmed_cellValue
  · exact Expression.isTrimmed_parse _ _

theorem isRegular_usableSource {source : Option ValueSource} {cell : CellSource}
    (h : usableSource source = .ok (.cell cell)) (e : Expression) :
    (cell.withExpression e).IsRegular := by
  unfold usableSource at h
  repeat' split at h
  all_goals cases h
  · exact .inl ⟨rfl, rfl⟩
  · exact .inl ⟨rfl, rfl⟩
  · rename_i name _ hname
    exact .inr ⟨rfl, name, rfl, by simpa using hname⟩

theorem isStripped_label (label : Option String) : ∀ l ∈ label.map Text.stripSpace, IsStripped l := by
  intro l hl
  obtain ⟨raw, -, rfl⟩ := Option.map_eq_some_iff.1 hl
  exact Text.isStripped_stripSpace raw

theorem isRegular_ofParts (label : Option String) (path : String) : (IriName.ofParts label path).IsRegular :=
  ⟨isStripped_label label, Text.isStripped_stripSpace path⟩

theorem isRegular_usableNames (names : List StoredName) : ∀ name ∈ usableNames names, name.IsRegular := by
  intro name hname
  obtain ⟨stored, -, hstored⟩ := List.mem_filterMap.1 hname
  split at hstored
  · obtain rfl := Option.some.inj hstored
    exact isRegular_ofParts _ _
  · cases hstored

theorem isRegular_resourceMaker {source : UsableSource}
    (hcell : ∀ cell, source = .cell cell → ∀ e, (cell.withExpression e).IsRegular) (isIri : Bool)
    (e : Expression) (label : Option String) :
    (resourceMaker rule isIri source e label).IsRegular rule := by
  match isIri, source with
  | true, .constant text => exact ⟨Text.isStripped_stripSpace text, isStripped_label label⟩
  | true, .cell cell => exact ⟨hcell cell rfl e, isStripped_label label⟩
  | false, .constant text => rfl
  | false, .cell cell => exact hcell cell rfl e

theorem expression_resourceMaker (isIri : Bool) (source : UsableSource) (e : Expression)
    (label : Option String) : (resourceMaker rule isIri source e label).expression = e := by
  cases isIri <;> cases source <;> rfl

theorem isRegular_literalMaker {source : UsableSource}
    (hcell : ∀ cell, source = .cell cell → ∀ e, (cell.withExpression e).IsRegular) (e : Expression)
    (t : Option StoredType) : (literalMaker source e t).IsRegular where
  cell cell h := by
    cases source with
    | constant text => cases h
    | cell own =>
      obtain rfl := LiteralSource.cell.inj h
      exact hcell own rfl e
  datatype name h := by
    obtain ⟨stored, -, h⟩ := Option.bind_eq_some_iff.1 h
    obtain ⟨datatype, -, h⟩ := Option.bind_eq_some_iff.1 h
    unfold usableDatatype at h
    split at h
    · obtain rfl := Option.some.inj h
      exact isStripped_label _
    · cases h
  language tag h := by
    obtain ⟨stored, -, h⟩ := Option.bind_eq_some_iff.1 h
    obtain ⟨language, -, h⟩ := Option.bind_eq_some_iff.1 h
    simp only [Text.trimmed?] at h
    split at h
    · cases h
    · rename_i hne
      obtain rfl := Option.some.inj h
      exact ⟨Text.isTrimmed_trim language, by simpa using hne⟩

theorem expression_literalMaker (source : UsableSource) (e : Expression) (t : Option StoredType) :
    (literalMaker source e t).expression = e := by
  cases source <;> rfl

/-! ## Nodes -/

mutual

theorem isRegular_loadNode (isRoot : Bool) (stored : StoredNode) (node : Node)
    (h : loadNode rule isRoot stored = .ok node) :
    node.Every (Node.IsRegular rule Expression.IsTrimmed) ∧ (isRoot = true → node.isResource = true) := by
  match stored with
  | .mk head types properties =>
    rw [loadNode] at h
    obtain ⟨type, htype, h⟩ := bind_eq_ok_iff.1 h
    split at h
    · cases h
    rename_i hroot
    obtain ⟨source, hsource, h⟩ := bind_eq_ok_iff.1 h
    have hcell : ∀ cell, source = .cell cell → ∀ e, (cell.withExpression e).IsRegular := by
      rintro cell rfl e
      exact isRegular_usableSource hsource e
    have hexpression := isTrimmed_usableExpression head.expression
    split at h
    · rename_i hliteral
      obtain rfl := Except.ok.inj h
      refine ⟨⟨?_, isRegular_literalMaker hcell _ _⟩, fun htrue => ?_⟩
      · rw [Node.expression, expression_literalMaker]
        exact hexpression
      · simp [htrue, hliteral] at hroot
    · obtain rfl := Except.ok.inj h
      obtain ⟨hnames, hobjects⟩ := isRegular_loadProperties properties
      have hmaker : (resourceMaker rule (type = .iri) source (usableExpression head.expression)
          head.label).IsRegular rule := isRegular_resourceMaker hcell _ _ _
      refine ⟨⟨⟨?_, hmaker, isRegular_usableNames types, hnames⟩, hobjects⟩, fun _ => rfl⟩
      rw [Node.expression, expression_resourceMaker]
      exact hexpression

theorem isRegular_loadProperties (properties : List (StoredName × List StoredNode)) :
    (∀ p ∈ loadProperties rule properties, p.1.IsRegular) ∧
      Node.EveryObject (Node.IsRegular rule Expression.IsTrimmed) (loadProperties rule properties) := by
  match properties with
  | [] => exact ⟨by simp [loadProperties], trivial⟩
  | (name, objects) :: rest =>
    have hrest := isRegular_loadProperties rest
    rw [loadProperties]
    split
    · rename_i path _
      have hobjects := isRegular_loadObjects (isRegular_ofParts name.label path) objects
      refine ⟨fun p hp => ?_, Node.everyObject_append.2 ⟨hobjects.2, hrest.2⟩⟩
      rcases List.mem_append.1 hp with hp | hp
      · exact hobjects.1 p hp
      · exact hrest.1 p hp
    · exact hrest

theorem isRegular_loadObjects {name : IriName} (hname : name.IsRegular) (objects : List StoredNode) :
    (∀ p ∈ loadObjects rule name objects, p.1.IsRegular) ∧
      Node.EveryObject (Node.IsRegular rule Expression.IsTrimmed) (loadObjects rule name objects) := by
  match objects with
  | [] => exact ⟨by simp [loadObjects, hname], trivial⟩
  | [object] =>
    have hobject := fun node h => (isRegular_loadNode false object node h).1
    exact ⟨by simp [loadObjects, hname], Node.everyObject_toOption hobject trivial⟩
  | object :: next :: rest =>
    have hobject := fun node h => (isRegular_loadNode false object node h).1
    obtain ⟨hnames, hrest⟩ := isRegular_loadObjects hname (next :: rest)
    have hload : loadObjects rule name (object :: next :: rest) =
        (name, (loadNode rule false object).toOption) :: loadObjects rule name (next :: rest) := by
      rw [loadObjects]
      exact List.cons_ne_nil next rest
    rw [hload]
    refine ⟨fun p hp => ?_, Node.everyObject_toOption hobject hrest⟩
    rcases List.mem_cons.1 hp with rfl | hp
    · exact hname
    · exact hnames p hp

end

/-! ## Documents -/

theorem isRead_defaultBase : Transform.defaultBase.IsRead := by
  have hparse : (Iri.parse Transform.defaultBase.text).toOption = some Transform.defaultBase := by
    decide +kernel
  exact ⟨_, toOption_eq_some_iff.1 hparse⟩

theorem isTrimmed_defaultBase : IsTrimmed Transform.defaultBase.text.toList := by
  decide +kernel

theorem isRead_loadBase (base : Option StoredBase) :
    (loadBase base).IsRead ∧ IsTrimmed (loadBase base).text.toList := by
  unfold loadBase
  cases h : base.bind fun b => (Iri.parseBase b.iriText).toOption with
  | none => exact ⟨isRead_defaultBase, isTrimmed_defaultBase⟩
  | some iri =>
    obtain ⟨stored, -, hparse⟩ := Option.bind_eq_some_iff.1 h
    have hread := mapError_eq_ok_iff.1 (toOption_eq_some_iff.1 hparse)
    rw [Option.getD_some, Iri.text_of_parse hread]
    exact ⟨⟨_, hread⟩, Text.isTrimmed_trim _⟩

theorem isRegular_load (rule : LabelRule) (d : Document) :
    (d.load rule).IsRegular rule Expression.IsTrimmed := by
  have hroots : ∀ root ∈ (d.load rule).roots,
      root.Every (Node.IsRegular rule Expression.IsTrimmed) ∧ root.isResource = true := by
    intro root hroot
    obtain ⟨v, -, hload⟩ := List.mem_filterMap.1 hroot
    obtain ⟨stored, -, hload⟩ := Option.bind_eq_some_iff.1 hload
    obtain ⟨hregular, hresource⟩ := isRegular_loadNode true stored root (toOption_eq_some_iff.1 hload)
    exact ⟨hregular, hresource rfl⟩
  have hlabels : ((d.namespaces.map loadVocabularies).getD .predefined).labels.Nodup := by
    cases d.namespaces with
    | none => exact VocabularyList.nodup_labels_ofList _
    | some entries => exact VocabularyList.nodup_labels_ofList _
  exact
    { base_read := (isRead_loadBase d.base).1
      base_trimmed := (isRead_loadBase d.base).2
      labels_nodup := hlabels
      roots_resource := fun root hroot => (hroots root hroot).2
      nodes := fun root hroot => (hroots root hroot).1 }

end Document

/-- Whatever value a transform is loaded from, it is regular, for the rule of the settings. -/
theorem Transform.isRegular_of_ofJson {read : ClassReader} {config : Config} {v : Json} {t : Transform}
    (h : Transform.ofJson config v read = .ok t) :
    ∃ rule, config.labelRule read = .ok rule ∧ t.IsRegular rule Expression.IsTrimmed := by
  unfold Transform.ofJson at h
  split at h
  · cases h
  · rename_i d _
    obtain ⟨rule, hrule, rfl⟩ := Outcome.map_eq_ok_iff.1 h
    exact ⟨rule, hrule, Document.isRegular_load rule d⟩

end TableGraph
