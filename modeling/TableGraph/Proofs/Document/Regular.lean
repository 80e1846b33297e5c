import TableGraph.Document.Loading
import TableGraph.Proofs.Text.Trimming

/-!
# Regular transforms

What a document can say is less than what a transform can hold: names lose their blank characters when
they are read, a cell is an index or a column with a name, blank nodes of constants have the rule of
the settings. A transform that keeps to this is regular. What expressions keep to is a parameter,
because a document can hold code that is read as the code of another language.
-/

namespace TableGraph

open Text (IsStripped IsTrimmed)

/-- An expression that is left out, or whose code is read as it is. -/
def Expression.IsStorable (e : Expression) : Prop :=
  e = .cellValue ∨
    (e.code ≠ "" ∧ IsTrimmed e.code.toList ∧ Expression.embeddedLanguage? e.code.toList = none)

/-- A name without blank and format characters. -/
def IriName.IsRegular (name : IriName) : Prop :=
  (∀ l ∈ name.label, IsStripped l) ∧ IsStripped name.path

instance : DecidablePred IriName.IsRegular :=
  fun name => inferInstanceAs (Decidable ((∀ l ∈ name.label, IsStripped l) ∧ IsStripped name.path))

/-- A cell that is an index, or a column with a name. -/
def CellSource.IsRegular (cell : CellSource) : Prop :=
  (cell.isIndex = true ∧ cell.column = none) ∨
    (cell.kind = .column ∧ ∃ name, cell.column = some name ∧ name ≠ "")

def ResourceMaker.IsRegular (rule : LabelRule) : ResourceMaker → Prop
  | .constantIri constant label _ => IsStripped constant ∧ ∀ l ∈ label, IsStripped l
  | .constantBlank _ _ own => own = rule
  | .cellIri cell label => cell.IsRegular ∧ ∀ l ∈ label, IsStripped l
  | .cellBlank cell => cell.IsRegular

/-- The path of a datatype is kept as it is, and a language is trimmed. -/
structure LiteralMaker.IsRegular (m : LiteralMaker) : Prop where
  cell : ∀ cell, m.source = .cell cell → cell.IsRegular
  datatype : ∀ name ∈ m.datatype, ∀ label ∈ name.label, IsStripped label
  language : ∀ tag ∈ m.language, IsTrimmed tag.toList ∧ tag ≠ ""

/-- A node whose terms and names are regular, with an expression of the kind given. -/
def Node.IsRegular (rule : LabelRule) (expressions : Expression → Prop) (node : Node) : Prop :=
  expressions node.expression ∧
    match node with
    | .resource maker types properties =>
      maker.IsRegular rule ∧ (∀ name ∈ types, name.IsRegular) ∧ ∀ p ∈ properties, p.1.IsRegular
    | .literal maker => maker.IsRegular

/-- An IRI that a text is read as. -/
def Iri.IsRead (iri : Iri) : Prop :=
  ∃ text, Iri.parse text = .ok iri

/-- A transform that keeps to what documents can say. -/
structure Transform.IsRegular (rule : LabelRule) (expressions : Expression → Prop) (t : Transform) :
    Prop where
  base_read : t.naming.base.IsRead
  base_trimmed : IsTrimmed t.naming.base.text.toList
  labels_nodup : t.naming.vocabularies.labels.Nodup
  roots_resource : ∀ root ∈ t.roots, root.isResource = true
  nodes : ∀ root ∈ t.roots, root.Every (Node.IsRegular rule expressions)

end TableGraph
