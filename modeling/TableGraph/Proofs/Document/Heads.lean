import Mathlib.Data.List.Basic
import TableGraph.Document.Loading

/-!
# What becomes of a node

Whether a stored node can be used is a matter of its head alone. What a usable resource says besides is
made up of what each of its types and each of its properties is good for on its own, and a property of
what each of its objects is good for (`loadNode_eq`).
-/

namespace TableGraph.Document

variable {rule : LabelRule}

/-- What a usable head says: what its node makes, and what of. The head of a root is no literal's. -/
def loadHead (isRoot : Bool) (head : NodeHead) : Except TransformError (ValueType × UsableSource) := do
  let type ← usableType head.valueType
  if isRoot && type.isLiteral then .error .literalRoot
  else return (type, ← usableSource head.valueSource)

/-- The names that one type is good for: its own, or none. -/
def loadType (type : StoredName) : List IriName :=
  match constantPath type.valueSource with
  | .ok path => [.ofParts type.label path]
  | .error _ => []

/-- The properties that one property is good for: none, or one for each object, or one without an
object if there are no objects. An object that cannot be used leaves its property without one. -/
def loadProperty (rule : LabelRule) (property : StoredName × List StoredNode) : List Property :=
  match constantPath property.1.valueSource with
  | .ok path =>
    let name := IriName.ofParts property.1.label path
    if property.2.isEmpty then [(name, none)]
    else property.2.map fun object => (name, (loadNode rule false object).toOption)
  | .error _ => []

theorem usableNames_eq (types : List StoredName) : usableNames types = types.flatMap loadType := by
  rw [usableNames, List.filterMap_eq_flatMap_toList]
  refine List.flatMap_congr fun type _ => ?_
  unfold loadType
  cases constantPath type.valueSource <;> rfl

theorem loadObjects_eq (name : IriName) (objects : List StoredNode) (h : objects ≠ []) :
    loadObjects rule name objects =
      objects.map fun object => (name, (loadNode rule false object).toOption) := by
  induction objects with
  | nil => exact absurd rfl h
  | cons object rest ih =>
    cases rest with
    | nil => rfl
    | cons next rest =>
      have hload : loadObjects rule name (object :: next :: rest) =
          (name, (loadNode rule false object).toOption) :: loadObjects rule name (next :: rest) := by
        rw [loadObjects]
        exact List.cons_ne_nil next rest
      rw [hload, ih (List.cons_ne_nil next rest)]
      rfl

theorem loadProperties_eq (properties : List (StoredName × List StoredNode)) :
    loadProperties rule properties = properties.flatMap (loadProperty rule) := by
  induction properties with
  | nil => rfl
  | cons property rest ih =>
    obtain ⟨name, objects⟩ := property
    rw [List.flatMap_cons, loadProperty, loadProperties]
    cases constantPath name.valueSource with
    | error e => exact ih
    | ok path =>
      dsimp only
      rw [ih]
      cases objects with
      | nil => rfl
      | cons object more => rw [loadObjects_eq _ _ (List.cons_ne_nil object more)]; rfl

/-- A node is used or refused for its head alone, and each entry below it counts on its own. -/
theorem loadNode_eq (isRoot : Bool) (head : NodeHead) (types : List StoredName)
    (properties : List (StoredName × List StoredNode)) :
    loadNode rule isRoot (.mk head types properties) =
      (loadHead isRoot head).map fun (type, source) =>
        let e := usableExpression head.expression
        if type.isLiteral then .literal (literalMaker source e head.valueType)
        else
          .resource (resourceMaker rule (type = .iri) source e head.label) (types.flatMap loadType)
            (properties.flatMap (loadProperty rule)) := by
  rw [loadNode, loadHead, usableNames_eq, loadProperties_eq]
  cases usableType head.valueType with
  | error e => rfl
  | ok type =>
    simp only [bind, Except.bind]
    split
    · rfl
    · cases usableSource head.valueSource with
      | error e => rfl
      | ok source =>
        dsimp only [pure, Except.pure, Except.map]
        split <;> rfl

theorem loadProperty_of_refused {name : StoredName} {path : String}
    (hpath : constantPath name.valueSource = .ok path) (before after : List StoredNode) {object : StoredNode}
    {e : TransformError} (h : loadNode rule false object = .error e) :
    let own (object : StoredNode) : Property :=
      (.ofParts name.label path, (loadNode rule false object).toOption)
    loadProperty rule (name, before ++ object :: after) =
      before.map own ++ (.ofParts name.label path, none) :: after.map own := by
  intro own
  have hown : own object = (.ofParts name.label path, none) := by
    simp only [own, h]
    rfl
  rw [loadProperty, hpath, ← hown, ← List.map_cons, ← List.map_append]
  simp [own]

end TableGraph.Document
