import TableGraph.Mapping.Node

/-!
# Nodes of a tree

A condition on every node of a tree (`Node.Every`) is one on the members of a list, the nodes of the tree
from the root on (`Node.every_iff_forall_mem`).
-/

namespace TableGraph.Node

mutual

def nodes : Node → List Node
  | .resource maker types properties => .resource maker types properties :: nodesBelow properties
  | .literal maker => [.literal maker]

def nodesBelow : List (IriName × Option Node) → List Node
  | [] => []
  | (_, none) :: rest => nodesBelow rest
  | (_, some object) :: rest => object.nodes ++ nodesBelow rest

end

variable {p q : Node → Prop}

mutual

theorem every_iff_forall_mem (node : Node) : node.Every p ↔ ∀ n ∈ node.nodes, p n := by
  match node with
  | .literal maker => rw [Every, nodes, List.forall_mem_singleton]
  | .resource maker types properties =>
    rw [Every, nodes, List.forall_mem_cons, everyObject_iff_forall_mem properties]

theorem everyObject_iff_forall_mem (properties : List (IriName × Option Node)) :
    EveryObject p properties ↔ ∀ n ∈ nodesBelow properties, p n := by
  match properties with
  | [] => exact iff_of_true trivial (List.forall_mem_nil _)
  | (_, none) :: rest => rw [EveryObject, nodesBelow, everyObject_iff_forall_mem rest]
  | (_, some object) :: rest =>
    rw [EveryObject, nodesBelow, List.forall_mem_append, every_iff_forall_mem object,
      everyObject_iff_forall_mem rest]

end

theorem every_of_forall (h : ∀ node, p node) (node : Node) : node.Every p :=
  (every_iff_forall_mem node).2 fun n _ => h n

theorem Every.imp {node : Node} (h : node.Every p) (himp : ∀ n, p n → q n) : node.Every q :=
  (every_iff_forall_mem node).2 fun n hn => himp n ((every_iff_forall_mem node).1 h n hn)

theorem everyObject_getElem {properties : List (IriName × Option Node)} (h : EveryObject p properties)
    {number : Nat} {name : IriName} {below : Node} (hbelow : properties[number]? = some (name, some below)) :
    below.Every p := by
  induction properties generalizing number with
  | nil => simp at hbelow
  | cons property rest ih =>
    obtain ⟨other, object⟩ := property
    have hrest : EveryObject p rest := by
      cases object with
      | none => exact h
      | some object => exact h.2
    cases number with
    | zero =>
      obtain ⟨-, rfl⟩ := Prod.mk.inj (Option.some.inj hbelow)
      exact h.1
    | succ number => exact ih hrest (by simpa using hbelow)

end TableGraph.Node
