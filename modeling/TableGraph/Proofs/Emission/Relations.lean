import TableGraph.Proofs.Cursor.Reach
import TableGraph.Proofs.Emission.Offers

/-!
# Evaluations side by side

Whatever making the terms of a node involves, a tree is evaluated in the same steps: `Node.emitBy` takes
it from a `Production`, and evaluation proper is the case in which terms are named and nothing else
happens (`Node.emit_eq_emitBy`). Two evaluations are compared by a relation that holds of results and is
kept where steps are put together (`Emission.Relation`). If it holds of the terms made at each node of a
tree, in the rows within reach of the cursor, and of the triples offered, it holds of the evaluations as
wholes (`Node.emitBy_related`): the one induction over trees and cursors.
-/

namespace TableGraph

/-! ## Naming in steps -/

namespace Emission

theorem naming_bind (x : StateM BlankNodes α) (f : α → StateM BlankNodes β) :
    (naming (x >>= f) : Emission σ β) = naming x >>= fun a => naming (f a) := rfl

theorem naming_mapM (f : α → StateM BlankNodes β) (l : List α) :
    (naming (l.mapM f) : Emission σ (List β)) = l.mapM fun a => naming (f a) := by
  induction l with
  | nil => rfl
  | cons a rest ih =>
    rw [List.mapM_cons, List.mapM_cons, naming_bind]
    congr 1
    funext b
    rw [naming_bind, ih]
    rfl

end Emission

/-! ## Evaluation over a production -/

/-- The terms of nodes are named, and nothing else happens. -/
def Context.production (ctx : Context) : Production (Emission σ) :=
  fun place node row => Emission.naming (node.termsInRow ctx place row)

section
variable {σ : Type} (make : Production (Emission σ))

def Node.termsBy (place : Address) (node : Node) (c : Cursor) : Emission σ (List Term × Cursor) :=
  if node.isConstant || !c.isRecordMode then do
    return (← make place node c.row?, c)
  else if node.isIndex then do
    let (_, first) := c.next
    return (← make place node first.row?, first.reset)
  else do
    let terms ← c.walk.mapM fun c => make place node c.row?
    return (terms.flatten, c.leave)

theorem Node.naming_terms (ctx : Context) (place : Address) (node : Node) (c : Cursor) :
    (Emission.naming (node.terms ctx place c) : Emission σ (List Term × Cursor)) =
      node.termsBy ctx.production place c := by
  unfold Node.terms Node.termsBy
  split
  · rfl
  split
  · rfl
  · rw [Emission.naming_bind, Emission.naming_mapM]
    rfl

variable [TripleSink σ] (ctx : Context)

mutual

/-- Evaluate a node under a cursor, its terms made by a production. -/
def Node.emitBy (place : Address) (node : Node) (c : Cursor) : Emission σ (List Term) :=
  match node with
  | .literal maker =>
    if c.isPerRow then do
      let terms ← c.walk.mapM fun c => make place (.literal maker) c.row?
      return terms.flatten
    else do
      let (terms, _) ← (Node.literal maker).termsBy make place c
      return terms
  | .resource maker types properties =>
    if c.isPerRow then do
      let terms ← c.walk.mapM fun c => do
        let subjects ← make place (.resource maker types properties) c.row?
        unless subjects.isEmpty do
          Emission.offer (joinEach subjects Standard.rdfType (typeTerms ctx types))
          emitPropertiesBy place subjects c 0 properties
        return subjects
      return terms.flatten
    else do
      let (subjects, c) ← (Node.resource maker types properties).termsBy make place c
      unless subjects.isEmpty do
        Emission.offer (joinEach subjects Standard.rdfType (typeTerms ctx types))
        emitPropertiesBy place subjects c 0 properties
      return subjects

/-- Evaluate the properties of subjects, counted from a number, their objects made by a production. -/
def emitPropertiesBy (place : Address) (subjects : List Term) (c : Cursor) (number : Nat)
    (properties : List (IriName × Option Node)) : Emission σ Unit :=
  match properties with
  | [] => pure ()
  | (_, none) :: rest => emitPropertiesBy place subjects c (number + 1) rest
  | (name, some object) :: rest => do
    unless name.isBlank do
      let below := Cursor.forObject c
      let objects ← if below.isSet then object.emitBy (number :: place) below else pure []
      Emission.link ctx subjects name objects
    emitPropertiesBy place subjects c (number + 1) rest

end

end

section
variable [TripleSink σ] {ctx ctx' : Context}

theorem typeTerms_congr (h : ctx'.naming = ctx.naming) (types : List IriName) :
    typeTerms ctx' types = typeTerms ctx types := by
  rw [typeTerms, typeTerms, h]

theorem Emission.link_congr (h : ctx'.naming = ctx.naming) (subjects : List Term) (name : IriName)
    (objects : List Term) :
    (Emission.link ctx' subjects name objects : Emission σ Unit) =
      Emission.link ctx subjects name objects := by
  rw [Emission.link, Emission.link, h]

mutual

/-- Evaluation proper: what names mean is read from either context, and the cells from the own one. -/
theorem Node.emit_eq_emitBy (h : ctx'.naming = ctx.naming) (place : Address) (node : Node) (c : Cursor) :
    (node.emit ctx' place c : Emission σ (List Term)) = node.emitBy ctx'.production ctx place c := by
  match node with
  | .literal maker =>
    rw [Node.emit, Node.emitBy, ← Node.naming_terms]
    rfl
  | .resource maker types properties =>
    have hproperties (subjects : List Term) (c : Cursor) :=
      emitProperties_eq_emitPropertiesBy h place subjects c 0 properties
    rw [Node.emit, Node.emitBy, ← Node.naming_terms]
    simp only [typeTerms_congr h, hproperties]
    rfl

theorem emitProperties_eq_emitPropertiesBy (h : ctx'.naming = ctx.naming) (place : Address)
    (subjects : List Term) (c : Cursor) (number : Nat) (properties : List (IriName × Option Node)) :
    (emitProperties ctx' place subjects c number properties : Emission σ Unit) =
      emitPropertiesBy ctx'.production ctx place subjects c number properties := by
  match properties with
  | [] => rw [emitProperties, emitPropertiesBy]
  | (_, none) :: rest =>
    rw [emitProperties, emitPropertiesBy]
    exact emitProperties_eq_emitPropertiesBy h place subjects c (number + 1) rest
  | (name, some object) :: rest =>
    have hobject := Node.emit_eq_emitBy h (number :: place) object c.forObject
    have hrest := emitProperties_eq_emitPropertiesBy h place subjects c (number + 1) rest
    rw [emitProperties, emitPropertiesBy]
    simp only [hobject, hrest, Emission.link_congr h]

end

end

/-! ## Relations -/

namespace Emission

/-- A relation between emissions, with a condition on what both return. It holds of results that meet
the condition, and is kept where related emissions are put together. -/
structure Relation (σ τ : Type) where
  Related : {α : Type} → (α → Prop) → Emission σ α → Emission τ α → Prop
  pure : ∀ {α : Type} {post : α → Prop} {a : α}, post a → Related post (Pure.pure a) (Pure.pure a)
  bind : ∀ {α β : Type} {mid : α → Prop} {post : β → Prop} {x : Emission σ α} {y : Emission τ α}
    {f : α → Emission σ β} {g : α → Emission τ β}, Related mid x y →
    (∀ a, mid a → Related post (f a) (g a)) → Related post (x >>= f) (y >>= g)

namespace Relation

variable {R : Relation σ τ}

theorem mapM {post : β → Prop} {f : α → Emission σ β} {g : α → Emission τ β} {l : List α}
    (h : ∀ a ∈ l, R.Related post (f a) (g a)) :
    R.Related (fun bs => ∀ b ∈ bs, post b) (l.mapM f) (l.mapM g) := by
  induction l with
  | nil => exact R.pure (List.forall_mem_nil _)
  | cons a rest ih =>
    have hrest := ih fun b hb => h b (List.mem_cons_of_mem _ hb)
    rw [List.mapM_cons, List.mapM_cons]
    refine R.bind (h a List.mem_cons_self) fun b hb => R.bind hrest fun bs hbs => R.pure ?_
    exact List.forall_mem_cons.2 ⟨hb, hbs⟩

theorem mapM_flatten {post : β → Prop} {f : α → Emission σ (List β)} {g : α → Emission τ (List β)}
    {l : List α} (h : ∀ a ∈ l, R.Related (fun bs => ∀ b ∈ bs, post b) (f a) (g a)) :
    R.Related (fun bs => ∀ b ∈ bs, post b) (do return (← l.mapM f).flatten)
      (do return (← l.mapM g).flatten) := by
  refine R.bind (mapM h) fun parts hparts => R.pure ?_
  intro b hb
  obtain ⟨part, hpart, hb⟩ := List.mem_flatten.1 hb
  exact hparts part hpart b hb

/-- What it takes for two evaluations of a tree to be related: that what they make at its nodes and in
certain rows is, and what they offer. `here` says which node stands at which place, and there are
conditions on the terms that become subjects and objects. -/
structure Carries [TripleSink σ] [TripleSink τ] (R : Relation σ τ) (ctx : Context)
    (make : Production (Emission σ)) (make' : Production (Emission τ)) (here : Address → Node → Prop)
    (rows : Nat → Prop) (subject object : Term → Prop) : Prop where
  below : ∀ {place node number name below}, here place node →
    node.properties[number]? = some (name, some below) → here (number :: place) below
  made : ∀ {place node row}, here place node → (∀ r, row = some r → rows r) → R.Related
    (fun terms => ∀ term ∈ terms, object term ∧ (node.isResource = true → subject term))
    (make place node row) (make' place node row)
  named : ∀ {name iri}, ctx.naming.iri? name = some iri → object (.iri iri)
  offered : ∀ {triples : List Triple},
    (∀ t ∈ triples, subject t.subject ∧ object t.object ∧
      (t.property = Standard.rdfType ∨ ∃ name, ctx.naming.iri? name = some t.property)) →
    R.Related (fun _ => True) (Emission.offer triples) (Emission.offer triples)

section
variable [TripleSink σ] [TripleSink τ] {ctx : Context} {make : Production (Emission σ)}
  {make' : Production (Emission τ)} {here : Address → Node → Prop} {rows : Nat → Prop}
  {subject object : Term → Prop}

theorem Carries.types (h : R.Carries ctx make make' here rows subject object) {subjects : List Term}
    (hsubjects : ∀ s ∈ subjects, subject s) (types : List IriName) :
    R.Related (fun _ => True)
      (Emission.offer (joinEach subjects Standard.rdfType (typeTerms ctx types)))
      (Emission.offer (joinEach subjects Standard.rdfType (typeTerms ctx types))) := by
  refine h.offered fun t ht => ?_
  obtain ⟨s, hs, o, ho, rfl⟩ := mem_joinEach.1 ht
  obtain ⟨name, -, hname⟩ := List.mem_filterMap.1 ho
  obtain ⟨iri, hiri, rfl⟩ := Option.map_eq_some_iff.1 hname
  exact ⟨hsubjects s hs, h.named hiri, .inl rfl⟩

theorem Carries.link (h : R.Carries ctx make make' here rows subject object)
    {subjects objects : List Term} (hsubjects : ∀ s ∈ subjects, subject s)
    (hobjects : ∀ o ∈ objects, object o) (name : IriName) :
    R.Related (fun _ => True) (Emission.link ctx subjects name objects)
      (Emission.link ctx subjects name objects) := by
  unfold Emission.link
  split
  · exact R.pure trivial
  · split
    · rename_i property hproperty
      refine h.offered fun t ht => ?_
      obtain ⟨s, hs, o, ho, rfl⟩ := mem_joinEach.1 ht
      exact ⟨hsubjects s hs, hobjects o ho, .inr ⟨name, hproperty⟩⟩
    · exact R.pure trivial

/-- The terms of a node, and the rows that the cursor can still reach. -/
theorem Carries.terms (h : R.Carries ctx make make' here rows subject object) {place : Address}
    {node : Node} (hhere : here place node) {c : Cursor} (hc : c.Within rows) :
    R.Related
      (fun made => (∀ term ∈ made.1, object term ∧ (node.isResource = true → subject term)) ∧
        made.2.Within rows)
      (node.termsBy make place c) (node.termsBy make' place c) := by
  have hmade {c : Cursor} (hc : c.Within rows) := h.made hhere fun _ hr => hc.row? hr
  unfold Node.termsBy
  split
  · exact R.bind (hmade hc) fun terms hterms => R.pure ⟨hterms, hc⟩
  split
  · exact R.bind (hmade hc.next) fun terms hterms => R.pure ⟨hterms, hc.next.reset⟩
  · have hwalk := mapM (R := R) fun d hd => hmade (hc.of_mem_walk hd)
    refine R.bind hwalk fun parts hparts => R.pure ⟨?_, hc.leave⟩
    intro term hterm
    obtain ⟨part, hpart, hterm⟩ := List.mem_flatten.1 hterm
    exact hparts part hpart term hterm

end

end Relation

end Emission

section
variable [TripleSink σ] [TripleSink τ] {R : Emission.Relation σ τ} {ctx : Context}
  {make : Production (Emission σ)} {make' : Production (Emission τ)} {here : Address → Node → Prop}
  {rows : Nat → Prop} {subject object : Term → Prop}

mutual

/-- Evaluations of a tree are related if what they make and offer is. -/
theorem Node.emitBy_related (h : R.Carries ctx make make' here rows subject object) (place : Address)
    (node : Node) (hhere : here place node) (c : Cursor) (hc : c.Within rows) :
    R.Related (fun terms => ∀ term ∈ terms, object term ∧ (node.isResource = true → subject term))
      (node.emitBy make ctx place c) (node.emitBy make' ctx place c) := by
  match node with
  | .literal maker =>
    rw [Node.emitBy, Node.emitBy]
    split
    · exact R.mapM_flatten fun d hd => h.made hhere fun _ hr => (hc.of_mem_walk hd).row? hr
    · exact R.bind (h.terms hhere hc) fun made hmade => R.pure hmade.1
  | .resource maker types properties =>
    -- the statements about subjects, once there are some
    have habout (subjects : List Term) (d : Cursor) (hd : d.Within rows)
        (hsubjects : ∀ s ∈ subjects, object s ∧ (true = true → subject s)) :
        R.Related (fun terms => ∀ term ∈ terms, object term ∧ (true = true → subject term))
          (do
            unless subjects.isEmpty do
              Emission.offer (joinEach subjects Standard.rdfType (typeTerms ctx types))
              emitPropertiesBy make ctx place subjects d 0 properties
            return subjects)
          (do
            unless subjects.isEmpty do
              Emission.offer (joinEach subjects Standard.rdfType (typeTerms ctx types))
              emitPropertiesBy make' ctx place subjects d 0 properties
            return subjects) := by
      have hs : ∀ s ∈ subjects, subject s := fun s hs => (hsubjects s hs).2 rfl
      split
      · exact R.pure hsubjects
      · have hproperties := emitPropertiesBy_related h place subjects hs d hd 0 properties
          fun offset name below hbelow => by
            rw [Nat.zero_add]
            exact h.below hhere hbelow
        exact R.bind (h.types hs types) fun _ _ => R.bind hproperties fun _ _ => R.pure hsubjects
    rw [Node.emitBy, Node.emitBy]
    split
    · refine R.mapM_flatten fun d hd => ?_
      have hd := hc.of_mem_walk hd
      exact R.bind (h.made hhere fun _ hr => hd.row? hr) fun subjects hsubjects =>
        habout subjects d hd hsubjects
    · exact R.bind (h.terms hhere hc) fun made hmade => habout made.1 made.2 hmade.2 hmade.1

theorem emitPropertiesBy_related (h : R.Carries ctx make make' here rows subject object)
    (place : Address) (subjects : List Term) (hsubjects : ∀ s ∈ subjects, subject s) (c : Cursor)
    (hc : c.Within rows) (number : Nat) (properties : List (IriName × Option Node))
    (hhere : ∀ offset name below, properties[offset]? = some (name, some below) →
      here ((number + offset) :: place) below) :
    R.Related (fun _ => True) (emitPropertiesBy make ctx place subjects c number properties)
      (emitPropertiesBy make' ctx place subjects c number properties) := by
  match properties with
  | [] =>
    rw [emitPropertiesBy, emitPropertiesBy]
    exact R.pure trivial
  | (name, object?) :: rest =>
    have hrest := emitPropertiesBy_related h place subjects hsubjects c hc (number + 1) rest
      fun offset name below hbelow => by
        have hnumber : number + 1 + offset = number + (offset + 1) := by omega
        rw [hnumber]
        exact hhere (offset + 1) name below hbelow
    match object? with
    | none =>
      rw [emitPropertiesBy, emitPropertiesBy]
      exact hrest
    | some node =>
      have hlink (objects : List Term) (hobjects : ∀ o ∈ objects, object o) :
          R.Related (fun _ => True)
            (do
              Emission.link ctx subjects name objects
              emitPropertiesBy make ctx place subjects c (number + 1) rest)
            (do
              Emission.link ctx subjects name objects
              emitPropertiesBy make' ctx place subjects c (number + 1) rest) :=
        R.bind (h.link hsubjects hobjects name) fun _ _ => hrest
      rw [emitPropertiesBy, emitPropertiesBy]
      split
      · exact hrest
      · dsimp only
        split
        · have hobject := Node.emitBy_related h (number :: place) node (hhere 0 name node rfl)
            c.forObject hc.forObject
          exact R.bind hobject fun objects hobjects => hlink objects fun o ho => (hobjects o ho).1
        · exact hlink [] (List.forall_mem_nil _)

end

end

end TableGraph
