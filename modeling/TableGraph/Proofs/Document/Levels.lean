import TableGraph.Proofs.Json.Changes

/-!
# What a node is read from

A node is read from the values of its fields, and each of its properties from the values of its own. Nodes
are nested less deep than the values they stand in, so a node is read alike with any number of levels that
is enough (`ofJsonWithin?_of_depth_lt`).
-/

namespace TableGraph.Document

open Json (fields? optional withDefault list?)

/-! ## Fields -/

def nodeFields : List String :=
  ["prefix", "valueSource", "expression", "valueType", "typeMappings", "propertyMappings"]

def propertyFields : List String :=
  ["prefix", "valueSource", "objectMappings"]

def headOfFields (label source expression type : Option Json) : Option NodeHead := do
  return { label := ← optional Json.string? label
           valueSource := ← optional ValueSource.ofJson? source
           expression := ← optional StoredExpression.ofJson? expression
           valueType := ← optional StoredType.ofJson? type }

theorem ofJsonWithin?_eq_some_iff {levels : Nat} {v : Json} {head : NodeHead} {types : List StoredName}
    {properties : List (StoredName × List StoredNode)} :
    StoredNode.ofJsonWithin? (levels + 1) v = some (.mk head types properties) ↔
      ∃ label source expression type ts ps,
        fields? nodeFields v = some [label, source, expression, type, ts, ps] ∧
        headOfFields label source expression type = some head ∧
        withDefault [] (list? StoredName.ofJson?) ts = some types ∧
        withDefault [] (list? (propertyOfJson? (StoredNode.ofJsonWithin? levels))) ps = some properties := by
  constructor
  · intro h
    rw [StoredNode.ofJsonWithin?] at h
    obtain ⟨values, hvalues, h⟩ := Option.bind_eq_some_iff.1 h
    split at h
    · rename_i label source expression type ts ps
      refine ⟨label, source, expression, type, ts, ps, hvalues, ?_⟩
      simp only [Option.bind_eq_bind, Option.bind_eq_some_iff] at h
      obtain ⟨l, hl, s, hs, e, he, t, ht, own, hown, more, hmore, h⟩ := h
      obtain ⟨rfl, rfl, rfl⟩ := StoredNode.mk.inj (Option.some.inj h)
      refine ⟨?_, hown, hmore⟩
      simp only [headOfFields, hl, hs, he, ht]
      rfl
    · cases h
  · rintro ⟨label, source, expression, type, ts, ps, hvalues, hhead, htypes, hproperties⟩
    simp only [headOfFields, Option.bind_eq_bind, Option.bind_eq_some_iff] at hhead
    obtain ⟨l, hl, s, hs, e, he, t, ht, hhead⟩ := hhead
    obtain rfl := Option.some.inj hhead
    rw [StoredNode.ofJsonWithin?]
    change (fields? nodeFields v >>= _) = _
    rw [hvalues]
    simp only [Option.bind_eq_bind, Option.bind_some, hl, hs, he, ht, htypes, hproperties]
    rfl

theorem propertyOfJson?_eq_some_iff {object : Json → Option StoredNode} {v : Json} {name : StoredName}
    {objects : List StoredNode} :
    propertyOfJson? object v = some (name, objects) ↔
      ∃ label source os, fields? propertyFields v = some [label, source, os] ∧
        optional Json.string? label = some name.label ∧
        optional ValueSource.ofJson? source = some name.valueSource ∧
        withDefault [] (list? object) os = some objects := by
  constructor
  · intro h
    rw [propertyOfJson?] at h
    obtain ⟨values, hvalues, h⟩ := Option.bind_eq_some_iff.1 h
    split at h
    · rename_i label source os
      simp only [Option.bind_eq_bind, Option.bind_eq_some_iff] at h
      obtain ⟨l, hl, s, hs, own, hown, h⟩ := h
      obtain ⟨rfl, rfl⟩ := Prod.mk.inj (Option.some.inj h)
      exact ⟨label, source, os, hvalues, hl, hs, hown⟩
    · cases h
  · rintro ⟨label, source, os, hvalues, hl, hs, hobjects⟩
    rw [propertyOfJson?]
    change (fields? propertyFields v >>= _) = _
    rw [hvalues]
    simp only [Option.bind_eq_bind, Option.bind_some, hl, hs, hobjects]
    rfl

/-! ## Levels -/

theorem mapM_eq_some_of_forall {read other : Json → Option α} {items : List Json} {l : List α}
    (hsame : ∀ item ∈ items, ∀ a, read item = some a → other item = some a)
    (h : items.mapM read = some l) : items.mapM other = some l := by
  induction items generalizing l with
  | nil => exact h
  | cons item rest ih =>
    rw [List.mapM_cons] at h
    obtain ⟨a, ha, h⟩ := Option.bind_eq_some_iff.1 h
    obtain ⟨more, hmore, h⟩ := Option.bind_eq_some_iff.1 h
    obtain ⟨hfirst, hrest⟩ := List.forall_mem_cons.1 hsame
    rw [List.mapM_cons, hfirst a ha, ih hrest hmore]
    exact h

theorem withDefault_list?_congr {read other : Json → Option α} {field : Option Json} {l : List α}
    (hread : ∀ v ∈ field, ∀ item a, item.depth < v.depth → read item = some a → other item = some a)
    (h : withDefault [] (list? read) field = some l) : withDefault [] (list? other) field = some l := by
  cases field with
  | none => exact h
  | some v =>
    obtain ⟨items, hitems, hl⟩ := Option.bind_eq_some_iff.1 h
    cases v with
    | array own =>
      obtain rfl := Option.some.inj hitems
      refine mapM_eq_some_of_forall (fun item hitem a => hread _ rfl item a ?_) hl
      have hle := Json.depth_le_depthOfItems hitem
      rw [Json.depth]
      omega
    | null | bool | number | string | object => cases hitems

/-- However many levels a node is read with, if they are enough. -/
theorem ofJsonWithin?_of_depth_lt {levels more : Nat} {v : Json} {stored : StoredNode}
    (h : StoredNode.ofJsonWithin? levels v = some stored) (hdepth : v.depth < more) :
    StoredNode.ofJsonWithin? more v = some stored := by
  induction levels generalizing more v stored with
  | zero => cases h
  | succ levels ih =>
    obtain ⟨head, types, properties⟩ := stored
    obtain ⟨more, rfl⟩ : ∃ fewer, more = fewer + 1 := ⟨more - 1, by omega⟩
    obtain ⟨label, source, expression, type, ts, ps, hfields, hhead, htypes, hproperties⟩ :=
      ofJsonWithin?_eq_some_iff.1 h
    refine ofJsonWithin?_eq_some_iff.2
      ⟨label, source, expression, type, ts, ps, hfields, hhead, htypes, ?_⟩
    refine withDefault_list?_congr (fun w hw item property hitem hproperty => ?_) hproperties
    obtain ⟨name, objects⟩ := property
    obtain ⟨l, s, os, hown, hl, hs, hobjects⟩ := propertyOfJson?_eq_some_iff.1 hproperty
    refine propertyOfJson?_eq_some_iff.2 ⟨l, s, os, hown, hl, hs, ?_⟩
    refine withDefault_list?_congr (fun u hu object node hobject hnode => ih hnode ?_) hobjects
    have hps := Json.depth_lt_of_fields? hfields (w := w) (by simp [Option.mem_def.1 hw])
    have hos := Json.depth_lt_of_fields? hown (w := u) (by simp [Option.mem_def.1 hu])
    omega

end TableGraph.Document
