import TableGraph.Document.Decoding
import TableGraph.Document.Encoding

/-!
# Reading back what was written

Every part of a document is read back from the value that it is written as. The entries of an object are
found whatever order they stand in; a field that is left out is read as absent, or as the default that
made it superfluous. For nodes the induction is on the stored tree, and the reader has levels enough
because a tree nests no deeper than the value that it is written as (`StoredNode.ofJson?_toJson`).
-/

namespace TableGraph

namespace Json

/-! ## Entries -/

@[simp] theorem find?_nil (key : String) : find? key [] = none := rfl

@[simp] theorem find?_cons (key k : String) (v : Json) (rest : List (String × Json)) :
    find? key ((k, v) :: rest) = if k = key then some v else find? key rest := by
  by_cases h : k = key <;> simp [find?, h]

@[simp] theorem find?_append (key : String) (a b : List (String × Json)) :
    find? key (a ++ b) = (find? key a).or (find? key b) := by
  induction a with
  | nil => simp
  | cons entry rest ih =>
    obtain ⟨k, v⟩ := entry
    by_cases h : k = key <;> simp [h, ih]

@[simp] theorem find?_entry (key k : String) (v : Option Json) :
    find? key (entry k v) = if k = key then v else none := by
  cases v <;> simp [entry]

@[simp] theorem find?_listEntry (key k : String) (items : List Json) :
    find? key (listEntry k items) = if k = key then array? items else none :=
  find?_entry key k _

/-! ## Nesting -/

theorem depthOfEntries_append (a b : List (String × Json)) :
    depthOfEntries (a ++ b) = max (depthOfEntries a) (depthOfEntries b) := by
  induction a with
  | nil => simp [depthOfEntries]
  | cons entry rest ih =>
    rw [List.cons_append, depthOfEntries, depthOfEntries, ih, Nat.max_assoc]

theorem depthOfItems_le_listEntry (key : String) (items : List Json) :
    depthOfItems items ≤ depthOfEntries (listEntry key items) := by
  cases items with
  | nil => exact Nat.zero_le _
  | cons item rest =>
    have hentry : listEntry key (item :: rest) = [(key, .array (item :: rest))] := rfl
    rw [hentry, depthOfEntries, depth]
    omega

/-! ## Fields -/

theorem optional_map {read : Json → Option α} {write : α → Json}
    (h : ∀ a, write a ≠ .null ∧ read (write a) = some a) (o : Option α) :
    optional read (o.map write) = some o := by
  cases o with
  | none => rfl
  | some a =>
    obtain ⟨hnull, hread⟩ := h a
    unfold optional
    simp [hread]

theorem withDefault_array? {read : Json → Option α} {items : List Json} {l : List α}
    (h : items.mapM read = some l) : withDefault [] (list? read) (array? items) = some l := by
  cases items with
  | nil =>
    obtain rfl : [] = l := by simpa using h
    rfl
  | cons item rest => exact h

theorem mapM_map_eq_some {read : Json → Option α} {write : α → Json}
    (h : ∀ a, read (write a) = some a) (l : List α) : (l.map write).mapM read = some l := by
  induction l with
  | nil => rfl
  | cons a rest ih => simp [h, ih]

end Json

namespace Document

open Json (optional_map withDefault_array? mapM_map_eq_some)

/-! ## Parts of nodes -/

theorem optional_string (o : Option String) : Json.optional Json.string? (o.map .string) = some o := by
  cases o <;> rfl

theorem ValueSource.ofJson?_toJson (s : ValueSource) : ofJson? s.toJson = some s := by
  simp [ofJson?, toJson, Json.fields?, optional_string, Json.withDefault, Json.string?]

theorem StoredExpression.ofJson?_toJson (e : StoredExpression) : ofJson? e.toJson = some e := by
  simp [ofJson?, toJson, Json.fields?, optional_string, Json.withDefault, Json.string?]

theorem optional_valueSource (o : Option ValueSource) :
    Json.optional ValueSource.ofJson? (o.map ValueSource.toJson) = some o :=
  optional_map (fun s => ⟨by simp [ValueSource.toJson], s.ofJson?_toJson⟩) o

theorem StoredName.ofJson?_toJson (n : StoredName) : ofJson? n.toJson = some n := by
  simp [ofJson?, toJson, entries, Json.fields?, optional_string, optional_valueSource]

theorem StoredType.ofJson?_toJson (t : StoredType) : ofJson? t.toJson = some t := by
  have hdatatype : Json.optional StoredName.ofJson? (t.datatype.map StoredName.toJson) = some t.datatype :=
    optional_map (fun n => ⟨by simp [StoredName.toJson], n.ofJson?_toJson⟩) _
  simp [ofJson?, toJson, Json.fields?, optional_string, hdatatype, Json.withDefault, Json.string?]

/-! ## Nodes -/

theorem NodeHead.fields_entries (head : NodeHead) :
    Json.optional Json.string? (Json.find? "prefix" head.entries) = some head.label ∧
      Json.optional ValueSource.ofJson? (Json.find? "valueSource" head.entries) = some head.valueSource ∧
      Json.optional StoredExpression.ofJson? (Json.find? "expression" head.entries) =
        some head.expression ∧
      Json.optional StoredType.ofJson? (Json.find? "valueType" head.entries) = some head.valueType ∧
      Json.find? "typeMappings" head.entries = none ∧
      Json.find? "propertyMappings" head.entries = none := by
  have hexpression : Json.optional StoredExpression.ofJson?
      (head.expression.map StoredExpression.toJson) = some head.expression :=
    optional_map (fun e => ⟨by simp [StoredExpression.toJson], e.ofJson?_toJson⟩) _
  have htype : Json.optional StoredType.ofJson? (head.valueType.map StoredType.toJson) =
      some head.valueType :=
    optional_map (fun t => ⟨by simp [StoredType.toJson], t.ofJson?_toJson⟩) _
  simp [NodeHead.entries, optional_string, optional_valueSource, hexpression, htype]

mutual

/-- A node is read back by a reader with more levels than the value nests. -/
theorem StoredNode.ofJsonWithin?_toJson (levels : Nat) (node : StoredNode)
    (h : node.toJson.depth < levels) :
    StoredNode.ofJsonWithin? levels node.toJson = some node := by
  match node, levels with
  | .mk head types properties, levels + 1 =>
    rw [StoredNode.toJson] at h ⊢
    have hdepth : Json.depthOfItems (propertiesToJson properties) < levels := by
      have hentry := Json.depthOfItems_le_listEntry "propertyMappings" (propertiesToJson properties)
      rw [Json.depth, Json.depthOfEntries_append] at h
      omega
    have hproperties := withDefault_array? (mapM_propertiesToJson levels properties hdepth)
    have htypes := withDefault_array? (mapM_map_eq_some StoredName.ofJson?_toJson types)
    obtain ⟨hlabel, hsource, hexpression, htype, hnoTypes, hnoProperties⟩ := head.fields_entries
    rw [StoredNode.ofJsonWithin?]
    simp [Json.fields?, hlabel, hsource, hexpression, htype, hnoTypes, hnoProperties, htypes,
      hproperties]

theorem mapM_propertiesToJson (levels : Nat) (properties : List (StoredName × List StoredNode))
    (h : Json.depthOfItems (propertiesToJson properties) < levels) :
    (propertiesToJson properties).mapM (propertyOfJson? (StoredNode.ofJsonWithin? levels)) =
      some properties := by
  match properties with
  | [] => rfl
  | (name, objects) :: rest =>
    rw [propertiesToJson] at h ⊢
    rw [Json.depthOfItems] at h
    have hdepth : Json.depthOfItems (nodesToJson objects) < levels := by
      have hentry := Json.depthOfItems_le_listEntry "objectMappings" (nodesToJson objects)
      rw [Json.depth, Json.depthOfEntries_append] at h
      omega
    have hobjects := withDefault_array? (mapM_nodesToJson levels objects hdepth)
    have hrest := mapM_propertiesToJson levels rest (by omega)
    have hproperty : propertyOfJson? (StoredNode.ofJsonWithin? levels)
        (.object (name.entries ++ Json.listEntry "objectMappings" (nodesToJson objects))) =
        some (name, objects) := by
      simp [propertyOfJson?, Json.fields?, StoredName.entries, optional_string, optional_valueSource,
        hobjects]
    rw [List.mapM_cons, hproperty, hrest]
    rfl

theorem mapM_nodesToJson (levels : Nat) (nodes : List StoredNode)
    (h : Json.depthOfItems (nodesToJson nodes) < levels) :
    (nodesToJson nodes).mapM (StoredNode.ofJsonWithin? levels) = some nodes := by
  match nodes with
  | [] => rfl
  | node :: rest =>
    rw [nodesToJson] at h ⊢
    rw [Json.depthOfItems] at h
    have hnode := StoredNode.ofJsonWithin?_toJson levels node (by omega)
    have hrest := mapM_nodesToJson levels rest (by omega)
    rw [List.mapM_cons, hnode, hrest]
    rfl

end

theorem StoredNode.ofJson?_toJson (node : StoredNode) : ofJson? node.toJson = some node :=
  ofJsonWithin?_toJson _ node (Nat.lt_succ_self _)

/-! ## Documents -/

theorem StoredNamespace.ofJson?_toJson (n : StoredNamespace) : ofJson? n.toJson = some n := by
  cases n with
  | plain ns => rfl
  | described ns location loctype => simp [ofJson?, toJson, optional_string, Json.string?]

end Document

theorem Document.ofJson?_toJson {d : Document} {iri : String} (hbase : d.base = some (.text iri)) :
    ofJson? d.toJson = some d := by
  have hnamespaces : Json.optional Json.entries? (d.namespaces.map .object) = some d.namespaces := by
    cases d.namespaces <;> rfl
  have hsubjects : Json.optional Json.items? (d.subjectMappings.map .array) = some d.subjectMappings := by
    cases d.subjectMappings <;> rfl
  have hread : Json.optional StoredBase.ofJson? (d.base.map StoredBase.toJson) = some d.base := by
    rw [hbase]
    rfl
  simp [ofJson?, toJson, Json.fields?, optional_string, hnamespaces, hsubjects, hread]

end TableGraph
