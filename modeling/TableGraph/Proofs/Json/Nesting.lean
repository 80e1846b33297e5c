import TableGraph.Json.Reader
import TableGraph.Proofs.Json.Changes

/-!
# How deep values are nested

An array or an object is one level deeper than the deepest value in it. What is read from a value and
written again is nested no deeper if that is so of each part, since a part is written only where a value
was read (`depth_le_of_optional`, `depth_le_of_withDefault`). A value that is read from a text is nested no
deeper than the reader has levels (`depth_le_of_readValue`).
-/

namespace TableGraph.Json

/-! ## Arrays and objects -/

theorem depthOfItems_le_iff {items : List Json} {n : Nat} :
    depthOfItems items ≤ n ↔ ∀ v ∈ items, v.depth ≤ n := by
  induction items with
  | nil => simp [depthOfItems]
  | cons v rest ih => rw [depthOfItems, Nat.max_le, ih, List.forall_mem_cons]

theorem depthOfEntries_le_iff {entries : List (String × Json)} {n : Nat} :
    depthOfEntries entries ≤ n ↔ ∀ e ∈ entries, e.2.depth ≤ n := by
  induction entries with
  | nil => simp [depthOfEntries]
  | cons e rest ih => rw [depthOfEntries, Nat.max_le, ih, List.forall_mem_cons]

theorem depth_array_le_iff {items : List Json} {n : Nat} :
    (array items).depth ≤ n + 1 ↔ ∀ v ∈ items, v.depth ≤ n := by
  rw [depth, Nat.add_le_add_iff_right, depthOfItems_le_iff]

theorem depth_object_le_iff {entries : List (String × Json)} {n : Nat} :
    (object entries).depth ≤ n + 1 ↔ ∀ e ∈ entries, e.2.depth ≤ n := by
  rw [depth, Nat.add_le_add_iff_right, depthOfEntries_le_iff]

theorem depth_lt_of_mem_array {v : Json} {items : List Json} (h : v ∈ items) :
    v.depth < (array items).depth :=
  Nat.lt_succ_of_le (depth_le_depthOfItems h)

theorem depth_array_le_of_forall {items others : List Json}
    (h : ∀ v ∈ items, ∃ w ∈ others, v.depth ≤ w.depth) : (array items).depth ≤ (array others).depth := by
  rw [depth, depth, Nat.add_le_add_iff_right, depthOfItems_le_iff]
  intro v hv
  obtain ⟨w, hw, hle⟩ := h v hv
  exact Nat.le_trans hle (depth_le_depthOfItems hw)

theorem forall_mem_entry {p : String × Json → Prop} {key : String} {value : Option Json} :
    (∀ e ∈ entry key value, p e) ↔ ∀ v ∈ value, p (key, v) := by
  cases value <;> simp [entry]

theorem forall_mem_listEntry {p : String × Json → Prop} {key : String} {items : List Json} :
    (∀ e ∈ listEntry key items, p e) ↔ (items ≠ [] → p (key, .array items)) := by
  rw [listEntry, forall_mem_entry]
  cases items <;> simp [array?]

/-! ## Fields -/

theorem exists_depth_of_fields? {names : List String} {v : Json} {values : List (Option Json)}
    (h : fields? names v = some values) :
    ∃ n, v.depth = n + 1 ∧ ∀ field ∈ values, ∀ w ∈ field, w.depth ≤ n := by
  have hpos : 0 < v.depth := by
    cases v with
    | array | object => exact Nat.succ_pos _
    | null | bool | number | string => cases h
  refine ⟨v.depth - 1, by omega, fun field hfield w hw => ?_⟩
  have hlt := depth_lt_of_fields? h (Option.mem_def.1 hw ▸ hfield)
  omega

theorem exists_mem_of_mapM {read : Json → Option α} {items : List Json} {l : List α}
    (h : items.mapM read = some l) : ∀ a ∈ l, ∃ v ∈ items, read v = some a := by
  induction items generalizing l with
  | nil =>
    obtain rfl : [] = l := by simpa using h
    simp
  | cons v rest ih =>
    rw [List.mapM_cons] at h
    obtain ⟨a, ha, h⟩ := Option.bind_eq_some_iff.1 h
    obtain ⟨more, hmore, h⟩ := Option.bind_eq_some_iff.1 h
    obtain rfl := Option.some.inj h
    refine List.forall_mem_cons.2 ⟨⟨v, List.mem_cons_self, ha⟩, fun b hb => ?_⟩
    obtain ⟨w, hw, hread⟩ := ih hmore b hb
    exact ⟨w, List.mem_cons_of_mem v hw, hread⟩

section

variable {read : Json → Option α} {write : α → Json} {field : Option Json} {n : Nat}
  (hread : ∀ v a, read v = some a → (write a).depth ≤ v.depth) (hfield : ∀ v ∈ field, v.depth ≤ n)

include hread hfield

theorem depth_le_of_optional {o : Option α} (h : optional read field = some o) :
    ∀ a ∈ o, (write a).depth ≤ n := by
  rintro a rfl
  unfold optional at h
  split at h
  · cases h
  · cases h
  · rename_i v _
    obtain ⟨b, hb, hsome⟩ := Option.map_eq_some_iff.1 h
    obtain rfl := Option.some.inj hsome
    exact Nat.le_trans (hread v b hb) (hfield v rfl)

theorem depth_le_of_withDefault {l : List α} (h : withDefault [] (list? read) field = some l)
    (hne : l ≠ []) : (array (l.map write)).depth ≤ n := by
  cases field with
  | none => exact absurd (Option.some.inj h).symm hne
  | some v =>
    obtain ⟨items, hitems, hl⟩ := Option.bind_eq_some_iff.1 h
    cases v with
    | array own =>
      obtain rfl := Option.some.inj hitems
      refine Nat.le_trans (depth_array_le_of_forall fun w hw => ?_) (hfield _ rfl)
      obtain ⟨a, ha, rfl⟩ := List.mem_map.1 hw
      obtain ⟨item, hitem, hitemread⟩ := exists_mem_of_mapM hl a ha
      exact ⟨item, hitem, hread item a hitemread⟩
    | null | bool | number | string | object => cases hitems

end

/-! ## Values in texts -/

theorem depth_of_readScalar {s left : List Char} {v : Json} (h : readScalar s = some (v, left)) :
    v.depth = 0 := by
  unfold readScalar at h
  split at h
  · cases h; rfl
  · cases h; rfl
  · cases h; rfl
  · obtain ⟨_, _, h⟩ := Option.bind_eq_some_iff.1 h
    cases h
    rfl
  · obtain ⟨_, _, h⟩ := Option.bind_eq_some_iff.1 h
    obtain ⟨_, _, h⟩ := Option.bind_eq_some_iff.1 h
    cases h
    rfl

section

variable {item : List Char → Option (α × List Char)} {close : Char} {s left : List Char} {items : List α}

theorem exists_of_mem_readItems {bound : Nat} (h : readItems item close bound s = some (items, left)) :
    ∀ a ∈ items, ∃ before behind, item before = some (a, behind) := by
  induction bound generalizing s items left with
  | zero => cases h
  | succ bound ih =>
    rw [readItems] at h
    obtain ⟨⟨first, behind⟩, hfirst, h⟩ := Option.bind_eq_some_iff.1 h
    dsimp only at h
    split at h
    · rename_i c rest _
      split at h
      · cases h
        simpa using ⟨s, behind, hfirst⟩
      split at h
      · obtain ⟨⟨more, _⟩, hmore, h⟩ := Option.bind_eq_some_iff.1 h
        cases h
        exact List.forall_mem_cons.2 ⟨⟨s, behind, hfirst⟩, ih hmore⟩
      · cases h
    · cases h

theorem exists_of_mem_readBracketed (h : readBracketed item close s = some (items, left)) :
    ∀ a ∈ items, ∃ before behind, item before = some (a, behind) := by
  unfold readBracketed at h
  split at h
  · split at h
    · cases h
      simp
    · exact exists_of_mem_readItems h
  · cases h

end

theorem mem_of_mem_put {key : String} {value : Json} {entries : List (String × Json)} :
    ∀ e ∈ put key value entries, e = (key, value) ∨ e ∈ entries := by
  induction entries with
  | nil => simp [put]
  | cons entry rest ih =>
    rw [put]
    split
    · exact List.forall_mem_cons.2 ⟨.inl rfl, fun e he => .inr (List.mem_cons_of_mem _ he)⟩
    · refine List.forall_mem_cons.2 ⟨.inr List.mem_cons_self, fun e he => ?_⟩
      exact (ih e he).imp_right (List.mem_cons_of_mem _)

theorem mem_of_mem_ofEntries {entries : List (String × Json)} : ∀ e ∈ ofEntries entries, e ∈ entries := by
  suffices h : ∀ kept : List (String × Json),
      ∀ e ∈ entries.foldl (fun kept entry => put entry.1 entry.2 kept) kept, e ∈ kept ∨ e ∈ entries by
    intro e he
    exact (h [] e he).resolve_left (List.not_mem_nil)
  induction entries with
  | nil => exact fun kept e he => .inl he
  | cons entry rest ih =>
    intro kept e he
    rcases ih _ e he with he | he
    · rcases mem_of_mem_put e he with rfl | he
      · exact .inr List.mem_cons_self
      · exact .inl he
    · exact .inr (List.mem_cons_of_mem _ he)

/-- What is read is nested no deeper than the reader has levels. -/
theorem depth_le_of_readValue {levels : Nat} {s left : List Char} {v : Json}
    (h : readValue levels s = some (v, left)) : v.depth ≤ levels := by
  induction levels generalizing s left v with
  | zero =>
    rw [readValue] at h
    split at h
    · cases h
    · cases h
    · exact Nat.le_of_eq (depth_of_readScalar h)
  | succ levels ih =>
    rw [readValue] at h
    split at h
    · obtain ⟨⟨items, behind⟩, hitems, h⟩ := Option.bind_eq_some_iff.1 h
      cases h
      refine depth_array_le_iff.2 fun v hv => ?_
      obtain ⟨_, _, hread⟩ := exists_of_mem_readBracketed hitems v hv
      exact ih hread
    · obtain ⟨⟨entries, behind⟩, hentries, h⟩ := Option.bind_eq_some_iff.1 h
      cases h
      refine depth_object_le_iff.2 fun e he => ?_
      obtain ⟨_, _, hread⟩ := exists_of_mem_readBracketed hentries e (mem_of_mem_ofEntries e he)
      obtain ⟨_, _, hread⟩ := Option.bind_eq_some_iff.1 hread
      obtain ⟨_, hvalue, hread⟩ := Option.bind_eq_some_iff.1 hread
      cases hread
      exact ih hvalue
    · exact Nat.le_trans (Nat.le_of_eq (depth_of_readScalar h)) (Nat.zero_le _)

theorem depth_le_of_parse? {s : String} {v : Json} (h : parse? s = some v) : v.depth ≤ maxLevels := by
  unfold parse? at h
  split at h
  · rename_i hread
    split at h
    · cases h
      exact depth_le_of_readValue hread
    · cases h
  · cases h

end TableGraph.Json
