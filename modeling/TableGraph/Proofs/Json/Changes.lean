import TableGraph.Proofs.Document.Codec

/-!
# Changing what is in a value

A field is changed where it is read, under its key in an object and at its place in an array
(`fields?_modifyField`), and what it holds is read as if it had been changed after the fact. Of a list of
items those are kept that something reads, once they were changed, as what it read before
(`mapM_filterMap_keep?`).
-/

namespace TableGraph.Json

/-- Change what a field holds, if it is there. -/
def modifyField (names : List String) (name : String) (f : Json → Json) : Json → Json
  | .object entries =>
    .object (entries.map fun entry => if entry.1 = name then (name, f entry.2) else entry)
  | .array items => .array (items.modify (names.idxOf name) f)
  | v => v

/-- Change or drop each item of an array. -/
def filterMapItems (g : Json → Option Json) : Json → Json
  | .array items => .array (items.filterMap g)
  | v => v

/-- Drop entries of an object. -/
def filterEntries (p : String × Json → Bool) : Json → Json
  | .object entries => .object (entries.filter p)
  | v => v

/-- A value with a change, if it is read as something of use. -/
def keep? (read : Json → Option α) (isUsable : α → Bool) (change : Json → Json) (v : Json) :
    Option Json :=
  ((read v).filter isUsable).map fun _ => change v

section

variable {read : Json → Option α} {isUsable : α → Bool} (change : Json → Json) {v : Json} {a : α}

theorem keep?_of_usable (hread : read v = some a) (h : isUsable a = true) :
    keep? read isUsable change v = some (change v) := by
  simp [keep?, hread, h]

theorem keep?_of_unusable (hread : read v = some a) (h : isUsable a = false) :
    keep? read isUsable change v = none := by
  simp [keep?, hread, h]

end

/-! ## Fields -/

theorem find?_modify (key name : String) (f : Json → Json) (entries : List (String × Json)) :
    find? key (entries.map fun entry => if entry.1 = name then (name, f entry.2) else entry) =
      if key = name then (find? key entries).map f else find? key entries := by
  induction entries with
  | nil => simp
  | cons entry rest ih =>
    obtain ⟨k, v⟩ := entry
    rw [List.map_cons, find?_cons]
    by_cases hk : k = name
    · subst hk
      rw [if_pos rfl, find?_cons, ih]
      by_cases hkey : k = key
      · simp [hkey]
      · simp [hkey]
    · rw [if_neg hk, find?_cons, ih]
      by_cases hkey : k = key
      · subst hkey
        simp [hk]
      · simp [hkey]

theorem fields?_modifyField {names : List String} (hnodup : names.Nodup) (name : String)
    (f : Json → Json) (v : Json) :
    fields? names (v.modifyField names name f) =
      (fields? names v).map fun values => values.modify (names.idxOf name) (Option.map f) := by
  cases v with
  | object entries =>
    refine congrArg some (List.ext_getElem? fun i => ?_)
    rw [List.getElem?_modify, List.getElem?_map, List.getElem?_map]
    cases hi : names[i]? with
    | none => rfl
    | some key =>
      obtain ⟨hlt, rfl⟩ := List.getElem?_eq_some_iff.1 hi
      have hplace : names.idxOf name = i ↔ names[i] = name := by
        constructor
        · rintro rfl
          exact List.getElem_idxOf hlt
        · rintro rfl
          exact hnodup.idxOf_getElem i hlt
      simp only [Option.map_some, find?_modify, hplace]
      by_cases hname : names[i] = name <;> simp [hname]
  | array items =>
    simp only [modifyField, fields?, List.length_modify]
    split
    · refine congrArg some (List.ext_getElem? fun i => ?_)
      rw [List.getElem?_modify]
      by_cases hi : i < items.length
      · rw [List.getElem?_append_left (by simpa using hi), List.getElem?_append_left (by simpa using hi)]
        by_cases hplace : names.idxOf name = i <;> simp [hplace, hi]
      · rw [List.getElem?_append_right (by simpa using hi), List.getElem?_append_right (by simpa using hi)]
        simp only [List.length_map, List.length_modify, List.getElem?_replicate]
        split <;> simp
    · rfl
  | null | bool | number | string => rfl

theorem depth_lt_of_fields? {names : List String} {v w : Json} {values : List (Option Json)}
    (h : fields? names v = some values) (hw : some w ∈ values) : w.depth < v.depth := by
  cases v with
  | object entries =>
    obtain rfl := Option.some.inj h
    obtain ⟨name, -, hfind⟩ := List.mem_map.1 hw
    obtain ⟨entry, hentry, rfl⟩ := Option.map_eq_some_iff.1 hfind
    have hle := depth_le_depthOfEntries (List.mem_of_find?_eq_some hentry)
    rw [depth]
    omega
  | array items =>
    simp only [fields?] at h
    split at h
    · obtain rfl := Option.some.inj h
      have hitem : w ∈ items := by simpa [List.mem_replicate] using hw
      have hle := depth_le_depthOfItems hitem
      rw [depth]
      omega
    · cases h
  | null | bool | number | string => cases h

theorem optional_filterEntries (p : String × Json → Bool) (field : Option Json) :
    optional entries? (field.map (filterEntries p)) =
      (optional entries? field).map (Option.map (List.filter p)) := by
  rcases field with _ | v
  · rfl
  · cases v <;> rfl

theorem optional_filterMapItems (g : Json → Option Json) (field : Option Json) :
    optional items? (field.map (filterMapItems g)) =
      (optional items? field).map (Option.map (List.filterMap g)) := by
  rcases field with _ | v
  · rfl
  · cases v <;> rfl

/-! ## Lists -/

section

variable {read : Json → Option α} (isUsable : α → Bool) (change : Json → Json) (value : α → List β)
  (P : α → Prop) (hunusable : ∀ a, isUsable a = false → value a = [])
  (hchange : ∀ item a, read item = some a → isUsable a = true →
    ∃ b, read (change item) = some b ∧ value b = value a ∧ P b)

include hunusable hchange

/-- The items that are kept are read as before, so far as their value goes. -/
theorem mapM_filterMap_keep? {items : List Json} {l : List α} (h : items.mapM read = some l) :
    ∃ kept, (items.filterMap (keep? read isUsable change)).mapM read = some kept ∧
      kept.flatMap value = l.flatMap value ∧ ∀ a ∈ kept, P a := by
  induction items generalizing l with
  | nil =>
    obtain rfl : [] = l := by simpa using h
    exact ⟨[], rfl, rfl, by simp⟩
  | cons item rest ih =>
    rw [List.mapM_cons] at h
    obtain ⟨a, ha, h⟩ := Option.bind_eq_some_iff.1 h
    obtain ⟨more, hmore, h⟩ := Option.bind_eq_some_iff.1 h
    obtain rfl := Option.some.inj h
    obtain ⟨kept, hkept, hvalue, hP⟩ := ih hmore
    cases husable : isUsable a with
    | false =>
      rw [List.filterMap_cons_none (keep?_of_unusable change ha husable)]
      refine ⟨kept, hkept, ?_, hP⟩
      rw [List.flatMap_cons, hunusable a husable, hvalue, List.nil_append]
    | true =>
      obtain ⟨b, hb, hsame, hPb⟩ := hchange item a ha husable
      rw [List.filterMap_cons_some (keep?_of_usable change ha husable)]
      refine ⟨b :: kept, ?_, ?_, ?_⟩
      · rw [List.mapM_cons, hb, hkept]
        rfl
      · rw [List.flatMap_cons, List.flatMap_cons, hsame, hvalue]
      · exact List.forall_mem_cons.2 ⟨hPb, hP⟩

theorem withDefault_filterMapItems {field : Option Json} {l : List α}
    (h : withDefault [] (list? read) field = some l) :
    ∃ kept, withDefault [] (list? read) (field.map (filterMapItems (keep? read isUsable change))) =
        some kept ∧
      kept.flatMap value = l.flatMap value ∧ ∀ a ∈ kept, P a := by
  cases field with
  | none =>
    obtain rfl := Option.some.inj h
    exact ⟨[], rfl, rfl, by simp⟩
  | some v =>
    obtain ⟨items, hitems, hread⟩ := Option.bind_eq_some_iff.1 h
    cases v with
    | array own =>
      obtain rfl := Option.some.inj hitems
      exact mapM_filterMap_keep? isUsable change value P hunusable hchange hread
    | null | bool | number | string | object => cases hitems

end

end TableGraph.Json
