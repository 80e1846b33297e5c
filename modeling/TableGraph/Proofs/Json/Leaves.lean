import Mathlib.Data.List.Basic
import Mathlib.Logic.Relation
import TableGraph.Mapping.Source

/-!
# Leaves of a value

The leaves of a value are what is no array, reached through arrays alone. Each stands at a place, the
numbers of the items on the way down to it, and in the order of places there is no other list of them
(`mem_leaves`, `pairwise_leaves`). The texts of a value are those of its leaves, but for what has none
(`texts_eq`), so they do not depend on where the brackets of arrays are put: brackets can be moved from one
value to another exactly if the two have the same leaves (`rebracketed_iff`).
-/

namespace TableGraph.Json

def isArray : Json → Bool
  | .array _ => true
  | _ => false

/-- The value at a place: the value itself, or what stands at the rest of the place in an item. -/
def at? (v : Json) : List Nat → Option Json
  | [] => some v
  | index :: place =>
    match v with
    | .array items => items[index]?.bind fun item => item.at? place
    | _ => none

/-- A leaf of a value: where it stands, and what it is. -/
structure Leaf where
  place : List Nat
  value : Json
  deriving DecidableEq, Repr

/-- The same leaf where its value is an item of an array. -/
def Leaf.inItem (leaf : Leaf) (index : Nat) : Leaf :=
  { leaf with place := index :: leaf.place }

mutual

def leaves : Json → List Leaf
  | .array items => leavesFrom 0 items
  | v => [⟨[], v⟩]

/-- The leaves of items that are counted from a number on. -/
def leavesFrom (start : Nat) : List Json → List Leaf
  | [] => []
  | item :: rest => (leaves item).map (·.inItem start) ++ leavesFrom (start + 1) rest

end

/-- Whether a value says anything: it is neither null nor the empty string. -/
def hasText (v : Json) : Bool :=
  v ≠ .null && v ≠ .string ""

/-- The text of a value by itself: a string as it is, any other value as it is written. -/
def plainText : Json → String
  | .string s => s
  | v => v.text

/-- What the leaves of a value are, from left to right. -/
def leafValues (v : Json) : List Json :=
  v.leaves.map (·.value)

variable {v w : Json} {items : List Json} {leaf : Leaf}

theorem leaves_of_not_isArray (h : v.isArray = false) : v.leaves = [⟨[], v⟩] := by
  cases v with
  | array => cases h
  | null | bool | number | string | object => rfl

/-! ## Places -/

theorem at?_cons_of_not_isArray (h : v.isArray = false) (index : Nat) (place : List Nat) :
    v.at? (index :: place) = none := by
  cases v with
  | array => cases h
  | null | bool | number | string | object => rfl

theorem mem_leaves_of_not_isArray (h : v.isArray = false) :
    leaf ∈ v.leaves ↔ v.at? leaf.place = some leaf.value ∧ leaf.value.isArray = false := by
  obtain ⟨place, value⟩ := leaf
  rw [leaves_of_not_isArray h, List.mem_singleton, Leaf.mk.injEq]
  cases place with
  | nil =>
    simp only [at?, Option.some.injEq, true_and]
    constructor
    · rintro rfl
      exact ⟨rfl, h⟩
    · exact fun hvalue => hvalue.1.symm
  | cons index place => simp [at?_cons_of_not_isArray h]

mutual

/-- The leaves of a value are what is no array at the places in it. -/
theorem mem_leaves (v : Json) {leaf : Leaf} :
    leaf ∈ v.leaves ↔ v.at? leaf.place = some leaf.value ∧ leaf.value.isArray = false := by
  match v with
  | .array items =>
    obtain ⟨place, value⟩ := leaf
    rw [leaves, mem_leavesFrom]
    cases place with
    | nil =>
      -- an array is no leaf of itself
      simp only [at?, Option.some.injEq]
      constructor
      · rintro ⟨index, below, hplace, -⟩
        cases hplace
      · rintro ⟨rfl, harray⟩
        cases harray
    | cons index place =>
      simp only [at?, Option.bind_eq_some_iff, Nat.zero_add, List.cons.injEq]
      constructor
      · rintro ⟨_, _, ⟨rfl, rfl⟩, hitem, harray⟩
        exact ⟨hitem, harray⟩
      · rintro ⟨hitem, harray⟩
        exact ⟨index, place, ⟨rfl, rfl⟩, hitem, harray⟩
  | .null | .bool _ | .number _ | .string _ | .object _ => exact mem_leaves_of_not_isArray rfl

theorem mem_leavesFrom (start : Nat) (items : List Json) {leaf : Leaf} :
    leaf ∈ leavesFrom start items ↔ ∃ index place, leaf.place = (start + index) :: place ∧
      (∃ item, items[index]? = some item ∧ item.at? place = some leaf.value) ∧
      leaf.value.isArray = false := by
  match items with
  | [] => simp [leavesFrom]
  | item :: rest =>
    rw [leavesFrom, List.mem_append, mem_leavesFrom (start + 1) rest, List.mem_map]
    constructor
    · rintro (⟨inner, hinner, rfl⟩ | ⟨index, place, hplace, hitem, harray⟩)
      · obtain ⟨hat, harray⟩ := (mem_leaves item).1 hinner
        exact ⟨0, inner.place, rfl, ⟨item, rfl, hat⟩, harray⟩
      · refine ⟨index + 1, place, ?_, hitem, harray⟩
        rw [hplace, Nat.add_right_comm, Nat.add_assoc]
    · rintro ⟨_ | index, place, hplace, ⟨found, hfound, hat⟩, harray⟩
      · obtain rfl := Option.some.inj hfound
        obtain ⟨own, value⟩ := leaf
        refine .inl ⟨⟨place, value⟩, (mem_leaves item).2 ⟨hat, harray⟩, ?_⟩
        exact congrArg (Leaf.mk · value) hplace.symm
      · refine .inr ⟨index, place, ?_, ⟨found, hfound, hat⟩, harray⟩
        rw [hplace, Nat.add_right_comm, Nat.add_assoc]

end

mutual

theorem pairwise_leaves (v : Json) : v.leaves.Pairwise fun a b => a.place < b.place := by
  match v with
  | .array items => exact pairwise_leavesFrom 0 items
  | .null | .bool _ | .number _ | .string _ | .object _ => exact List.pairwise_singleton _ _

theorem pairwise_leavesFrom (start : Nat) (items : List Json) :
    (leavesFrom start items).Pairwise fun a b => a.place < b.place := by
  match items with
  | [] => exact .nil
  | item :: rest =>
    rw [leavesFrom, List.pairwise_append, List.pairwise_map]
    refine ⟨(pairwise_leaves item).imp fun hab => ?_, pairwise_leavesFrom (start + 1) rest, ?_⟩
    · exact List.cons_lt_cons_iff.2 (.inr ⟨rfl, hab⟩)
    · intro a ha b hb
      obtain ⟨inner, -, rfl⟩ := List.mem_map.1 ha
      obtain ⟨index, place, hplace, -⟩ := (mem_leavesFrom (start + 1) rest).1 hb
      rw [hplace]
      exact List.cons_lt_cons_iff.2 (.inl (by omega))

end

/-! ## Texts -/

theorem map_value_leavesFrom (start : Nat) (items : List Json) :
    (leavesFrom start items).map (·.value) = items.flatMap leafValues := by
  induction items generalizing start with
  | nil => rfl
  | cons item rest ih =>
    rw [leavesFrom, List.map_append, List.map_map, ih, List.flatMap_cons]
    rfl

theorem leafValues_array (items : List Json) : (array items).leafValues = items.flatMap leafValues :=
  map_value_leavesFrom 0 items

theorem texts_of_not_isArray (h : v.isArray = false) : v.texts = ([v].filter hasText).map plainText := by
  cases v with
  | array => cases h
  | null => rfl
  | bool b => cases b <;> rfl
  | number n =>
    have htext : text (.number n) = n.text := String.ofList_toList
    rw [texts, ← htext]
    rfl
  | string s =>
    by_cases hs : s = ""
    · subst hs
      rfl
    · simp [texts, hasText, plainText, hs]
  | object entries => rfl

mutual

theorem texts_eq (v : Json) : v.texts = (v.leafValues.filter hasText).map plainText := by
  match v with
  | .array items =>
    rw [leafValues_array]
    exact textsOfItems_eq items
  | .null | .bool _ | .number _ | .string _ | .object _ => exact texts_of_not_isArray rfl

theorem textsOfItems_eq (items : List Json) :
    textsOfItems items = ((items.flatMap leafValues).filter hasText).map plainText := by
  match items with
  | [] => rfl
  | item :: rest =>
    rw [textsOfItems, List.flatMap_cons, List.filter_append, List.map_append, texts_eq item,
      textsOfItems_eq rest]

end

/-! ## Empty texts -/

theorem toString_int_ne_empty (n : Int) : toString n ≠ "" := by
  cases n with
  | ofNat m =>
    change m.repr ≠ ""
    rw [Nat.repr_eq_ofList_toDigits, Ne, String.ofList_eq_empty_iff]
    exact Nat.toDigits_ne_nil
  | negSucc m =>
    change "-" ++ (m + 1).repr ≠ ""
    simp

theorem text_binary64_ne_empty (x : Binary64) : x.text ≠ "" := by
  unfold Binary64.text
  dsimp only
  split
  · simp
  · rw [Ne, String.ofList_eq_empty_iff, List.append_eq_nil_iff]
    rintro ⟨-, hbody⟩
    split at hbody
    · unfold Binary64.positional at hbody
      split at hbody <;> simp at hbody
    · simp [Binary64.scientific] at hbody

theorem text_number_ne_empty (n : Number) : n.text ≠ "" := by
  cases n with
  | int n => exact toString_int_ne_empty n
  | float x => exact text_binary64_ne_empty x

theorem text_ne_empty (v : Json) : v.text ≠ "" := by
  rw [text, Ne, String.ofList_eq_empty_iff]
  match v with
  | .null | .bool true | .bool false => simp [chars]
  | .number n =>
    rw [chars, String.toList_eq_nil_iff]
    exact text_number_ne_empty n
  | .string _ | .array _ | .object _ => simp [chars, quote]

theorem plainText_ne_empty (h : v.hasText = true) : v.plainText ≠ "" := by
  cases v with
  | string s =>
    rintro rfl
    simp [hasText] at h
  | null | bool | number | array | object => exact text_ne_empty _

theorem empty_notMem_texts (v : Json) : "" ∉ v.texts := by
  rw [texts_eq, List.mem_map]
  rintro ⟨leaf, hleaf, hempty⟩
  exact plainText_ne_empty (List.mem_filter.1 hleaf).2 hempty

/-! ## Brackets -/

/-- The brackets of an array are put around some items in a row, be it at the top or in an item. -/
inductive Brackets : List Json → List Json → Prop
  | around (before inner after : List Json) :
      Brackets (before ++ inner ++ after) (before ++ .array inner :: after)
  | inside (before after : List Json) {inner other : List Json} (h : Brackets inner other) :
      Brackets (before ++ .array inner :: after) (before ++ .array other :: after)

/-- Items become others by putting brackets of arrays and taking them off. -/
abbrev Regrouped : List Json → List Json → Prop :=
  Relation.EqvGen Brackets

/-- A value becomes another by putting brackets of arrays and taking them off. -/
def Rebracketed (v w : Json) : Prop :=
  Regrouped [v] [w]

theorem Brackets.leafValues {items others : List Json} (h : Brackets items others) :
    items.flatMap leafValues = others.flatMap leafValues := by
  induction h with
  | around before inner after => simp [leafValues_array]
  | inside before after _ ih => simp [leafValues_array, ih]

theorem Regrouped.leafValues {items others : List Json} (h : Regrouped items others) :
    items.flatMap leafValues = others.flatMap leafValues := by
  induction h with
  | rel _ _ h => exact h.leafValues
  | refl => rfl
  | symm _ _ _ ih => exact ih.symm
  | trans _ _ _ _ _ ih ih' => exact ih.trans ih'

theorem Brackets.append {items others : List Json} (h : Brackets items others) (before after : List Json) :
    Brackets (before ++ items ++ after) (before ++ others ++ after) := by
  cases h with
  | around first inner last =>
    have haround := Brackets.around (before ++ first) inner (last ++ after)
    simpa using haround
  | inside first last h =>
    have hinside := Brackets.inside (before ++ first) (last ++ after) h
    simpa using hinside

theorem Regrouped.append {items others : List Json} (h : Regrouped items others)
    (before after : List Json) : Regrouped (before ++ items ++ after) (before ++ others ++ after) := by
  induction h with
  | rel _ _ h => exact .rel _ _ (h.append before after)
  | refl => exact .refl _
  | symm _ _ _ ih => exact .symm _ _ ih
  | trans _ _ _ _ _ ih ih' => exact .trans _ _ _ ih ih'

mutual

theorem regrouped_leafValues (v : Json) : Regrouped [v] v.leafValues := by
  match v with
  | .array items =>
    have haround := Brackets.around [] items []
    rw [List.nil_append, List.append_nil, List.nil_append] at haround
    rw [leafValues_array]
    exact .trans _ _ _ (.symm _ _ (.rel _ _ haround)) (regrouped_flatMap items)
  | .null | .bool _ | .number _ | .string _ | .object _ => exact .refl _

theorem regrouped_flatMap (items : List Json) : Regrouped items (items.flatMap leafValues) := by
  match items with
  | [] => exact .refl _
  | item :: rest =>
    have hitem := (regrouped_leafValues item).append [] rest
    have hrest := (regrouped_flatMap rest).append item.leafValues []
    rw [List.append_nil, List.append_nil] at hrest
    exact .trans _ _ _ hitem hrest

end

/-- The brackets of arrays can be moved from one value to another exactly if the values have the same
leaves. -/
theorem rebracketed_iff : v.Rebracketed w ↔ v.leafValues = w.leafValues := by
  constructor
  · intro h
    simpa using h.leafValues
  · intro h
    have hw := regrouped_leafValues w
    rw [← h] at hw
    exact .trans _ _ _ (regrouped_leafValues v) (.symm _ _ hw)

theorem Rebracketed.texts (h : v.Rebracketed w) : w.texts = v.texts := by
  rw [texts_eq, texts_eq, rebracketed_iff.1 h]

end TableGraph.Json
