import TableGraph.Json.Writer
import TableGraph.Proofs.Json.Nesting

/-!
# Reading what was written

A value of strings, in arrays and in objects whose keys are different, is read back from its text by a
reader with as many levels as it is nested (`parse?_text`). Each reading function takes from the front of a
text what the writing one put there, whatever follows: a character of a string (`readString_escape`), the
items in brackets (`readBracketed_joined`), and by induction on the value all of it (`readValue_chars`).
-/

namespace TableGraph.Json

variable {rest : List Char}

/-! ## Strings -/

def withFirst (c : Char) (read : Option (List Char × List Char)) : Option (List Char × List Char) :=
  read.map fun (s, left) => (c :: s, left)

theorem readString_plain {c : Char} (hquote : c ≠ '"') (hbackslash : c ≠ '\\') (hcontrol : ¬ c.toNat < 32) :
    readString (c :: rest) = withFirst c (readString rest) := by
  rw [readString.eq_def]
  split
  · simp_all
  · simp_all
  · simp_all
  · simp_all
  · rename_i heq
    obtain ⟨rfl, rfl⟩ := List.cons.inj heq
    rw [if_neg (by simp [hbackslash, hcontrol])]
    cases readString rest <;> rfl

theorem readString_unescape {c d : Char} (h : unescape? d = some c) :
    readString ('\\' :: d :: rest) = withFirst c (readString rest) := by
  rw [readString.eq_def]
  split
  · simp_all
  · simp_all
  · rename_i heq
    obtain ⟨-, heq⟩ := List.cons.inj heq
    obtain ⟨rfl, -⟩ := List.cons.inj heq
    cases h
  · rename_i heq
    obtain ⟨-, heq⟩ := List.cons.inj heq
    obtain ⟨rfl, rfl⟩ := List.cons.inj heq
    rw [h]
    cases readString rest <;> rfl
  · rename_i hnot heq
    obtain ⟨rfl, rfl⟩ := List.cons.inj heq
    exact absurd rfl (hnot _ _ rfl)

theorem hexValue4?_hexDigit : ∀ n < 32,
    hexValue4? '0' '0' (hexDigit (n / 16)) (hexDigit (n % 16)) = some n := by
  decide +kernel

theorem readString_control {c : Char} (h : c.toNat < 32) :
    readString ('\\' :: 'u' :: '0' :: '0' :: hexDigit (c.toNat / 16) :: hexDigit (c.toNat % 16) :: rest) =
      withFirst c (readString rest) := by
  have hnoPair : (decide (0xD800 ≤ c.toNat) && decide (c.toNat < 0xE000)) = false := by
    rw [Bool.and_eq_false_iff, decide_eq_false_iff_not]
    omega
  rw [readString, hexValue4?_hexDigit _ h]
  simp only [Option.bind_eq_bind, Option.bind_some, hnoPair, Bool.false_eq_true, if_false, Char.ofNat_toNat]
  cases readString rest <;> rfl

theorem readString_escape (c : Char) (rest : List Char) :
    readString (escape c ++ rest) = withFirst c (readString rest) := by
  have hshort (d e : Char) (h : unescape? e = some d) (hc : c = d) :
      readString ('\\' :: e :: rest) = withFirst c (readString rest) :=
    hc ▸ readString_unescape h
  unfold escape
  split
  · exact hshort '"' '"' rfl ‹_›
  split
  · exact hshort '\\' '\\' rfl ‹_›
  split
  · exact hshort '\n' 'n' rfl ‹_›
  split
  · exact hshort '\r' 'r' rfl ‹_›
  split
  · exact hshort '\t' 't' rfl ‹_›
  split
  · exact hshort '\x08' 'b' rfl (Char.toNat_inj.1 ‹_›)
  split
  · exact hshort '\x0c' 'f' rfl (Char.toNat_inj.1 ‹_›)
  split
  · exact readString_control ‹_›
  · exact readString_plain ‹_› ‹_› ‹_›

theorem readString_append (s rest : List Char) :
    readString (s.flatMap escape ++ '"' :: rest) = some (s, rest) := by
  induction s with
  | nil => simp [readString]
  | cons c s ih =>
    rw [List.flatMap_cons, List.append_assoc, readString_escape, ih]
    rfl

/-! ## Items -/

theorem skipSpace_cons {c : Char} (h : isSpace c = false) : skipSpace (c :: rest) = c :: rest :=
  List.dropWhile_cons_of_neg (by simp [h])

def joined : List (List Char) → List Char
  | [] => []
  | [text] => text
  | text :: more => text ++ ',' :: joined more

theorem joined_cons (text next : List Char) (more : List (List Char)) :
    joined (text :: next :: more) = text ++ ',' :: joined (next :: more) := rfl

theorem exists_joined_cons (text : List Char) (more : List (List Char)) :
    ∃ behind, joined (text :: more) = text ++ behind := by
  cases more with
  | nil => exact ⟨[], (List.append_nil text).symm⟩
  | cons next more => exact ⟨_, joined_cons text next more⟩

theorem length_le_joined (texts : List (List Char)) : texts.length ≤ (joined texts).length + 1 := by
  induction texts with
  | nil => exact Nat.zero_le _
  | cons text more ih =>
    cases more with
    | nil => exact Nat.succ_le_succ (Nat.zero_le _)
    | cons next more =>
      rw [joined_cons, List.length_append, List.length_cons (a := text), List.length_cons (a := ',')]
      omega

theorem charsOfItems_eq (items : List Json) : charsOfItems items = joined (items.map chars) := by
  induction items with
  | nil => rfl
  | cons item rest ih =>
    cases rest with
    | nil => rfl
    | cons next rest =>
      rw [List.map_cons, List.map_cons, joined_cons, ← List.map_cons, ← ih]
      rfl

def entryChars (entry : String × Json) : List Char :=
  quote entry.1.toList ++ ':' :: chars entry.2

theorem charsOfEntries_eq (entries : List (String × Json)) :
    charsOfEntries entries = joined (entries.map entryChars) := by
  induction entries with
  | nil => rfl
  | cons entry rest ih =>
    cases rest with
    | nil => rfl
    | cons next rest =>
      rw [List.map_cons, List.map_cons, joined_cons, ← List.map_cons, ← ih, entryChars, List.append_assoc]
      rfl

section

variable {item : List Char → Option (α × List Char)} {write : α → List Char} {close : Char} {l : List α}
  (hitem : ∀ a ∈ l, ∀ rest, item (write a ++ rest) = some (a, rest))
  (hclose : isSpace close = false) (hcomma : close ≠ ',')

include hitem hclose hcomma

theorem readItems_joined (hne : l ≠ []) {bound : Nat} (hbound : l.length ≤ bound) (rest : List Char) :
    readItems item close bound (joined (l.map write) ++ close :: rest) = some (l, rest) := by
  induction l generalizing bound with
  | nil => exact absurd rfl hne
  | cons a more ih =>
    obtain ⟨bound, rfl⟩ : ∃ k, bound = k + 1 := ⟨bound - 1, by simp at hbound; omega⟩
    obtain ⟨hfirst, hmore⟩ := List.forall_mem_cons.1 hitem
    cases more with
    | nil =>
      rw [List.map_cons, List.map_nil, joined, readItems, hfirst]
      simp [skipSpace_cons hclose]
    | cons b more =>
      have hspace : isSpace ',' = false := rfl
      have hrest := ih hmore (List.cons_ne_nil b more) (by simpa using hbound)
      rw [List.map_cons] at hrest
      rw [List.map_cons, List.map_cons, joined_cons, List.append_assoc, readItems, hfirst]
      simp only [Option.bind_eq_bind, Option.bind_some, List.cons_append, skipSpace_cons hspace,
        if_neg hcomma.symm, if_true, hrest]
      rfl

theorem readBracketed_joined
    (hstart : ∀ a ∈ l, ∃ c more, write a = c :: more ∧ isSpace c = false ∧ c ≠ close) (rest : List Char) :
    readBracketed item close (joined (l.map write) ++ close :: rest) = some (l, rest) := by
  by_cases hne : l = []
  · subst hne
    simp [joined, readBracketed, skipSpace_cons hclose]
  · have hlength : l.length ≤ (joined (l.map write) ++ close :: rest).length := by
      have hle := length_le_joined (l.map write)
      rw [List.length_map] at hle
      rw [List.length_append, List.length_cons]
      omega
    have hread := readItems_joined hitem hclose hcomma hne hlength rest
    obtain ⟨c, more, hchars, hspace, hc⟩ :
        ∃ c more, joined (l.map write) ++ close :: rest = c :: more ∧ isSpace c = false ∧ c ≠ close := by
      obtain ⟨a, others, rfl⟩ := List.exists_cons_of_ne_nil hne
      obtain ⟨c, more, hwrite, hspace, hc⟩ := hstart a List.mem_cons_self
      obtain ⟨behind, hbehind⟩ := exists_joined_cons (write a) (others.map write)
      refine ⟨c, more ++ behind ++ close :: rest, ?_, hspace, hc⟩
      rw [List.map_cons, hbehind, hwrite]
      simp
    rw [hchars] at hread ⊢
    rw [readBracketed, skipSpace_cons hspace]
    simp only [if_neg hc, hread]

end

/-! ## Values -/

/-- A value of strings, in arrays and in objects with different keys. -/
inductive IsTextual : Json → Prop
  | string (s : String) : IsTextual (.string s)
  | array {items : List Json} : (∀ v ∈ items, IsTextual v) → IsTextual (.array items)
  | object {entries : List (String × Json)} :
    (entries.map (·.1)).Nodup → (∀ e ∈ entries, IsTextual e.2) → IsTextual (.object entries)

theorem put_of_notMem {key : String} {value : Json} {entries : List (String × Json)}
    (h : key ∉ entries.map (·.1)) : put key value entries = entries ++ [(key, value)] := by
  induction entries with
  | nil => rfl
  | cons entry rest ih =>
    rw [List.map_cons, List.mem_cons, not_or] at h
    rw [put, if_neg (Ne.symm h.1), ih h.2, List.cons_append]

theorem ofEntries_eq_self {entries : List (String × Json)} (h : (entries.map (·.1)).Nodup) :
    ofEntries entries = entries := by
  suffices hfold : ∀ kept : List (String × Json), ((kept ++ entries).map (·.1)).Nodup →
      entries.foldl (fun kept entry => put entry.1 entry.2 kept) kept = kept ++ entries from hfold [] h
  induction entries with
  | nil => exact fun kept _ => (List.append_nil kept).symm
  | cons entry rest ih =>
    intro kept hkept
    have hnew : entry.1 ∉ kept.map (·.1) := by
      intro hmem
      rw [List.map_append, List.nodup_append] at hkept
      exact hkept.2.2 _ hmem _ (by simp) rfl
    rw [List.foldl_cons, put_of_notMem hnew, ih (List.nodup_cons.1 h).2 _ (by simpa using hkept)]
    simp

theorem readString_quote (s rest : List Char) :
    ∃ behind, quote s ++ rest = '"' :: behind ∧ readString behind = some (s, rest) := by
  refine ⟨s.flatMap escape ++ '"' :: rest, ?_, readString_append s rest⟩
  simp [quote]

theorem readEntry_entryChars {value : List Char → Option (Json × List Char)} {entry : String × Json}
    (hvalue : ∀ rest, value (chars entry.2 ++ rest) = some (entry.2, rest)) (rest : List Char) :
    readEntry value (entryChars entry ++ rest) = some (entry, rest) := by
  obtain ⟨key, v⟩ := entry
  obtain ⟨behind, hquote, hread⟩ := readString_quote key.toList (':' :: (chars v ++ rest))
  have htext : entryChars (key, v) ++ rest = '"' :: behind := by
    rw [← hquote]
    simp [entryChars]
  have hmark : isSpace '"' = false := rfl
  have hcolon : isSpace ':' = false := rfl
  rw [htext, readEntry, readKey, skipSpace_cons hmark]
  simp only [Option.bind_eq_bind, hread, Option.bind_some, skipSpace_cons hcolon, String.ofList_toList]
  rw [Option.pure_def, Option.bind_some, hvalue rest]
  rfl

theorem readScalar_string (s : String) (rest : List Char) :
    readScalar (chars (.string s) ++ rest) = some (.string s, rest) := by
  obtain ⟨behind, hquote, hread⟩ := readString_quote s.toList rest
  rw [chars, hquote, readScalar, hread]
  simp

theorem exists_chars_eq_cons {v : Json} (h : IsTextual v) :
    ∃ c more, chars v = c :: more ∧ isSpace c = false ∧ c ≠ ']' := by
  cases h with
  | string s => exact ⟨'"', _, rfl, rfl, by decide⟩
  | array => exact ⟨'[', _, rfl, rfl, by decide⟩
  | object => exact ⟨'\x7b', _, rfl, rfl, by decide⟩

/-- A textual value is read again by a reader with levels enough, whatever stands behind it. -/
theorem readValue_chars {v : Json} (h : IsTextual v) {levels : Nat} (hdepth : v.depth ≤ levels)
    (rest : List Char) : readValue levels (chars v ++ rest) = some (v, rest) := by
  induction h generalizing levels rest with
  | string s =>
    obtain ⟨behind, hquote, -⟩ := readString_quote s.toList rest
    have hmark : isSpace '"' = false := rfl
    have hscalar := readScalar_string s rest
    rw [chars, hquote] at hscalar ⊢
    cases levels <;>
      · rw [readValue, skipSpace_cons hmark]
        exact hscalar
  | @array items hitems ih =>
    obtain ⟨levels, rfl⟩ : ∃ k, levels = k + 1 := ⟨levels - 1, by rw [depth] at hdepth; omega⟩
    rw [depth_array_le_iff] at hdepth
    have hread : readBracketed (readValue levels) ']' (charsOfItems items ++ ']' :: rest) =
        some (items, rest) := by
      rw [charsOfItems_eq]
      exact readBracketed_joined (fun v hv => ih v hv (hdepth v hv)) rfl (by decide)
        (fun v hv => exists_chars_eq_cons (hitems v hv)) rest
    have hopen : isSpace '[' = false := rfl
    rw [chars, List.cons_append, List.cons_append, List.append_assoc, readValue, skipSpace_cons hopen]
    simp only [List.singleton_append, hread]
    rfl
  | @object entries hkeys hentries ih =>
    obtain ⟨levels, rfl⟩ : ∃ k, levels = k + 1 := ⟨levels - 1, by rw [depth] at hdepth; omega⟩
    rw [depth_object_le_iff] at hdepth
    have hread : readBracketed (readEntry (readValue levels)) '\x7d'
        (charsOfEntries entries ++ '\x7d' :: rest) = some (entries, rest) := by
      rw [charsOfEntries_eq]
      exact readBracketed_joined (fun e he => readEntry_entryChars (ih e he (hdepth e he))) rfl (by decide)
        (fun e _ => ⟨'"', _, rfl, rfl, by decide⟩) rest
    have hopen : isSpace '\x7b' = false := rfl
    rw [chars, List.cons_append, List.cons_append, List.append_assoc, readValue, skipSpace_cons hopen]
    simp only [List.singleton_append, hread, Option.bind_eq_bind, Option.bind_some, ofEntries_eq_self hkeys]
    rfl

theorem parse?_text {v : Json} (h : IsTextual v) (hdepth : v.depth ≤ maxLevels) :
    parse? v.text = some v := by
  have hread := readValue_chars h hdepth []
  rw [List.append_nil] at hread
  rw [parse?, text, String.toList_ofList, hread]
  rfl

end TableGraph.Json
