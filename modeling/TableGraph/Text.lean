import TableGraph.Unicode.Category

/-!
# Text

The few operations on text that the rest of the library shares: taking out blank and format
characters, trimming white space, writing a run of characters as one underscore, and measuring text in
bytes. Each is a function on the list of characters, with a `String` wrapper where a caller wants one.
-/

namespace TableGraph.Text

open Unicode (isBlankFormat isWhiteSpace)

/-! ## Removing characters -/

/-- Text without its blank and format characters, wherever they stand. -/
def stripSpace (s : String) : String :=
  String.ofList (s.toList.filter fun c => !isBlankFormat c)

@[simp] theorem toList_stripSpace (s : String) :
    (stripSpace s).toList = s.toList.filter fun c => !isBlankFormat c := by
  simp [stripSpace]

/-- Drop the longest run of characters with `p` at the end. -/
def dropEndWhile (p : Char → Bool) (s : List Char) : List Char :=
  (s.reverse.dropWhile p).reverse

theorem exists_dropEndWhile_append (p : Char → Bool) (s : List Char) :
    ∃ dropped, (∀ c ∈ dropped, p c) ∧ dropEndWhile p s ++ dropped = s := by
  refine ⟨(s.reverse.takeWhile p).reverse, ?_, ?_⟩
  · intro c hc
    exact List.all_eq_true.1 List.all_takeWhile c (List.mem_reverse.1 hc)
  · rw [dropEndWhile, ← List.reverse_append, List.takeWhile_append_dropWhile, List.reverse_reverse]

def trimStart (s : String) : String :=
  String.ofList (s.toList.dropWhile isWhiteSpace)

/-- Text without white space at either end. -/
def trim (s : String) : String :=
  String.ofList (dropEndWhile isWhiteSpace (s.toList.dropWhile isWhiteSpace))

/-- Text without white space at either end, if anything is left. -/
def trimmed? (s : String) : Option String :=
  let t := trim s
  if t.isEmpty then none else some t

/-! ## Runs -/

/-- Write each run of characters with `p` as one underscore. `inside` says that the text goes on in
the middle of a run, whose underscore stands already. -/
def underscoreRunsFrom (p : Char → Bool) (inside : Bool) : List Char → List Char
  | [] => []
  | c :: rest =>
    if p c then
      if inside then underscoreRunsFrom p true rest else '_' :: underscoreRunsFrom p true rest
    else c :: underscoreRunsFrom p false rest

/-- Write each run of characters with `p` as one underscore. -/
def underscoreRuns (p : Char → Bool) (s : List Char) : List Char :=
  underscoreRunsFrom p false s

/-- Write several underscores in a row as one. -/
def collapseUnderscores (s : List Char) : List Char :=
  underscoreRuns (· == '_') s

/-! ## Digits -/

/-- The value of a hexadecimal digit, in either case. -/
def hexValue? (c : Char) : Option Nat :=
  let n := c.toNat
  if '0' ≤ c && c ≤ '9' then some (n - '0'.toNat)
  else if 'a' ≤ c && c ≤ 'f' then some (n - 'a'.toNat + 10)
  else if 'A' ≤ c && c ≤ 'F' then some (n - 'A'.toNat + 10)
  else none

/-! ## Measures -/

def byteLength : List Char → Nat
  | [] => 0
  | c :: rest => c.utf8Size + byteLength rest

/-- The text before and after the first occurrence of a character, if it occurs. -/
def cutAt (sep : Char) : List Char → Option (List Char × List Char)
  | [] => none
  | c :: rest =>
    if c = sep then some ([], rest)
    else (cutAt sep rest).map fun (before, after) => (c :: before, after)

theorem cutAt_eq_some_iff {sep : Char} {s before after : List Char} :
    cutAt sep s = some (before, after) ↔ sep ∉ before ∧ before ++ sep :: after = s := by
  induction s generalizing before with
  | nil => simp [cutAt]
  | cons c rest ih =>
    by_cases hc : c = sep
    · subst hc
      cases before with
      | nil => simp [cutAt, eq_comm]
      | cons d before => simp +contextual [cutAt, eq_comm]
    · have hc' : ¬ sep = c := fun h => hc h.symm
      cases before with
      | nil => simp [cutAt, hc, hc']
      | cons d before =>
        simp only [cutAt, if_neg hc, Option.map_eq_some_iff, Prod.exists, Prod.mk.injEq,
          List.cons_append, List.cons.injEq, List.mem_cons, not_or]
        constructor
        · rintro ⟨a, b, hab, ⟨rfl, rfl⟩, rfl⟩
          exact ⟨⟨hc', (ih.1 hab).1⟩, rfl, (ih.1 hab).2⟩
        · rintro ⟨⟨-, hb⟩, rfl, h⟩
          exact ⟨before, after, ih.2 ⟨hb, h⟩, ⟨rfl, rfl⟩, rfl⟩

theorem cutAt_eq_none_iff {sep : Char} {s : List Char} : cutAt sep s = none ↔ sep ∉ s := by
  induction s with
  | nil => simp [cutAt]
  | cons c rest ih =>
    by_cases hc : c = sep
    · simp [cutAt, hc]
    · simp [cutAt, hc, ih, show ¬ sep = c from fun h => hc h.symm]

/-- The pieces between the occurrences of a separator; one more than it occurs. -/
def pieces (sep : Char) : List Char → List (List Char)
  | [] => [[]]
  | c :: rest =>
    if c = sep then [] :: pieces sep rest
    else
      match pieces sep rest with
      | piece :: more => (c :: piece) :: more
      | [] => [[c]]

end TableGraph.Text
