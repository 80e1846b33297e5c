import TableGraph.Unicode.Ranges

/-!
# Classes of characters

Every character has one `Category`, found in the tables of `Unicode.Ranges`; a character of no table
is `other`. Two sets are built on it: the characters that take up room without showing
(`isBlankFormat`) and, apart from it, the characters of the `White_Space` property.
-/

namespace TableGraph.Unicode

/-- The classes of characters that the handling of text tells apart. -/
inductive Category
  | letter
  | number
  | separator
  /-- Control, format, private-use and unassigned characters. -/
  | control
  /-- Marks, punctuation and symbols. -/
  | other
  deriving DecidableEq, Repr

/-- Whether a code point lies in one of the ranges of an ascending table. -/
def inRanges (n : Nat) : List (Nat × Nat) → Bool
  | [] => false
  | (lo, hi) :: rest => if n < lo then false else if n ≤ hi then true else inRanges n rest

def category (c : Char) : Category :=
  if inRanges c.toNat letterRanges then .letter
  else if inRanges c.toNat numberRanges then .number
  else if inRanges c.toNat separatorRanges then .separator
  else if inRanges c.toNat controlRanges then .control
  else .other

theorem exists_range_of_inRanges {n : Nat} {table : List (Nat × Nat)} (h : inRanges n table = true) :
    ∃ r ∈ table, r.1 ≤ n ∧ n ≤ r.2 := by
  induction table with
  | nil => simp [inRanges] at h
  | cons r rest ih =>
    obtain ⟨lo, hi⟩ := r
    simp only [inRanges] at h
    split at h
    · simp at h
    · split at h
      · exact ⟨(lo, hi), by simp, by simp; omega⟩
      · obtain ⟨r, hr, hle⟩ := ih h
        exact ⟨r, by simp [hr], hle⟩

/-- Spaces, controls and invisible marks: the characters that are taken out of names. -/
def isBlankFormat (c : Char) : Bool :=
  match category c with
  | .separator | .control => true
  | _ => false

/-- The characters of the `White_Space` property. -/
def whiteSpaceRanges : List (Nat × Nat) :=
  [(0x9, 0xD), (0x20, 0x20), (0x85, 0x85), (0xA0, 0xA0), (0x1680, 0x1680), (0x2000, 0x200A),
    (0x2028, 0x2029), (0x202F, 0x202F), (0x205F, 0x205F), (0x3000, 0x3000)]

/-- Whether a character is white space, as trimming understands it. -/
def isWhiteSpace (c : Char) : Bool :=
  inRanges c.toNat whiteSpaceRanges

end TableGraph.Unicode
