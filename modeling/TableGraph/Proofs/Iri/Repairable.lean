import TableGraph.Iri.Repair

/-!
# Every text can be repaired

The last pass of a repair leaves only word characters, and each of these may stand in the first segment
of a path. Such a text is a relative reference, so a repair succeeds by then at the latest
(`exists_ofText?`). A repair adds nothing but underscores (`mem_of_ofText?`).
-/

namespace TableGraph.Iri

open Unicode (category inRanges letterRanges numberRanges exists_range_of_inRanges isBlankFormat)
open Text (underscoreRunsFrom underscoreRuns collapseUnderscores)

/-! ## Word characters -/

theorem isAlphanum_iff {c : Char} : c.isAlphanum = true ↔
    ((0x41 ≤ c.toNat ∧ c.toNat ≤ 0x5A) ∨ (0x61 ≤ c.toNat ∧ c.toNat ≤ 0x7A)) ∨
      (0x30 ≤ c.toNat ∧ c.toNat ≤ 0x39) := by
  have hupper : c.isUpper = true ↔ 0x41 ≤ c.toNat ∧ c.toNat ≤ 0x5A := decide_eq_true_iff
  have hlower : c.isLower = true ↔ 0x61 ≤ c.toNat ∧ c.toNat ≤ 0x7A := by
    change (decide ('a'.val ≤ c.val) && decide (c.val ≤ 'z'.val)) = true ↔ _
    rw [Bool.and_eq_true, decide_eq_true_iff, decide_eq_true_iff]
    exact Iff.rfl
  have hsplit : c.isAlphanum = ((c.isUpper || c.isLower) || c.isDigit) := rfl
  rw [hsplit, Bool.or_eq_true, Bool.or_eq_true, hupper, hlower, Char.isDigit_iff_toNat]
  exact Iff.rfl

/-- Blocks of code points that hold every letter and number, and nothing that an IRI does not admit. -/
def wordBlocks : List (Nat × Nat) :=
  [(0x30, 0x39), (0x41, 0x5A), (0x61, 0x7A), (0xA0, 0xD7FF), (0xF900, 0xFDCF), (0xFDF0, 0xFFEF),
    (0x10000, 0x1FFFD), (0x20000, 0x2FFFD), (0x30000, 0x3FFFD)]

theorem exists_wordBlock {r : Nat × Nat} (h : r ∈ letterRanges ∨ r ∈ numberRanges) :
    ∃ block ∈ wordBlocks, block.1 ≤ r.1 ∧ r.2 ≤ block.2 := by
  have hall : (letterRanges ++ numberRanges).all
      (fun r => wordBlocks.any fun block => block.1 ≤ r.1 && r.2 ≤ block.2) = true := by
    decide +kernel
  have hr := List.all_eq_true.1 hall r (List.mem_append.2 h)
  simpa using hr

theorem isUnreserved_of_mem_wordBlock {c : Char} {block : Nat × Nat} (h : block ∈ wordBlocks)
    (hlo : block.1 ≤ c.toNat) (hhi : c.toNat ≤ block.2) : isUnreserved c = true := by
  have hrange : c.isAlphanum = true ∨ isExtended c = true := by
    rw [isAlphanum_iff]
    simp only [isExtended, Bool.or_eq_true, Bool.and_eq_true, decide_eq_true_eq]
    simp only [wordBlocks, List.mem_cons, List.not_mem_nil, or_false] at h
    rcases h with rfl | rfl | rfl | rfl | rfl | rfl | rfl | rfl | rfl <;> simp only at hlo hhi <;> omega
  rcases hrange with h | h
  · simp [isUnreserved, isAsciiUnreserved, h]
  · simp [isUnreserved, h]

theorem isUnreserved_of_isWordChar {c : Char} (h : isWordChar c = true) : isUnreserved c = true := by
  have hranges : (∃ r, (r ∈ letterRanges ∨ r ∈ numberRanges) ∧ r.1 ≤ c.toNat ∧ c.toNat ≤ r.2) ∨
      isAsciiUnreserved c = true := by
    by_cases hletter : inRanges c.toNat letterRanges = true
    · obtain ⟨r, hr, hle⟩ := exists_range_of_inRanges hletter
      exact .inl ⟨r, .inl hr, hle⟩
    by_cases hnumber : inRanges c.toNat numberRanges = true
    · obtain ⟨r, hr, hle⟩ := exists_range_of_inRanges hnumber
      exact .inl ⟨r, .inr hr, hle⟩
    have hcategory : category c ≠ .letter ∧ category c ≠ .number := by
      rw [category, if_neg hletter, if_neg hnumber]
      constructor <;> repeat' split
      all_goals simp
    right
    simp only [isWordChar, hcategory.1, hcategory.2, decide_false, Bool.false_or, Bool.or_eq_true] at h
    rcases h with ((h | h) | h) | h <;> simp [isAsciiUnreserved, h]
  rcases hranges with ⟨r, hr, hlo, hhi⟩ | h
  · obtain ⟨block, hblock, hlo', hhi'⟩ := exists_wordBlock hr
    exact isUnreserved_of_mem_wordBlock hblock (by omega) (by omega)
  · simp [isUnreserved, h]

/-! ## References of word characters -/

theorem ne_of_isUnreserved {c d : Char} (hc : isUnreserved c = true) (hd : isUnreserved d = false) :
    c ≠ d := by
  rintro rfl
  rw [hc] at hd
  cases hd

theorem scan_eq_self {allowed stop : Char → Bool} {s : List Char}
    (h : ∀ c ∈ s, stop c = false ∧ c ≠ '%' ∧ allowed c = true) : scan allowed stop s = .ok (s, []) := by
  induction s with
  | nil => rfl
  | cons c rest ih =>
    obtain ⟨hstop, hpercent, hallowed⟩ := h c (by simp)
    have hrest := ih fun d hd => h d (by simp [hd])
    unfold scan
    simp only [hstop, hpercent, hallowed, hrest, Bool.false_eq_true, if_false, if_true]
    rfl

theorem isReference_of_unreserved {s : List Char} (h : ∀ c ∈ s, isUnreserved c = true) :
    isReference s = true := by
  have hne : ∀ d : Char, isUnreserved d = false → d ∉ s := by
    intro d hd hmem
    exact ne_of_isUnreserved (h d hmem) hd rfl
  have hcolon : ':' ∉ s := hne ':' (by decide)
  have hslash : '/' ∉ s := hne '/' (by decide)
  have hhead : s.head? ≠ some ':' := fun hc => hcolon (List.mem_of_mem_head? hc)
  have hscheme : splitScheme s = none := by
    unfold splitScheme
    repeat' split
    any_goals rfl
    rename_i hdrop
    have hmem := (List.dropWhile_sublist isSchemeChar).mem (hdrop ▸ List.mem_cons_self)
    exact absurd hmem hcolon
  have hscan : scan isPlainSegmentChar endsAuthority s = .ok (s, []) := by
    apply scan_eq_self
    intro c hc
    have hends : endsAuthority c = false := by
      have hquery : '?' ∉ s := hne '?' (by decide)
      have hmark : '#' ∉ s := hne '#' (by decide)
      simp only [endsAuthority, Bool.or_eq_false_iff, beq_eq_false_iff_ne]
      refine ⟨⟨?_, ?_⟩, ?_⟩ <;> rintro rfl <;> contradiction
    exact ⟨hends, ne_of_isUnreserved (h c hc) (by decide), by simp [isPlainSegmentChar, isHostChar, h c hc]⟩
  have htail : readTail true s = .ok ⟨none, s, none, none⟩ := by
    unfold readTail
    split
    · exact absurd (by simp) hslash
    · rw [readPath, if_pos rfl, hscan]
      -- nothing is left behind the first segment
      exact congrArg (fun path => Except.ok (Tail.mk none path none none)) (List.append_nil s)
  rw [isReference, Reference.read, if_neg hhead, hscheme, htail]
  rfl

/-! ## Repairing -/

theorem mem_underscoreRunsFrom {p : Char → Bool} {inside : Bool} {s : List Char} {c : Char}
    (h : c ∈ underscoreRunsFrom p inside s) : c = '_' ∨ (c ∈ s ∧ p c = false) := by
  induction s generalizing inside with
  | nil => simp [underscoreRunsFrom] at h
  | cons d rest ih =>
    rw [underscoreRunsFrom] at h
    split at h
    · have hrest : c = '_' ∨ c ∈ underscoreRunsFrom p true rest := by
        split at h
        · exact .inr h
        · exact List.mem_cons.1 h
      rcases hrest with rfl | hrest
      · exact .inl rfl
      · exact (ih hrest).imp id fun hc => ⟨by simp [hc.1], hc.2⟩
    · rename_i hd
      rcases List.mem_cons.1 h with rfl | hrest
      · exact .inr ⟨by simp, by simpa using hd⟩
      · exact (ih hrest).imp id fun hc => ⟨by simp [hc.1], hc.2⟩

theorem mem_dropLeadingSlashes {s : List Char} {c : Char} (h : c ∈ dropLeadingSlashes s) : c ∈ s := by
  induction s with
  | nil => exact h
  | cons d rest ih =>
    rw [dropLeadingSlashes] at h
    split at h
    · exact List.mem_cons_of_mem _ (ih h)
    split at h
    · exact List.mem_cons_of_mem _ (ih h)
    · exact h

theorem mem_underscoreLeadingSlashes {s : List Char} {c : Char}
    (h : c ∈ underscoreLeadingSlashes s) : c = '_' ∨ c ∈ s := by
  unfold underscoreLeadingSlashes at h
  dsimp only at h
  split at h
  · rcases List.mem_cons.1 h with rfl | hkept
    · exact .inl rfl
    · exact .inr (mem_dropLeadingSlashes hkept)
  · exact .inr h

theorem mem_repairPass {pass : List Char → List Char} (hpass : pass ∈ repairPasses) {s : List Char}
    {c : Char} (h : c ∈ pass s) : c = '_' ∨ c ∈ s := by
  simp only [repairPasses, List.mem_cons, List.not_mem_nil, or_false] at hpass
  rcases hpass with rfl | rfl | rfl | rfl | rfl | rfl | rfl
  case inr.inl => exact mem_underscoreLeadingSlashes h
  all_goals exact (mem_underscoreRunsFrom h).imp id And.left

/-- Passes end in a reference, which has what the text had and each pass keeps. -/
theorem of_repairWith {P : List Char → Prop} {passes : List (List Char → List Char)}
    (hpasses : ∀ pass ∈ passes, ∀ s, P s → P (collapseUnderscores (pass s))) {s repaired : List Char}
    (hs : P s) (h : repairWith passes s = some repaired) : P repaired ∧ isReference repaired = true := by
  induction passes generalizing s with
  | nil =>
    rw [repairWith] at h
    split at h
    · rename_i href
      obtain rfl := Option.some.inj h
      exact ⟨hs, href⟩
    · cases h
  | cons pass rest ih =>
    obtain ⟨hpass, hrest⟩ := List.forall_mem_cons.1 hpasses
    rw [repairWith] at h
    split at h
    · rename_i href
      obtain rfl := Option.some.inj h
      exact ⟨hs, href⟩
    · exact ih hrest (hpass s hs) h

theorem mem_repairWith {s repaired : List Char} (h : repairWith repairPasses s = some repaired) :
    ∀ c ∈ repaired, c = '_' ∨ c ∈ s := by
  refine (of_repairWith (P := fun t => ∀ c ∈ t, c = '_' ∨ c ∈ s) ?_ (fun _ => .inr) h).1
  intro pass hpass t ht c hc
  rcases mem_underscoreRunsFrom hc with rfl | ⟨hc, -⟩
  · exact .inl rfl
  rcases mem_repairPass hpass hc with rfl | hc
  · exact .inl rfl
  · exact ht c hc

/-- A repair adds nothing but underscores, and leaves no character that is never allowed. -/
theorem mem_of_ofText? {s repaired : String} (h : ofText? s = some repaired) {c : Char}
    (hc : c ∈ repaired.toList) :
    c = '_' ∨ (c ∈ s.toList ∧ isBlankFormat c = false ∧ isNeverAllowed c = false) := by
  obtain ⟨chars, hchars, rfl⟩ := Option.map_eq_some_iff.1 h
  rw [String.toList_ofList] at hc
  unfold repair at hchars
  split at hchars
  · cases hchars
  · rcases mem_repairWith hchars c hc with rfl | hmem
    · exact .inl rfl
    rcases mem_underscoreRunsFrom hmem with rfl | ⟨hmem, -⟩
    · exact .inl rfl
    rcases mem_underscoreRunsFrom hmem with rfl | ⟨hmem, hok⟩
    · exact .inl rfl
    · rw [Bool.or_eq_false_iff] at hok
      exact .inr ⟨hmem, hok⟩

theorem repairWith_isSome (passes : List (List Char → List Char)) {pass : List Char → List Char}
    (hpass : ∀ s, isReference (collapseUnderscores (pass s)) = true) (s : List Char) :
    (repairWith (passes ++ [pass]) s).isSome = true := by
  induction passes generalizing s with
  | nil =>
    rw [List.nil_append, repairWith, repairWith, if_pos (hpass s)]
    split <;> rfl
  | cons p rest ih =>
    rw [List.cons_append, repairWith]
    split
    · rfl
    · exact ih _

theorem isReference_words (s : List Char) :
    isReference (collapseUnderscores (underscoreRuns (fun c => !isWordChar c) s)) = true := by
  apply isReference_of_unreserved
  intro c hc
  have hunderscore : isUnreserved '_' = true := by decide
  rcases mem_underscoreRunsFrom hc with rfl | ⟨hc, -⟩
  · exact hunderscore
  rcases mem_underscoreRunsFrom hc with rfl | ⟨-, hword⟩
  · exact hunderscore
  · exact isUnreserved_of_isWordChar (by simpa using hword)

theorem exists_ofText? {s : String} (h : s ≠ "") : ∃ repaired, ofText? s = some repaired := by
  have hs : s.toList.isEmpty = false := by simpa using h
  have hrepair := repairWith_isSome repairPasses.dropLast isReference_words
    (collapseUnderscores (underscoreRuns (fun c => isBlankFormat c || isNeverAllowed c) s.toList))
  obtain ⟨repaired, hrepaired⟩ := Option.isSome_iff_exists.1 hrepair
  refine ⟨String.ofList repaired, ?_⟩
  rw [ofText?, repair, hs]
  exact congrArg (Option.map String.ofList) hrepaired

end TableGraph.Iri
