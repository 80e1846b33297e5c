import TableGraph.BlankLabel.Rule
import TableGraph.Proofs.Text.Trimming

/-!
# What sanitizing takes off

A strip takes an `Opening` off the start of a text, marks and characters that the rule does not allow
there, and characters off its end (`exists_strip_append`). What it leaves alone are the texts that start
and end as the rule allows (`strip_eq_self_iff`), so the strips of a sanitizing stop by themselves at such
a text (`strip_stripAll`), and what came off is the openings and the ends of all of them put together.
-/

namespace TableGraph.LabelRule

open BlankLabel (CharacterSet)
open Text (IsStripped stripSpace isStripped_stripSpace stripSpace_of_isStripped dropEndWhile
  exists_dropEndWhile_append dropWhile_of_head? dropEndWhile_of_getLast? getLast?_dropEndWhile)

variable {rule : LabelRule}

/-! ## What comes off -/

/-- Marks of blank nodes, and characters that a label may not start with. -/
inductive Opening (rule : LabelRule) : List Char → Prop
  | nil : Opening rule []
  | mark {s : List Char} : Opening rule s → Opening rule ('_' :: ':' :: s)
  | char {c : Char} {s : List Char} :
    rule.leading.contains c = true → Opening rule s → Opening rule (c :: s)

/-- Characters that a label may not end with. -/
def Ending (rule : LabelRule) (s : List Char) : Prop :=
  ∀ c ∈ s, rule.trailing.contains c = true

theorem Opening.append {s t : List Char} (hs : rule.Opening s) (ht : rule.Opening t) :
    rule.Opening (s ++ t) := by
  induction hs with
  | nil => exact ht
  | mark _ ih => exact mark ih
  | char hc _ ih => exact char hc ih

theorem opening_of_forall_mem {s : List Char} (h : ∀ c ∈ s, rule.leading.contains c = true) :
    rule.Opening s := by
  induction s with
  | nil => exact .nil
  | cons c rest ih =>
    obtain ⟨hc, hrest⟩ := List.forall_mem_cons.1 h
    exact .char hc (ih hrest)

theorem exists_dropMarkers_append (rule : LabelRule) (s : List Char) :
    ∃ marks, rule.Opening marks ∧ marks ++ dropMarkers s = s := by
  fun_induction dropMarkers s with
  | case1 rest ih =>
    obtain ⟨marks, hmarks, happend⟩ := ih
    exact ⟨'_' :: ':' :: marks, hmarks.mark, by simp [happend]⟩
  | case2 s => exact ⟨[], .nil, rfl⟩

theorem exists_strip_append (rule : LabelRule) (s : List Char) :
    ∃ before after, rule.Opening before ∧ rule.Ending after ∧ before ++ rule.strip s ++ after = s := by
  obtain ⟨marks, hmarks, hs⟩ := rule.exists_dropMarkers_append s
  have htake : (dropMarkers s).takeWhile rule.leading.contains ++
      (dropMarkers s).dropWhile rule.leading.contains = dropMarkers s := List.takeWhile_append_dropWhile
  have hleading : rule.Opening ((dropMarkers s).takeWhile rule.leading.contains) :=
    opening_of_forall_mem (List.all_eq_true.1 List.all_takeWhile)
  obtain ⟨after, hafter, hkept⟩ := exists_dropEndWhile_append rule.trailing.contains
    ((dropMarkers s).dropWhile rule.leading.contains)
  refine ⟨_, after, hmarks.append hleading, hafter, ?_⟩
  rw [strip, List.append_assoc, hkept, List.append_assoc, htake, hs]

theorem exists_stripAll_append (rule : LabelRule) (times : Nat) (s : List Char) :
    ∃ before after,
      rule.Opening before ∧ rule.Ending after ∧ before ++ rule.stripAll times s ++ after = s := by
  induction times generalizing s with
  | zero => exact ⟨[], [], .nil, nofun, by simp [stripAll]⟩
  | succ times ih =>
    rw [stripAll]
    split
    · exact ⟨[], [], .nil, nofun, by simp⟩
    · -- the first strip takes off the outer parts, the others take off the inner ones
      obtain ⟨before, after, hbefore, hafter, hs⟩ := rule.exists_strip_append s
      obtain ⟨more, less, hmore, hless, hstrip⟩ := ih (rule.strip s)
      refine ⟨before ++ more, less ++ after, hbefore.append hmore, ?_, ?_⟩
      · intro c hc
        exact (List.mem_append.1 hc).elim (hless c) (hafter c)
      · calc before ++ more ++ rule.stripAll times (rule.strip s) ++ (less ++ after)
            = before ++ (more ++ rule.stripAll times (rule.strip s) ++ less) ++ after := by
              simp only [List.append_assoc]
          _ = s := by rw [hstrip, hs]

/-! ## What stays -/

/-- Text that starts and ends as a rule allows: with no mark, and no character that is not allowed. -/
structure Allows (rule : LabelRule) (s : List Char) : Prop where
  mark : ¬ "_:".toList <+: s
  first : ∀ c ∈ s.head?, rule.leading.contains c = false
  last : ∀ c ∈ s.getLast?, rule.trailing.contains c = false

theorem dropMarkers_of_not_prefix {s : List Char} (h : ¬ "_:".toList <+: s) : dropMarkers s = s := by
  unfold dropMarkers
  split
  · exact absurd ⟨_, rfl⟩ h
  · rfl

theorem not_prefix_dropMarkers (s : List Char) : ¬ "_:".toList <+: dropMarkers s := by
  fun_induction dropMarkers s with
  | case1 rest ih => exact ih
  | case2 s hmark =>
    rintro ⟨rest, rfl⟩
    exact hmark rest rfl

theorem eq_of_strip {s : List Char} (h : rule.strip s = s) :
    dropMarkers s = s ∧ s.dropWhile rule.leading.contains = s ∧
      dropEndWhile rule.trailing.contains s = s := by
  obtain ⟨marks, -, hs⟩ := rule.exists_dropMarkers_append s
  have hmarks : dropMarkers s <:+ s := ⟨marks, hs⟩
  have hleading : (dropMarkers s).dropWhile rule.leading.contains <:+ dropMarkers s :=
    List.dropWhile_suffix _
  obtain ⟨after, -, hkept⟩ := exists_dropEndWhile_append rule.trailing.contains
    ((dropMarkers s).dropWhile rule.leading.contains)
  have htrailing : rule.strip s <+: (dropMarkers s).dropWhile rule.leading.contains := ⟨after, hkept⟩
  rw [h] at htrailing
  -- no part takes anything off, because nothing is missing in the end
  have hmarksEq := hmarks.eq_of_length_le (Nat.le_trans htrailing.length_le hleading.length_le)
  rw [hmarksEq] at hleading htrailing
  have hleadingEq := hleading.eq_of_length_le htrailing.length_le
  rw [strip, hmarksEq, hleadingEq] at h
  exact ⟨hmarksEq, hleadingEq, h⟩

theorem strip_eq_self_iff {s : List Char} : rule.strip s = s ↔ rule.Allows s := by
  constructor
  · intro h
    obtain ⟨hmarks, hleading, htrailing⟩ := eq_of_strip h
    refine ⟨hmarks ▸ not_prefix_dropMarkers s, fun c hc => ?_, ?_⟩
    · have hhead := List.head?_dropWhile_not rule.leading.contains s
      rw [hleading, Option.mem_def.1 hc] at hhead
      exact hhead
    · have hlast := getLast?_dropEndWhile rule.trailing.contains s
      rwa [htrailing] at hlast
  · intro h
    rw [strip, dropMarkers_of_not_prefix h.mark, dropWhile_of_head? h.first, dropEndWhile_of_getLast? h.last]

theorem length_strip_lt {s : List Char} (h : rule.strip s ≠ s) : (rule.strip s).length < s.length := by
  obtain ⟨before, after, -, -, hs⟩ := rule.exists_strip_append s
  have hlength := congrArg List.length hs
  simp only [List.length_append] at hlength
  refine Nat.lt_of_not_le fun hle => ?_
  have hbefore : before = [] := List.length_eq_zero_iff.1 (by omega)
  have hafter : after = [] := List.length_eq_zero_iff.1 (by omega)
  rw [hbefore, hafter, List.nil_append, List.append_nil] at hs
  exact h hs

/-- As many strips as there are characters come to an end by themselves. -/
theorem strip_stripAll {times : Nat} {s : List Char} (h : s.length ≤ times) :
    rule.strip (rule.stripAll times s) = rule.stripAll times s := by
  induction times generalizing s with
  | zero =>
    obtain rfl := List.length_eq_zero_iff.1 (Nat.le_zero.1 h)
    rfl
  | succ times ih =>
    rw [stripAll]
    split
    · assumption
    · rename_i hstrip
      exact ih (Nat.le_of_lt_succ (Nat.lt_of_lt_of_le (length_strip_lt hstrip) h))

theorem stripAll_of_allows {s : List Char} (h : rule.Allows s) (times : Nat) :
    rule.stripAll times s = s := by
  cases times with
  | zero => rfl
  | succ times => rw [stripAll, if_pos (strip_eq_self_iff.2 h)]

/-! ## Labels -/

theorem exists_sanitize_append (rule : LabelRule) (seed : String) :
    ∃ before after, rule.Opening before ∧ rule.Ending after ∧
      before ++ (rule.sanitize seed).toList ++ after = (stripSpace seed).toList := by
  rw [sanitize, String.toList_ofList]
  exact rule.exists_stripAll_append _ _

theorem allows_sanitize (rule : LabelRule) (seed : String) : rule.Allows (rule.sanitize seed).toList := by
  rw [sanitize, String.toList_ofList]
  exact strip_eq_self_iff.1 (strip_stripAll (Nat.le_refl _))

theorem isStripped_sanitize (rule : LabelRule) (seed : String) : IsStripped (rule.sanitize seed) := by
  intro c hc
  obtain ⟨before, after, -, -, happend⟩ := rule.exists_sanitize_append seed
  apply isStripped_stripSpace seed c
  rw [← happend]
  exact List.mem_append_left _ (List.mem_append_right _ hc)

theorem sanitize_of_allows {label : String} (hstripped : IsStripped label) (h : rule.Allows label.toList) :
    rule.sanitize label = label := by
  rw [sanitize, stripSpace_of_isStripped hstripped, stripAll_of_allows h, String.ofList_toList]

/-- **Sanitizing takes off the ends what is not allowed there, and nothing else.** Two classes, whatever sets
they are read as, write a rule. What is left of a seed without its blank and format characters is a label
between an opening of marks and characters not allowed first, and an end of characters not allowed last. The
label starts with no mark and no such character, ends in none, has no blank or format characters, and is left
alone when it is sanitized again. -/
theorem sanitize_strips_ends {read : ClassReader} {notFirst notLast : String} {first last : CharacterSet}
    (hfirst : read notFirst = some first) (hlast : read notLast = some last) :
    ∃ rule, ofTexts notFirst notLast read = .ok rule ∧ rule.leading = first ∧ rule.trailing = last ∧
      ∀ seed,
        let label := rule.sanitize seed
        (∃ before after, rule.Opening before ∧ rule.Ending after ∧
          (stripSpace seed).toList = before ++ label.toList ++ after) ∧
        rule.Allows label.toList ∧ IsStripped label ∧ rule.sanitize label = label := by
  refine ⟨⟨notFirst, notLast, first, last⟩, by rw [ofTexts, hfirst, hlast], rfl, rfl, fun seed => ?_⟩
  -- from here on only what the rule makes of the seed counts, not how the rule was written
  generalize (⟨notFirst, notLast, first, last⟩ : LabelRule) = rule
  have hallows := rule.allows_sanitize seed
  have hstripped := rule.isStripped_sanitize seed
  obtain ⟨before, after, hbefore, hafter, happend⟩ := rule.exists_sanitize_append seed
  exact ⟨⟨before, after, hbefore, hafter, happend.symm⟩, hallows, hstripped,
    sanitize_of_allows hstripped hallows⟩

/-- A dot behind a mark comes off with the mark, and the mark behind the dot then as well. -/
theorem sanitize_strips_ends_dots :
    let dots : CharacterSet := .union .empty (.single '.')
    CharacterSet.ofText? "[.]" = some dots ∧
      ∃ rule, ofTexts "[.]" "[.]" = .ok rule ∧ rule.sanitize "_:._:a.b.." = "a.b" ∧
        rule.Allows "a.b".toList ∧ rule.sanitize "a.b" = "a.b" := by
  intro dots
  have hdots : CharacterSet.ofText? "[.]" = some dots := by decide
  obtain ⟨rule, hrule, hleading, htrailing, hlabel⟩ := sanitize_strips_ends hdots hdots
  have hlabelEq : rule.sanitize "_:._:a.b.." = "a.b" := by
    have hown : LabelRule.mk "[.]" "[.]" dots dots = rule := by
      rw [ofTexts, hdots] at hrule
      exact Except.ok.inj hrule
    rw [← hown]
    decide +kernel
  obtain ⟨-, hallows, -, hagain⟩ := hlabel "_:._:a.b.."
  rw [hlabelEq] at hallows hagain
  exact ⟨hdots, rule, hrule, hlabelEq, hallows, hagain⟩

end TableGraph.LabelRule
