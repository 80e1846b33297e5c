import Mathlib.Logic.Function.Iterate
import TableGraph.Proofs.Document.Loaded
import TableGraph.Proofs.Document.RoundTrip

/-!
# Expressions that are read again

The language of an expression and its code are stored side by side, and a language in front of code
counts before the one beside it. Code that still has one in front after it was read is therefore taken
for code of that language when it is read again, and empty code for none at all. An expression reads
back exactly if it is storable (`reread_eq_iff`); any other loses some of its code (`length_reread_lt`)
or all that it says, until what is left is storable.
-/

namespace TableGraph

namespace Expression

theorem parse_of_embedded {language : Option String} {code : String} (htrimmed : Text.IsTrimmed code.toList)
    {embedded rest : List Char} (h : embeddedLanguage? code.toList = some (embedded, rest)) :
    parse language code =
      ⟨String.ofList (embedded.map Char.toLower), Text.trimStart (String.ofList rest)⟩ := by
  simp only [parse, Text.trim_of_isTrimmed htrimmed, h]

theorem length_lt_of_embedded {code embedded rest : List Char}
    (h : embeddedLanguage? code = some (embedded, rest)) :
    (Text.trimStart (String.ofList rest)).toList.length < code.length := by
  have hdropped := (List.dropWhile_suffix (l := rest) Unicode.isWhiteSpace).length_le
  rw [← append_of_embeddedLanguage? h, Text.trimStart, String.toList_ofList, String.toList_ofList,
    List.length_append, List.length_cons]
  omega

end Expression

namespace Document

open Expression (embeddedLanguage?)

variable {e : Expression}

/-- An expression that is saved and read again. -/
def reread (e : Expression) : Expression :=
  usableExpression (saveExpression e)

theorem isTrimmed_reread (e : Expression) : (reread e).IsTrimmed :=
  isTrimmed_usableExpression _

theorem reread_of_empty (h : e.code = "") : reread e = .cellValue := by
  have hdefault : e.isDefault = false := by
    simp [Expression.isDefault, Expression.isIdentity, h, Expression.identityCode]
  have hblank : (Text.trim "").isEmpty = true := by decide
  simp only [reread, saveExpression, hdefault, Bool.false_eq_true, if_false, usableExpression, h, hblank,
    if_true]

theorem reread_of_embedded (htrimmed : e.IsTrimmed) {embedded rest : List Char}
    (h : embeddedLanguage? e.code.toList = some (embedded, rest)) :
    reread e = ⟨String.ofList (embedded.map Char.toLower), Text.trimStart (String.ofList rest)⟩ := by
  have hdefault : e.isDefault = false := by
    by_contra hcell
    rw [Bool.not_eq_false, Expression.isDefault, Bool.and_eq_true, Expression.isIdentity, beq_iff_eq] at hcell
    have hnone : embeddedLanguage? Expression.identityCode.toList = none := by decide
    rw [hcell.1, hnone] at h
    cases h
  have hcode : (Text.trim e.code).isEmpty = false := by
    rw [Text.trim_of_isTrimmed htrimmed]
    by_contra hempty
    rw [Bool.not_eq_false, String.isEmpty_iff] at hempty
    have hnone : embeddedLanguage? "".toList = none := by decide
    rw [hempty, hnone] at h
    cases h
  simp only [reread, saveExpression, hdefault, Bool.false_eq_true, if_false, usableExpression, hcode]
  exact Expression.parse_of_embedded htrimmed h

theorem length_reread_lt (htrimmed : e.IsTrimmed) {embedded rest : List Char}
    (h : embeddedLanguage? e.code.toList = some (embedded, rest)) :
    (reread e).code.toList.length < e.code.toList.length := by
  rw [reread_of_embedded htrimmed h]
  exact Expression.length_lt_of_embedded h

/-- Of trimmed expressions, exactly the storable ones read back. -/
theorem reread_eq_iff (htrimmed : e.IsTrimmed) : reread e = e ↔ e.IsStorable := by
  refine ⟨fun h => ?_, usableExpression_saveExpression⟩
  by_cases hempty : e.code = ""
  · exact .inl (h.symm.trans (reread_of_empty hempty))
  · refine .inr ⟨hempty, htrimmed, ?_⟩
    rcases hembedded : embeddedLanguage? e.code.toList with _ | ⟨embedded, rest⟩
    · rfl
    · have hlt := length_reread_lt htrimmed hembedded
      rw [h] at hlt
      exact absurd hlt (Nat.lt_irrefl _)

/-- Read again often enough, an expression is one that reads back. -/
theorem exists_isStorable_reread (htrimmed : e.IsTrimmed) :
    ∃ times ≤ e.code.toList.length + 1, (reread^[times] e).IsStorable := by
  induction hlength : e.code.toList.length using Nat.strongRecOn generalizing e with
  | ind length ih =>
    by_cases hstorable : e.IsStorable
    · exact ⟨0, Nat.zero_le _, hstorable⟩
    · by_cases hempty : e.code = ""
      · refine ⟨1, by omega, .inl ?_⟩
        rw [Function.iterate_one]
        exact reread_of_empty hempty
      · rcases hembedded : embeddedLanguage? e.code.toList with _ | ⟨embedded, rest⟩
        · exact absurd (.inr ⟨hempty, htrimmed, hembedded⟩) hstorable
        · have hlt := length_reread_lt htrimmed hembedded
          obtain ⟨times, hle, hlast⟩ := ih _ (hlength ▸ hlt) (isTrimmed_reread e) rfl
          refine ⟨times + 1, by omega, ?_⟩
          rw [Function.iterate_succ_apply]
          exact hlast

end Document

/-- **A stored expression reads back exactly if nothing is left to be read in its code.** Whatever
language and code a document holds, the expression that is read of them reads back from what is saved of
it if it is left out, or if its code is not empty and has no language in front; and only then. Empty code
is read as the cell itself. A language in front is taken off, and with it some of the code. After no more
readings than the code has characters, and one, the expression stays what it is. -/
theorem expression_reads_back_iff_storable (language : Option String) (code : String) :
    let e : Expression := .parse language code
    (Document.reread e = e ↔
      e.isDefault = true ∨ (e.code ≠ "" ∧ Expression.embeddedLanguage? e.code.toList = none)) ∧
    (e.code = "" → Document.reread e = .cellValue) ∧
    (∀ embedded rest, Expression.embeddedLanguage? e.code.toList = some (embedded, rest) →
      Document.reread e =
        ⟨String.ofList (embedded.map Char.toLower), Text.trimStart (String.ofList rest)⟩ ∧
      (Document.reread e).code.toList.length < e.code.toList.length) ∧
    ∃ times ≤ e.code.toList.length + 1,
      Document.reread (Document.reread^[times] e) = Document.reread^[times] e := by
  intro e
  have htrimmed : e.IsTrimmed := Expression.isTrimmed_parse language code
  have hdefault : e.isDefault = true ↔ e = .cellValue := by
    obtain ⟨own, text⟩ := e
    simp [Expression.isDefault, Expression.isIdentity, Expression.cellValue, and_comm]
  refine ⟨?_, Document.reread_of_empty, fun embedded rest h => ?_, ?_⟩
  · rw [Document.reread_eq_iff htrimmed, hdefault]
    exact or_congr_right (and_congr_right fun _ => and_iff_right htrimmed)
  · exact ⟨Document.reread_of_embedded htrimmed h, Document.length_reread_lt htrimmed h⟩
  · obtain ⟨times, hle, hlast⟩ := Document.exists_isStorable_reread htrimmed
    exact ⟨times, hle, Document.usableExpression_saveExpression hlast⟩

/-- Code with two languages in front is read as code of the first, and read again as code of the second. -/
theorem expression_of_two_languages_not_read_back :
    let e : Expression := .parse (some "grel") "jython:a:b"
    (Text.trim "jython:a:b").isEmpty = false ∧ e = ⟨"jython", "a:b"⟩ ∧
      Document.reread e = ⟨"a", "b"⟩ ∧ Document.reread e ≠ e := by
  decide +kernel

end TableGraph
