import TableGraph.Proofs.History.Steps
import TableGraph.Proofs.Mapping.Trees
import TableGraph.Proofs.Naming.Production

/-!
# Constants keep their identity

The blank node of a constant is chosen when the constant is needed for the first time, whenever that is in
the life of its transform, and remembered. `Identified` says what then holds of everything that was made:
each constant made one blank node, every time; its label is the sanitized seed, or an anonymous label that
was new when the constant made its first term and that no other node makes. Each term that is made keeps
this up (`Transform.follows_identified`), so it holds all the life of a transform
(`constants_keep_identity`).
-/

namespace TableGraph

open BlankNodes (anonymousLabel constantLabel ofConstant)

namespace Transform

/-- The seed and the rule of the constant at a place, if the node there makes the blank node of one. -/
def constantAt? (t : Transform) (place : Address) : Option (String × LabelRule) :=
  (t.nodeAt? place).bind Node.constantBlank?

/-- No seed of a transform is sanitized to an anonymous label. -/
def SeedsApart (t : Transform) : Prop :=
  ∀ root ∈ t.roots, root.Every fun node => ∀ seed rule, node.constantBlank? = some (seed, rule) →
    ∀ n, rule.sanitize seed ≠ anonymousLabel n

theorem every_of_nodeAt? {t : Transform} {p : Node → Prop} (h : ∀ root ∈ t.roots, root.Every p)
    {place : Address} {node : Node} (hnode : t.nodeAt? place = some node) : node.Every p := by
  match place with
  | [] => cases hnode
  | [number] => exact h node (List.mem_of_getElem? hnode)
  | number :: above :: place =>
    obtain ⟨parent, hparent, hproperty⟩ := Option.bind_eq_some_iff.1 hnode
    obtain ⟨⟨name, object⟩, hobject, rfl⟩ := Option.bind_eq_some_iff.1 hproperty
    have hbelow := (Node.every_iff.1 (every_of_nodeAt? h hparent)).2
    exact Node.everyObject_getElem hbelow hobject

theorem SeedsApart.sanitize_ne {t : Transform} (h : t.SeedsApart) {place : Address} {seed : String}
    {rule : LabelRule} (hat : t.constantAt? place = some (seed, rule)) (n : Nat) :
    rule.sanitize seed ≠ anonymousLabel n := by
  obtain ⟨node, hnode, hconstant⟩ := Option.bind_eq_some_iff.1 hat
  exact (Node.every_iff.1 (every_of_nodeAt? h hnode)).1 seed rule hconstant n

end Transform

/-- What was made first at a place. -/
def firstMade? (place : Address) (made : List Made) : Option Made :=
  made.find? (·.place == place)

/-- What was made so far, as the blank nodes stand now. -/
structure Identified (t : Transform) (blanks : BlankNodes) (made : List Made) : Prop where
  stands : ∀ m ∈ made, t.nodeAt? m.place = some m.node
  /-- A constant that made terms is remembered, and they are its blank node. -/
  remembered : ∀ m ∈ made, ∀ constant, m.node.constantBlank? = some constant →
    ∃ id, blanks.constants.lookup m.place = some id ∧ m.terms = [.blank id]
  /-- The label of a constant was chosen when it made its first term. -/
  chosen : ∀ place id, blanks.constants.lookup place = some id →
    ∃ seed rule first, t.constantAt? place = some (seed, rule) ∧ firstMade? place made = some first ∧
      id.label = constantLabel seed rule first.minted
  bounded : ∀ m ∈ made, ∀ n, .blank ⟨anonymousLabel n⟩ ∈ m.terms → n < blanks.minted
  /-- An anonymous blank node is made at one place only. -/
  own : ∀ m ∈ made, ∀ m' ∈ made, ∀ n, .blank ⟨anonymousLabel n⟩ ∈ m.terms →
    .blank ⟨anonymousLabel n⟩ ∈ m'.terms → m.place = m'.place

theorem firstMade?_append {place : Address} {made : List Made} {first : Made}
    (h : firstMade? place made = some first) (more : List Made) :
    firstMade? place (made ++ more) = some first := by
  rw [firstMade?] at h
  rw [firstMade?, List.find?_append, h, Option.some_or]

theorem firstMade?_concat {m : Made} {made : List Made} (h : ∀ e ∈ made, e.place ≠ m.place) :
    firstMade? m.place (made ++ [m]) = some m := by
  have hnone : made.find? (·.place == m.place) = none := by
    rw [List.find?_eq_none]
    intro e he
    rw [beq_iff_eq]
    exact h e he
  rw [firstMade?, List.find?_append, hnone, Option.none_or, List.find?_singleton, beq_self_eq_true,
    if_pos rfl]

theorem mem_of_firstMade? {place : Address} {made : List Made} {first : Made}
    (h : firstMade? place made = some first) : first ∈ made ∧ first.place = place := by
  rw [firstMade?] at h
  have hplace := List.find?_some h
  exact ⟨List.mem_of_find?_eq_some h, beq_iff_eq.1 hplace⟩

namespace Identified

variable {t : Transform} {blanks : BlankNodes} {made : List Made}

theorem start (t : Transform) (minted : Nat) : Identified t ⟨[], minted⟩ [] where
  stands := List.forall_mem_nil _
  remembered := List.forall_mem_nil _
  chosen _ _ h := by cases h
  bounded := List.forall_mem_nil _
  own := List.forall_mem_nil _

theorem exists_made (h : Identified t blanks made) {place : Address} {id : BlankId}
    (hid : blanks.constants.lookup place = some id) :
    ∃ m ∈ made, m.place = place ∧ m.terms = [.blank id] := by
  obtain ⟨seed, rule, first, hconstant, hfirst, -⟩ := h.chosen place id hid
  obtain ⟨hmem, rfl⟩ := mem_of_firstMade? hfirst
  rw [Transform.constantAt?, h.stands first hmem] at hconstant
  obtain ⟨other, hother, hterms⟩ := h.remembered first hmem (seed, rule) hconstant
  rw [hid] at hother
  obtain rfl := Option.some.inj hother
  exact ⟨first, hmem, rfl, hterms⟩

/-! ## What one node makes -/

/-- When a node makes terms, what was made stands, if constants keep their blank nodes and are noted with
new ones, and the anonymous blank nodes among the terms are new or were made by the node before. -/
theorem concat (h : Identified t blanks made) {m : Made} {after : BlankNodes}
    (hstands : t.nodeAt? m.place = some m.node) (hkeeps : blanks.Keeps after)
    (hle : blanks.minted ≤ after.minted)
    (hremembered : ∀ constant, m.node.constantBlank? = some constant →
      ∃ id, after.constants.lookup m.place = some id ∧ m.terms = [.blank id])
    (hchosen : ∀ place id, after.constants.lookup place = some id →
      blanks.constants.lookup place = some id ∨
        place = m.place ∧ (∀ e ∈ made, e.place ≠ m.place) ∧ ∃ seed rule,
          t.constantAt? place = some (seed, rule) ∧ id.label = constantLabel seed rule m.minted)
    (hanonymous : ∀ n, .blank ⟨anonymousLabel n⟩ ∈ m.terms → n < after.minted ∧
      (blanks.minted ≤ n ∨ ∃ e ∈ made, e.place = m.place ∧ .blank ⟨anonymousLabel n⟩ ∈ e.terms)) :
    Identified t after (made ++ [m]) where
  stands := List.forall_mem_append.2 ⟨h.stands, List.forall_mem_singleton.2 hstands⟩
  remembered := by
    rw [List.forall_mem_append, List.forall_mem_singleton]
    refine ⟨fun e he constant hconstant => ?_, hremembered⟩
    obtain ⟨id, hid, hterms⟩ := h.remembered e he constant hconstant
    exact ⟨id, hkeeps e.place id hid, hterms⟩
  chosen place id hid := by
    rcases hchosen place id hid with hid | ⟨rfl, hnew, seed, rule, hconstant, hlabel⟩
    · obtain ⟨seed, rule, first, hconstant, hfirst, hlabel⟩ := h.chosen place id hid
      exact ⟨seed, rule, first, hconstant, firstMade?_append hfirst [m], hlabel⟩
    · exact ⟨seed, rule, m, hconstant, firstMade?_concat hnew, hlabel⟩
  bounded := by
    rw [List.forall_mem_append, List.forall_mem_singleton]
    exact ⟨fun e he n hn => Nat.lt_of_lt_of_le (h.bounded e he n hn) hle, fun n hn => (hanonymous n hn).1⟩
  own := by
    have hnew : ∀ e ∈ made, ∀ n, .blank ⟨anonymousLabel n⟩ ∈ e.terms →
        .blank ⟨anonymousLabel n⟩ ∈ m.terms → e.place = m.place := by
      intro e he n hn hm
      rcases (hanonymous n hm).2 with hle | ⟨before, hbefore, hplace, hmade⟩
      · exact absurd (h.bounded e he n hn) (Nat.not_lt.2 hle)
      · exact (h.own e he before hbefore n hn hmade).trans hplace
    simp only [List.forall_mem_append, List.forall_mem_singleton]
    refine ⟨fun e he => ⟨h.own e he, fun n hn hm => hnew e he n hn hm⟩, fun e he n hm hn => ?_, ?_⟩
    · exact (hnew e he n hn hm).symm
    · exact fun _ _ _ => trivial

theorem place_ne_of_unnamed (h : Identified t blanks made) {place : Address}
    (hunnamed : blanks.constants.lookup place = none) {constant : String × LabelRule}
    (hconstant : t.constantAt? place = some constant) : ∀ m ∈ made, m.place ≠ place := by
  rintro m hm rfl
  rw [Transform.constantAt?, h.stands m hm] at hconstant
  obtain ⟨id, hid, -⟩ := h.remembered m hm constant hconstant
  rw [hunnamed] at hid
  cases hid

theorem concat_of_mints (h : Identified t blanks made) {m : Made} {after : BlankNodes}
    (hstands : t.nodeAt? m.place = some m.node) (hnode : m.node.constantBlank? = none)
    (hkept : after.constants = blanks.constants) (hle : blanks.minted ≤ after.minted)
    (hnew : ∀ n, .blank ⟨anonymousLabel n⟩ ∈ m.terms → blanks.minted ≤ n ∧ n < after.minted) :
    Identified t after (made ++ [m]) := by
  refine h.concat hstands ?_ hle ?_ ?_ fun n hn => ⟨(hnew n hn).2, .inl (hnew n hn).1⟩
  · rw [BlankNodes.Keeps, hkept]
    exact fun _ _ hid => hid
  · intro constant hconstant
    rw [hnode] at hconstant
    cases hconstant
  · intro place id hid
    rw [hkept] at hid
    exact .inl hid

theorem concat_of_named (h : Identified t blanks made) {m : Made} {id : BlankId}
    (hstands : t.nodeAt? m.place = some m.node) (hlookup : blanks.constants.lookup m.place = some id)
    (hterms : m.terms = [.blank id]) : Identified t blanks (made ++ [m]) := by
  obtain ⟨before, hbefore, hplace, hmade⟩ := h.exists_made hlookup
  rw [← hterms] at hmade
  refine h.concat hstands (BlankNodes.Keeps.refl blanks) (Nat.le_refl _) ?_ ?_ ?_
  · exact fun _ _ => ⟨id, hlookup, hterms⟩
  · exact fun _ _ hid => .inl hid
  · intro n hn
    rw [← hmade] at hn
    exact ⟨h.bounded before hbefore n hn, .inr ⟨before, hbefore, hplace, hn⟩⟩

theorem concat_of_unnamed (h : Identified t blanks made) (hapart : t.SeedsApart) {m : Made} {seed : String}
    {rule : LabelRule} (hstands : t.nodeAt? m.place = some m.node)
    (hconstant : m.node.constantBlank? = some (seed, rule))
    (hlookup : blanks.constants.lookup m.place = none) (hminted : m.minted = blanks.minted)
    (hterms : m.terms = [.blank (ofConstant m.place seed rule blanks).1]) :
    Identified t (ofConstant m.place seed rule blanks).2 (made ++ [m]) := by
  have hat : t.constantAt? m.place = some (seed, rule) := by
    rw [Transform.constantAt?, hstands]
    exact hconstant
  have hkeeps := BlankNodes.keeps_ofConstant m.place seed rule blanks
  have hid := BlankNodes.lookup_ofConstant m.place seed rule blanks
  rw [BlankNodes.ofConstant_of_unnamed hlookup] at hterms hkeeps hid ⊢
  refine h.concat hstands hkeeps ?_ (fun _ _ => ⟨_, hid, hterms⟩) ?_ ?_
  · dsimp only
    split <;> omega
  · intro place id hfound
    rw [List.lookup_cons] at hfound
    split at hfound
    · rename_i hplace
      obtain rfl := beq_iff_eq.1 hplace
      obtain rfl := Option.some.inj hfound
      exact .inr ⟨rfl, h.place_ne_of_unnamed hlookup hat, seed, rule, hat, by rw [hminted]⟩
    · exact .inl hfound
  · intro n hn
    rw [hterms, List.mem_singleton, Term.blank.injEq, BlankId.mk.injEq, constantLabel] at hn
    by_cases hlabel : rule.sanitize seed = ""
    · rw [if_pos hlabel] at hn
      obtain rfl := BlankNodes.anonymousLabel_injective hn
      simp only [hlabel, if_true]
      exact ⟨Nat.lt_succ_self _, .inl (Nat.le_refl _)⟩
    · rw [if_neg hlabel] at hn
      exact absurd hn.symm (hapart.sanitize_ne hat n)

end Identified

theorem Identified.made {t : Transform} (hapart : t.SeedsApart) {blanks : BlankNodes} {made : List Made}
    (h : Identified t blanks made) {place : Address} {node : Node} (hnode : t.nodeAt? place = some node)
    (evaluate : Evaluator) (row : Option Nat) :
    let run := node.termsInRow ⟨t.naming, evaluate⟩ place row blanks
    Identified t run.2 (made ++ [⟨place, node, blanks.minted, run.1⟩]) := by
  cases hconstant : node.constantBlank? with
  | none =>
    obtain ⟨hkept, hle, hnew⟩ := Node.termsInRow_mints ⟨t.naming, evaluate⟩ place row hconstant blanks
    exact h.concat_of_mints hnode hconstant hkept hle hnew
  | some constant =>
    obtain ⟨seed, rule⟩ := constant
    rw [Node.termsInRow_of_constantBlank ⟨t.naming, evaluate⟩ place row hconstant]
    change Identified t (ofConstant place seed rule blanks).2
      (made ++ [⟨place, node, blanks.minted, [.blank (ofConstant place seed rule blanks).1]⟩])
    cases hlookup : blanks.constants.lookup place with
    | none =>
      let m : Made := ⟨place, node, blanks.minted, [.blank (ofConstant place seed rule blanks).1]⟩
      exact h.concat_of_unnamed hapart (m := m) hnode hconstant hlookup rfl rfl
    | some id =>
      rw [BlankNodes.ofConstant_of_some hlookup]
      exact h.concat_of_named hnode hlookup rfl

theorem Transform.follows_identified {t : Transform} (hapart : t.SeedsApart) :
    t.Follows fun before more after =>
      ∀ made, Identified t before made → Identified t after (made ++ more) where
  nothing blanks made h := by
    rw [List.append_nil]
    exact h
  append hfirst hmore made h := by
    rw [← List.append_assoc]
    exact hmore _ (hfirst made h)
  made hnode evaluate row blanks made h := h.made hapart hnode evaluate row

theorem Transform.identified_madeIn {t : Transform} (hapart : t.SeedsApart) (steps : List Step)
    (minted : Nat) :
    Identified t (t.after steps ⟨[], minted⟩) (t.madeIn steps ⟨[], minted⟩) :=
  (Transform.follows_identified hapart).steps steps ⟨[], minted⟩ [] (Identified.start t minted)

/-! ## Identity -/

namespace Identified

variable {t : Transform} {blanks : BlankNodes} {made : List Made}

theorem constantAt?_eq (h : Identified t blanks made) {m : Made} (hm : m ∈ made)
    {constant : String × LabelRule} (hconstant : m.node.constantBlank? = some constant) :
    t.constantAt? m.place = some constant := by
  rw [Transform.constantAt?, h.stands m hm]
  exact hconstant

theorem terms_eq (h : Identified t blanks made) {m : Made} (hm : m ∈ made) {seed : String}
    {rule : LabelRule} (hat : t.constantAt? m.place = some (seed, rule)) :
    ∃ first, firstMade? m.place made = some first ∧
      m.terms = [.blank ⟨constantLabel seed rule first.minted⟩] := by
  have hconstant := hat
  rw [Transform.constantAt?, h.stands m hm] at hconstant
  obtain ⟨id, hid, hterms⟩ := h.remembered m hm (seed, rule) hconstant
  obtain ⟨ownSeed, ownRule, first, hown, hfirst, hlabel⟩ := h.chosen m.place id hid
  obtain ⟨rfl, rfl⟩ := Prod.mk.inj (Option.some.inj (hat.symm.trans hown))
  exact ⟨first, hfirst, by rw [hterms, ← hlabel]⟩

/-- An anonymous constant is made at its own place only. -/
theorem place_eq_of_anonymous (h : Identified t blanks made) {m : Made} (hm : m ∈ made) {n : Nat}
    (hterms : m.terms = [.blank ⟨anonymousLabel n⟩]) {other : Made} (hother : other ∈ made)
    (hmade : .blank ⟨anonymousLabel n⟩ ∈ other.terms) : other.place = m.place := by
  refine h.own other hother m hm n hmade ?_
  rw [hterms]
  exact List.mem_singleton_self _

/-- All terms of a constant are one blank node, labelled as it was when the first of them was made. -/
theorem exists_blank (h : Identified t blanks made) {place : Address} {seed : String} {rule : LabelRule}
    {first : Made} (hat : t.constantAt? place = some (seed, rule))
    (hfirst : firstMade? place made = some first) :
    ∃ id : BlankId, (∀ m ∈ made, m.place = place → m.terms = [.blank id]) ∧
      (rule.sanitize seed ≠ "" → id.label = rule.sanitize seed) ∧
      (rule.sanitize seed = "" → id.label = anonymousLabel first.minted ∧ first.minted < blanks.minted ∧
        ∀ m ∈ made, m.place ≠ place → .blank id ∉ m.terms) := by
  have hterms : ∀ m ∈ made, m.place = place →
      m.terms = [.blank ⟨constantLabel seed rule first.minted⟩] := by
    rintro m hm rfl
    obtain ⟨own, hown, hterms⟩ := h.terms_eq hm hat
    rw [hfirst] at hown
    obtain rfl := Option.some.inj hown
    exact hterms
  obtain ⟨hmem, hplace⟩ := mem_of_firstMade? hfirst
  refine ⟨_, hterms, fun hlabel => by rw [constantLabel, if_neg hlabel], fun hlabel => ?_⟩
  have hanonymous : first.terms = [.blank ⟨anonymousLabel first.minted⟩] := by
    rw [hterms first hmem hplace, constantLabel, if_pos hlabel]
  have hcounted : first.minted < blanks.minted := by
    refine h.bounded first hmem _ ?_
    rw [hanonymous]
    exact List.mem_singleton_self _
  rw [constantLabel, if_pos hlabel]
  refine ⟨rfl, hcounted, fun m hm hne hmade => ?_⟩
  exact hne ((h.place_eq_of_anonymous hmem hanonymous hm hmade).trans hplace)

theorem terms_eq_iff (h : Identified t blanks made) (hapart : t.SeedsApart) {m m' : Made} (hm : m ∈ made)
    (hm' : m' ∈ made) {seed seed' : String} {rule rule' : LabelRule}
    (hconstant : m.node.constantBlank? = some (seed, rule))
    (hconstant' : m'.node.constantBlank? = some (seed', rule')) (hne : m.place ≠ m'.place) :
    m.terms = m'.terms ↔ rule.sanitize seed = rule'.sanitize seed' ∧ rule.sanitize seed ≠ "" := by
  have hat := h.constantAt?_eq hm hconstant
  have hat' := h.constantAt?_eq hm' hconstant'
  obtain ⟨first, -, hterms⟩ := h.terms_eq hm hat
  obtain ⟨first', -, hterms'⟩ := h.terms_eq hm' hat'
  have hlabels : m.terms = m'.terms ↔
      constantLabel seed rule first.minted = constantLabel seed' rule' first'.minted := by
    rw [hterms, hterms', List.cons.injEq, Term.blank.injEq, BlankId.mk.injEq]
    exact and_iff_left rfl
  by_cases hempty : rule.sanitize seed = ""
  · -- an anonymous constant shares its blank node with no other
    rw [constantLabel, if_pos hempty] at hterms
    refine iff_of_false (fun hsame => ?_) fun hsanitized => hsanitized.2 hempty
    refine hne (h.place_eq_of_anonymous hm hterms hm' ?_).symm
    rw [← hsame, hterms]
    exact List.mem_singleton_self _
  rw [hlabels, constantLabel, constantLabel, if_neg hempty]
  by_cases hempty' : rule'.sanitize seed' = ""
  · rw [if_pos hempty', hempty']
    exact iff_of_false (hapart.sanitize_ne hat _) fun hsanitized => hempty hsanitized.1
  · rw [if_neg hempty']
    exact (and_iff_left hempty).symm

end Identified

/-- **Constants keep one identity.** In all the life of a transform whose constants were never used, with
any anonymous labels given out before: what is noted is what evaluations make, at the nodes that stand
there. All terms that the constant at a place makes are one blank node. Its label is what sanitizing
leaves of the seed, and no check for white space changes that; if nothing is left, it is the anonymous
label that was next when the constant made its first term, and no other node makes that blank node. So
constants at two places make the same blank node if and only if their seeds are sanitized to the same
label, which is not empty. -/
theorem constants_keep_identity (t : Transform) (hapart : t.SeedsApart) (minted : Nat) (steps : List Step) :
    let made := t.madeIn steps ⟨[], minted⟩
    let after := t.after steps ⟨[], minted⟩
    (∀ (seed : String) (rule : LabelRule), BlankNodes.name seed rule =
      if rule.sanitize seed = "" then BlankNodes.mint else pure ⟨rule.sanitize seed⟩) ∧
    (∀ (σ : Type) [TripleSink σ] (evaluate : Evaluator) (scope : Scope) (pass : Pass σ) (notes : List Made),
      let run := t.apply evaluate scope pass
      t.note evaluate scope (pass.noted notes) =
        (run.1, run.2.noted (notes ++ (t.note evaluate scope).made pass))) ∧
    (∀ m ∈ made, t.nodeAt? m.place = some m.node) ∧
    (∀ place seed rule first, t.constantAt? place = some (seed, rule) → firstMade? place made = some first →
      ∃ id : BlankId, (∀ m ∈ made, m.place = place → m.terms = [.blank id]) ∧
        (rule.sanitize seed ≠ "" → id.label = rule.sanitize seed) ∧
        (rule.sanitize seed = "" → id.label = anonymousLabel first.minted ∧ first.minted < after.minted ∧
          ∀ m ∈ made, m.place ≠ place → .blank id ∉ m.terms)) ∧
    ∀ m ∈ made, ∀ m' ∈ made, ∀ seed rule seed' rule', m.node.constantBlank? = some (seed, rule) →
      m'.node.constantBlank? = some (seed', rule') → m.place ≠ m'.place →
      (m.terms = m'.terms ↔ rule.sanitize seed = rule'.sanitize seed' ∧ rule.sanitize seed ≠ "") := by
  intro made after
  have h : Identified t after made := t.identified_madeIn hapart steps minted
  refine ⟨BlankNodes.name_eq, ?_, h.stands, ?_, ?_⟩
  · intro σ _ evaluate scope pass notes
    have hfollows := Transform.follows_identified hapart
    exact (hfollows.of_related (hfollows.note evaluate scope) pass).2 notes
  · intro place seed rule first hat hfirst
    exact h.exists_blank hat hfirst
  · intro m hm m' hm' seed rule seed' rule' hconstant hconstant' hne
    exact h.terms_eq_iff hapart hm hm' hconstant hconstant' hne

/-- Two constants with the same label and an anonymous one, through a refusal, an export and a preview. -/
theorem constants_keep_identity_three_steps :
    let constant (seed : String) : ResourceMaker := .constantBlank seed .cellValue .standard
    let t : Transform := ⟨⟨Transform.defaultBase, .empty⟩,
      [.resource (constant "x") [] [(⟨none, "p"⟩, some (.resource (constant "-") [] []))],
        .resource (constant "_:x") [] []], Transform.currentVersion⟩
    let evaluate : Evaluator := fun _ _ _ => .ok .null
    let steps : List Step := [.applied evaluate (.row 0) (Store.empty (some 0)),
      .exported evaluate {} [.row 0, .row 1] (Store.empty none), .previewed evaluate {} [.row 2]]
    let made := t.madeIn steps ⟨[], 0⟩
    t.SeedsApart ∧ made.map (·.place) =
        [[0], [0, 0], [0], [0, 0], [1], [0], [0, 0], [1], [0], [0, 0], [1]] ∧
      (∀ m ∈ made, m.place = [0, 0] → m.terms = [.blank ⟨anonymousLabel 0⟩]) ∧
      ∀ m ∈ made, m.place = [0] ∨ m.place = [1] → m.terms = [.blank ⟨"x"⟩] := by
  intro constant t evaluate steps made
  have hhead (n : Nat) : (anonymousLabel n).toList.head? = some 'b' := by
    rw [anonymousLabel, String.toList_ofList]
    rfl
  have hlabels : ∀ seed ∈ ["x", "-", "_:x"],
      (LabelRule.standard.sanitize seed).toList.head? ≠ some 'b' := by
    decide +kernel
  have hseed {seed : String} (hmem : seed ∈ ["x", "-", "_:x"]) (n : Nat) :
      LabelRule.standard.sanitize seed ≠ anonymousLabel n := fun heq =>
    hlabels seed hmem (heq ▸ hhead n)
  have hapart : t.SeedsApart := by
    intro root hroot
    rcases List.mem_cons.1 hroot with rfl | hroot
    · refine ⟨?_, ⟨?_, trivial⟩, trivial⟩
      · rintro _ _ ⟨⟩
        exact hseed (by decide)
      · rintro _ _ ⟨⟩
        exact hseed (by decide)
    · obtain rfl := List.mem_singleton.1 hroot
      refine ⟨?_, trivial⟩
      rintro _ _ ⟨⟩
      exact hseed (by decide)
  have hplaces : made.map (·.place) =
      [[0], [0, 0], [0], [0, 0], [1], [0], [0, 0], [1], [0], [0, 0], [1]] := by
    decide +kernel
  obtain ⟨-, -, -, hconstants, -⟩ := constants_keep_identity t hapart 0 steps
  have hnamed {place : Address} {seed : String} (hat : t.constantAt? place = some (seed, .standard))
      (hlabel : LabelRule.standard.sanitize seed = "x") (hmade : (firstMade? place made).isSome = true) :
      ∀ m ∈ made, m.place = place → m.terms = [.blank ⟨"x"⟩] := by
    obtain ⟨first, hfirst⟩ := Option.isSome_iff_exists.1 hmade
    obtain ⟨id, hterms, hid, -⟩ := hconstants place seed .standard first hat hfirst
    have hid : id = ⟨"x"⟩ := congrArg BlankId.mk ((hid (by rw [hlabel]; decide)).trans hlabel)
    exact hid ▸ hterms
  refine ⟨hapart, hplaces, ?_, ?_⟩
  · have hempty : LabelRule.standard.sanitize "-" = "" := by decide +kernel
    have hfirst : (firstMade? [0, 0] made).map (·.minted) = some 0 := by decide +kernel
    obtain ⟨first, hfirst, hminted⟩ := Option.map_eq_some_iff.1 hfirst
    obtain ⟨id, hterms, -, hlabel⟩ := hconstants [0, 0] "-" .standard first rfl hfirst
    have hid : id = ⟨anonymousLabel 0⟩ := hminted ▸ congrArg BlankId.mk (hlabel hempty).1
    exact hid ▸ hterms
  · rintro m hm (hplace | hplace)
    · exact hnamed rfl (by decide +kernel) (by decide +kernel) m hm hplace
    · exact hnamed rfl (by decide +kernel) (by decide +kernel) m hm hplace

end TableGraph
