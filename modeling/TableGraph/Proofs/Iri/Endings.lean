import Mathlib.Data.List.Chain
import TableGraph.Proofs.Iri.Repairable
import TableGraph.Proofs.Iri.Components

/-!
# What an IRI ends in

Cut off anywhere behind a bracketed host, the rest of an IRI is made of the characters of queries, and
of fragments behind its number sign (`exists_marked_of_suffix`). Without private-use characters, and
without two slashes at its start, it is a path with a query and a fragment (`exists_tail_of_suffix`),
which any scheme in front of it makes an IRI again.
-/

namespace TableGraph.Iri

open Unicode (category inRanges controlRanges isBlankFormat)
open Text (cutAt cutAt_eq_some_iff cutAt_eq_none_iff)

/-! ## Private-use characters -/

/-- A range of a table that stands before another. -/
def LiesBefore (r s : Nat × Nat) : Prop :=
  r.1 ≤ s.1 ∧ r.2 < s.1

instance : DecidableRel LiesBefore := fun _ _ => inferInstanceAs (Decidable (_ ∧ _))

instance : Trans LiesBefore LiesBefore LiesBefore where
  trans h h' := ⟨h.1.trans h'.1, h.2.trans_le h'.1⟩

theorem inRanges_of_mem {table : List (Nat × Nat)} (hascending : table.Pairwise LiesBefore)
    {r : Nat × Nat} (hr : r ∈ table) {n : Nat} (hlo : r.1 ≤ n) (hhi : n ≤ r.2) :
    inRanges n table = true := by
  induction table with
  | nil => cases hr
  | cons s rest ih =>
    obtain ⟨hfirst, hrest⟩ := List.pairwise_cons.1 hascending
    rw [inRanges]
    rcases List.mem_cons.1 hr with rfl | hr
    · rw [if_neg (by omega), if_pos hhi]
    · obtain ⟨hle, hlt⟩ := hfirst r hr
      rw [if_neg (by omega), if_neg (by omega)]
      exact ih hrest hr

theorem pairwise_controlRanges : controlRanges.Pairwise LiesBefore := by
  rw [← List.isChain_iff_pairwise]
  decide +kernel

theorem isUnreserved_of_isPrivate {c : Char} (h : isPrivate c = true) : isUnreserved c = false := by
  have halphanum : c.isAlphanum = false := by
    rw [Bool.eq_false_iff, Ne, isAlphanum_iff]
    simp only [isPrivate, Bool.or_eq_true, Bool.and_eq_true, decide_eq_true_eq] at h
    omega
  have hmark (d : Char) (hd : isPrivate d = false) : c ≠ d := by
    rintro rfl
    rw [h] at hd
    cases hd
  have hextended : isExtended c = false := by
    rw [Bool.eq_false_iff]
    simp only [isPrivate, Bool.or_eq_true, Bool.and_eq_true, decide_eq_true_eq] at h
    simp only [isExtended, ne_eq, Bool.or_eq_true, Bool.and_eq_true, decide_eq_true_eq]
    omega
  simp [isUnreserved, isAsciiUnreserved, halphanum, hextended, hmark '-' (by decide),
    hmark '.' (by decide), hmark '_' (by decide), hmark '~' (by decide)]

theorem isBlankFormat_of_isPrivate {c : Char} (h : isPrivate c = true) : isBlankFormat c = true := by
  have hword : isWordChar c = false := by
    by_contra hword
    have hunreserved := isUnreserved_of_isWordChar (Bool.not_eq_false _ ▸ hword)
    rw [isUnreserved_of_isPrivate h] at hunreserved
    cases hunreserved
  have hcontrol : inRanges c.toNat controlRanges = true := by
    simp only [isPrivate, Bool.or_eq_true, Bool.and_eq_true, decide_eq_true_eq] at h
    have hlow : (0xD7FC, 0xF8FF) ∈ controlRanges := by decide +kernel
    have hhigh : (0xE01F0, 0x10FFFF) ∈ controlRanges := by decide +kernel
    by_cases hle : c.toNat ≤ 0xF8FF
    · exact inRanges_of_mem pairwise_controlRanges hlow (by dsimp only; omega) hle
    · exact inRanges_of_mem pairwise_controlRanges hhigh (by dsimp only; omega) (by dsimp only; omega)
  have hother : category c ≠ .other := by
    simp only [category, hcontrol, if_true]
    repeat' split
    all_goals simp
  cases hcategory : category c with
  | letter | number => simp [isWordChar, hcategory] at hword
  | separator | control => rw [isBlankFormat, hcategory]
  | other => exact absurd hcategory hother

/-! ## Components -/

namespace Spells

variable {allowed : Char → Bool}

theorem mono_of_mem {more : Char → Bool} {s : List Char} (h : Spells allowed s)
    (hmore : ∀ c ∈ s, allowed c = true → more c = true) : Spells more s := by
  induction h with
  | nil => exact nil
  | char hc ha _ ih =>
    exact char hc (hmore _ List.mem_cons_self ha) (ih fun d hd => hmore d (List.mem_cons_of_mem _ hd))
  | percent ha hb _ ih => exact percent ha hb (ih fun d hd => hmore d (by simp [hd]))

/-- What a component ends in is a component, also where it starts in the middle of an escape. -/
theorem of_suffix (hhex : ∀ c, isHexDigit c = true → allowed c = true) {s t : List Char}
    (h : Spells allowed s) (hsuffix : t <:+ s) : Spells allowed t := by
  induction h with
  | nil =>
    obtain rfl := List.suffix_nil.1 hsuffix
    exact nil
  | char hc ha hrest ih =>
    rcases List.suffix_cons_iff.1 hsuffix with rfl | hsuffix
    · exact char hc ha hrest
    · exact ih hsuffix
  | @percent a b s ha hb hrest ih =>
    have hdigit {d : Char} (hd : isHexDigit d = true) {u : List Char} (hu : Spells allowed u) :
        Spells allowed (d :: u) := by
      refine char ?_ (hhex d hd) hu
      rintro rfl
      exact absurd hd (by decide)
    rcases List.suffix_cons_iff.1 hsuffix with rfl | hsuffix
    · exact percent ha hb hrest
    rcases List.suffix_cons_iff.1 hsuffix with rfl | hsuffix
    · exact hdigit ha (hdigit hb hrest)
    rcases List.suffix_cons_iff.1 hsuffix with rfl | hsuffix
    · exact hdigit hb hrest
    · exact ih hsuffix

theorem not_mem {c : Char} (hc : allowed c = false) (hhex : isHexDigit c = false) (hpercent : c ≠ '%')
    {s : List Char} (h : Spells allowed s) : c ∉ s := by
  intro hmem
  obtain ⟨before, after, rfl⟩ := List.append_of_mem hmem
  obtain ⟨-, hallowed, -⟩ := h.of_append_cons hhex hpercent
  rw [hc] at hallowed
  cases hallowed

theorem of_forall_mem {s : List Char} (h : ∀ c ∈ s, c ≠ '%' ∧ allowed c = true) : Spells allowed s := by
  induction s with
  | nil => exact nil
  | cons c rest ih =>
    obtain ⟨hc, ha⟩ := h c List.mem_cons_self
    exact char hc ha (ih fun d hd => h d (List.mem_cons_of_mem _ hd))

end Spells

/-! ## Inclusions of characters -/

theorem isQueryChar_of_isFragmentChar {c : Char} (h : isFragmentChar c = true) : isQueryChar c = true := by
  simp [isQueryChar, h]

theorem isQueryChar_of_isPathChar {c : Char} (h : isPathChar c = true) : isQueryChar c = true := by
  simp [isQueryChar, isFragmentChar, h]

theorem isQueryChar_of_isUserInfoChar {c : Char} (h : isUserInfoChar c = true) : isQueryChar c = true := by
  rw [isUserInfoChar, Bool.or_eq_true] at h
  rcases h with h | h <;> simp [isQueryChar, isFragmentChar, isPathChar, isPlainSegmentChar, h]

theorem isQueryChar_of_isAlphanum {c : Char} (h : c.isAlphanum = true) : isQueryChar c = true :=
  isQueryChar_of_isUserInfoChar (by simp [isUserInfoChar, isHostChar, isUnreserved, isAsciiUnreserved, h])

theorem isAlphanum_of_isHexDigit {c : Char} (h : isHexDigit c = true) : c.isAlphanum = true := by
  have hval (d : Char) : d.val.toNat = d.toNat := rfl
  simp only [isHexDigit, Bool.or_eq_true, Bool.and_eq_true, decide_eq_true_eq, Char.le_def,
    UInt32.le_iff_toNat_le, hval, Char.isDigit_iff_toNat] at h
  rw [isAlphanum_iff]
  have hdigits : '0'.toNat = 0x30 ∧ '9'.toNat = 0x39 := ⟨rfl, rfl⟩
  have hletters : 'a'.toNat = 0x61 ∧ 'f'.toNat = 0x66 ∧ 'A'.toNat = 0x41 ∧ 'F'.toNat = 0x46 :=
    ⟨rfl, rfl, rfl, rfl⟩
  omega

/-! ## Endings -/

/-- Whatever a text ends in, if it has no closing bracket, is made of the characters of queries. -/
def EndsInQueryChars (s : List Char) : Prop :=
  ∀ t, t <:+ s → ']' ∉ t → Spells isQueryChar t

theorem Spells.endsInQueryChars {s : List Char} (h : Spells isQueryChar s) : EndsInQueryChars s := by
  intro t hsuffix _
  exact h.of_suffix (fun c hc => isQueryChar_of_isAlphanum (isAlphanum_of_isHexDigit hc)) hsuffix

theorem suffix_append_cases {s t u : List Char} (h : u <:+ s ++ t) :
    u <:+ t ∨ ∃ v, v <:+ s ∧ u = v ++ t := by
  obtain ⟨before, happend⟩ := h
  rcases List.append_eq_append_iff.1 happend with ⟨v, hs, hu⟩ | ⟨w, -, ht⟩
  · exact .inr ⟨v, ⟨before, hs.symm⟩, hu⟩
  · exact .inl ⟨w, ht.symm⟩

theorem EndsInQueryChars.append {s t : List Char} (hs : EndsInQueryChars s) (ht : Spells isQueryChar t) :
    EndsInQueryChars (s ++ t) := by
  intro u hsuffix hbracket
  rcases suffix_append_cases hsuffix with hsuffix | ⟨v, hv, rfl⟩
  · exact ht.endsInQueryChars u hsuffix hbracket
  · exact (hs v hv fun hmem => hbracket (List.mem_append_left _ hmem)).append ht

theorem endsInQueryChars_bracket (s : List Char) : EndsInQueryChars (s ++ [']']) := by
  intro t hsuffix hbracket
  rcases List.suffix_concat_iff.1 hsuffix with rfl | ⟨u, rfl, -⟩
  · exact .nil
  · exact absurd (List.mem_append_right u List.mem_cons_self) hbracket

/-- An IRI up to its number sign. -/
def opening (i : Iri) : List Char :=
  i.scheme ++ ':' :: (authorityChars i.tail.authority ++ i.tail.path ++ marked '?' i.tail.query)

theorem chars_eq_opening (i : Iri) : i.chars = i.opening ++ marked '#' i.tail.fragment := by
  simp [chars, Tail.chars, opening]

theorem spells_scheme {scheme : List Char} (h : IsScheme scheme) : Spells isQueryChar scheme := by
  refine .of_forall_mem fun c hc => ?_
  have hscheme := h.2 c hc
  constructor
  · rintro rfl
    exact absurd hscheme (by decide)
  · simp only [isSchemeChar, Bool.or_eq_true, beq_iff_eq] at hscheme
    rcases hscheme with ((h | rfl) | rfl) | rfl
    · exact isQueryChar_of_isAlphanum h
    all_goals decide

theorem endsInQueryChars_opening {i : Iri} (h : i.IsValid) : EndsInQueryChars i.opening := by
  have hscheme := spells_scheme h.scheme
  have hpath := h.tail.path.mono fun _ => isQueryChar_of_isPathChar
  have hquery : Spells isQueryChar (marked '?' i.tail.query) := by
    cases hq : i.tail.query with
    | none => exact .nil
    | some q => exact .char (by decide) (by decide) (h.tail.query q hq)
  cases hauthority : i.tail.authority with
  | none =>
    rw [opening, hauthority]
    exact (hscheme.append (.char (by decide) (by decide) (hpath.append hquery))).endsInQueryChars
  | some a =>
    have ha := h.tail.authority a hauthority
    have huser : Spells isQueryChar (userInfoChars a.userInfo) := by
      cases hu : a.userInfo with
      | none => exact .nil
      | some u =>
        exact ((ha.userInfo u hu).mono fun _ => isQueryChar_of_isUserInfoChar).append
          (.singleton (by decide) (by decide))
    have hport : Spells isQueryChar (marked ':' a.port) := by
      cases hp : a.port with
      | none => exact .nil
      | some p =>
        have hdigits : ∀ c ∈ p, c.isAlphanum = true := fun c hc => by
          simp [Char.isAlphanum, ha.port p hp c hc]
        have hp := (spells_of_isAlphanum hdigits).mono fun _ hc =>
          isQueryChar_of_isUserInfoChar (isUserInfoChar_of_isHostChar hc)
        exact .char (by decide) (by decide) hp
    have hrest := hport.append (hpath.append hquery)
    have htext : i.opening = i.scheme ++ ':' :: '/' :: '/' :: (userInfoChars a.userInfo ++
        (a.host ++ (marked ':' a.port ++ (i.tail.path ++ marked '?' i.tail.query)))) := by
      simp [opening, hauthority, authorityChars, Authority.chars]
    rcases ha.host with ⟨literal, hliteral, -, -⟩ | hname
    · have hbracket : i.opening = (i.scheme ++ ':' :: '/' :: '/' :: (userInfoChars a.userInfo ++
          '[' :: literal) ++ [']']) ++
            (marked ':' a.port ++ (i.tail.path ++ marked '?' i.tail.query)) := by
        simp [htext, hliteral]
      rw [hbracket]
      exact (endsInQueryChars_bracket _).append hrest
    · have hhost := hname.mono fun _ hc => isQueryChar_of_isUserInfoChar (isUserInfoChar_of_isHostChar hc)
      rw [htext]
      exact (hscheme.append (.char (by decide) (by decide) (.char (by decide) (by decide)
        (.char (by decide) (by decide) (huser.append (hhost.append hrest)))))).endsInQueryChars

/-- What an IRI ends in, if it has no closing bracket, are characters of queries, and behind a number
sign characters of fragments. -/
theorem exists_marked_of_suffix {i : Iri} (h : i.IsValid) {s : List Char} (hsuffix : s <:+ i.chars)
    (hbracket : ']' ∉ s) :
    ∃ before fragment, s = before ++ marked '#' fragment ∧ Spells isQueryChar before ∧
      ∀ f ∈ fragment, Spells isFragmentChar f := by
  rw [chars_eq_opening] at hsuffix
  rcases suffix_append_cases hsuffix with hsuffix | ⟨v, hv, rfl⟩
  · cases hfragment : i.tail.fragment with
    | none =>
      rw [hfragment] at hsuffix
      obtain rfl := List.suffix_nil.1 hsuffix
      exact ⟨[], none, rfl, .nil, by simp⟩
    | some f =>
      have hf := h.tail.fragment f hfragment
      rw [hfragment] at hsuffix
      rcases List.suffix_cons_iff.1 hsuffix with rfl | hsuffix
      · exact ⟨[], some f, rfl, .nil, by simpa using hf⟩
      · have hs := (hf.mono fun _ => isQueryChar_of_isFragmentChar).endsInQueryChars s hsuffix hbracket
        exact ⟨s, none, by simp [marked], hs, by simp⟩
  · exact ⟨v, i.tail.fragment, rfl,
      endsInQueryChars_opening h v hv fun hmem => hbracket (List.mem_append_left _ hmem), h.tail.fragment⟩

/-- What an IRI ends in, if it has no closing bracket, nothing to take out of names and no two slashes
at its start, is what may follow a scheme. -/
theorem exists_tail_of_suffix {i : Iri} (h : i.IsValid) {s : List Char} (hsuffix : s <:+ i.chars)
    (hbracket : ']' ∉ s) (hstripped : ∀ c ∈ s, isBlankFormat c = false) (hslashes : ¬ ['/', '/'] <+: s) :
    ∃ t : Tail, t.IsValid ∧ t.authority = none ∧ t.chars = s := by
  obtain ⟨before, fragment, rfl, hbefore, hfragment⟩ := exists_marked_of_suffix h hsuffix hbracket
  have hpublic : Spells isFragmentChar before := by
    refine hbefore.mono_of_mem fun c hc hquery => ?_
    rcases Bool.or_eq_true _ _ ▸ hquery with hc' | hprivate
    · exact hc'
    · have hblank := hstripped c (List.mem_append_left _ hc)
      rw [isBlankFormat_of_isPrivate hprivate] at hblank
      cases hblank
  have hpath {path : List Char} (hmark : '?' ∉ path) (hpath : Spells isFragmentChar path) :
      Spells isPathChar path := by
    refine hpath.mono_of_mem fun c hc hfragment => ?_
    rcases Bool.or_eq_true _ _ ▸ hfragment with hc' | heq
    · exact hc'
    · exact absurd (beq_iff_eq.1 heq ▸ hc) hmark
  have hstart {path rest : List Char} (htext : before ++ marked '#' fragment = path ++ rest) :
      StartsPath false path := by
    rintro more rfl
    exact hslashes ⟨more ++ rest, by simp [htext]⟩
  cases hcut : cutAt '?' before with
  | none =>
    have hmark := cutAt_eq_none_iff.1 hcut
    refine ⟨⟨none, before, none, fragment⟩,
      ⟨by simp, hpath hmark hpublic, hstart rfl, by simp, hfragment⟩, rfl, ?_⟩
    simp [Tail.chars, authorityChars, marked]
  | some parts =>
    obtain ⟨path, query⟩ := parts
    obtain ⟨hmark, rfl⟩ := cutAt_eq_some_iff.1 hcut
    obtain ⟨hp, -, hq⟩ := hpublic.of_append_cons (by decide) (by decide)
    refine ⟨⟨none, path, some query, fragment⟩,
      ⟨by simp, hpath hmark hp, hstart (List.append_assoc ..), ?_, hfragment⟩, rfl, ?_⟩
    · rintro q ⟨⟩
      exact hq.mono fun _ => isQueryChar_of_isFragmentChar
    · simp [Tail.chars, authorityChars, marked]

end TableGraph.Iri
