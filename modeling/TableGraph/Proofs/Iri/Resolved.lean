import TableGraph.Iri.Candidate
import TableGraph.Proofs.Iri.Components

/-!
# What resolving leads to

Resolving a reference against a valid base leads to a valid IRI (`isValid_resolve`), so its text is read
as an IRI again. The invariant of a path that is being written (`IsWritten`) says that it is made of path
characters and, behind an authority, starts with a slash; taking dot segments off keeps both.
-/

namespace TableGraph.Iri

open Outcome (bind_eq_ok_iff map_eq_ok_iff)

/-! ## Paths that are being written -/

/-- Last character first, a path as far as it is written. -/
structure IsWritten (hasAuthority : Bool) (written : List Char) : Prop where
  spells : Spells isPathChar written.reverse
  slash : hasAuthority = true → written.getLast? = some '/'

variable {hasAuthority : Bool}

theorem IsWritten.push {c : Char} {written : List Char} (hc : c ≠ '%') (hpath : isPathChar c = true)
    (h : IsWritten hasAuthority written) : IsWritten hasAuthority (c :: written) where
  spells := by
    rw [List.reverse_cons]
    exact h.spells.append (.singleton hc hpath)
  slash ha := by
    rw [List.getLast?_cons, h.slash ha]
    rfl

theorem IsWritten.pushPercent {a b : Char} {written : List Char} (ha : isHexDigit a = true)
    (hb : isHexDigit b = true) (h : IsWritten hasAuthority written) :
    IsWritten hasAuthority (b :: a :: '%' :: written) where
  spells := by
    have htext : (b :: a :: '%' :: written).reverse = written.reverse ++ ['%', a, b] := by simp
    rw [htext]
    exact h.spells.append (.percent ha hb .nil)
  slash hauthority := by
    have hlast := h.slash hauthority
    simp only [List.getLast?_cons, hlast, Option.getD_some]

theorem spells_of_slash (before : List Char) {kept : List Char}
    (h : Spells isPathChar (before ++ '/' :: kept).reverse) :
    Spells isPathChar kept.reverse ∧ Spells isPathChar ('/' :: kept).reverse := by
  have htext : (before ++ '/' :: kept).reverse = kept.reverse ++ '/' :: before.reverse := by simp
  rw [htext] at h
  obtain ⟨hkept, hslash, -⟩ := h.of_append_cons (by decide) (by decide)
  rw [List.reverse_cons]
  exact ⟨hkept, hkept.append (.singleton (by decide) hslash)⟩

theorem isWritten_dropLastSegment {written : List Char} (h : Spells isPathChar written.reverse)
    (hlast : hasAuthority = true → ∀ c ∈ written.getLast?, c = '/') :
    IsWritten hasAuthority (dropLastSegment hasAuthority written) := by
  have hsplit := List.takeWhile_append_dropWhile (p := (· != '/')) (l := written)
  unfold dropLastSegment
  split
  · cases hasAuthority with
    | true => exact ⟨.singleton (by decide) (by decide), fun _ => rfl⟩
    | false => exact ⟨.nil, fun ha => absurd ha Bool.false_ne_true⟩
  · rename_i hne
    cases hdrop : written.dropWhile (· != '/') with
    | nil => exact absurd hdrop hne
    | cons c kept =>
      have hc : c = '/' := by
        have hhead := List.head?_dropWhile_not (· != '/') written
        rw [hdrop] at hhead
        simpa using hhead
      subst hc
      rw [hdrop] at hsplit
      rw [← hsplit] at h hlast
      refine ⟨(spells_of_slash _ h).2, fun ha => ?_⟩
      have hend := hlast ha
      rw [List.getLast?_append, List.getLast?_cons] at hend
      rw [List.getLast?_cons]
      exact congrArg some (hend _ rfl)

theorem IsWritten.dropDotSegment {written path : List Char} (h : IsWritten hasAuthority written)
    (hdrop : dropDotSegment? hasAuthority written = some path) : IsWritten hasAuthority path := by
  unfold dropDotSegment? at hdrop
  split at hdrop
  · rename_i kept
    obtain rfl := Option.some.inj hdrop
    refine isWritten_dropLastSegment (spells_of_slash ['.', '.'] h.spells).1 ?_
    intro ha c hc
    have hlast := h.slash ha
    rw [List.getLast?_cons, List.getLast?_cons, List.getLast?_cons, Option.mem_def.1 hc] at hlast
    exact Option.some.inj hlast
  · rename_i kept
    obtain rfl := Option.some.inj hdrop
    refine ⟨(spells_of_slash ['.'] h.spells).2, fun ha => ?_⟩
    have hlast := h.slash ha
    rw [List.getLast?_cons] at hlast
    rw [List.getLast?_cons] at hlast ⊢
    exact hlast
  · obtain rfl := Option.some.inj hdrop
    refine ⟨.nil, fun ha => ?_⟩
    cases h.slash ha
  · obtain rfl := Option.some.inj hdrop
    refine ⟨.nil, fun ha => ?_⟩
    cases h.slash ha
  · cases hdrop

theorem IsWritten.startsPath {written : List Char} (h : IsWritten hasAuthority written)
    (hlooks : looksLikeAuthority hasAuthority written = false) : StartsPath hasAuthority written.reverse := by
  cases hasAuthority with
  | true =>
    intro c hc
    rw [List.head?_reverse, h.slash rfl] at hc
    exact (Option.some.inj hc).symm
  | false =>
    intro rest heq
    rw [looksLikeAuthority, heq] at hlooks
    simp at hlooks

theorem path_of_closePath {written path : List Char} (h : IsWritten hasAuthority written)
    (hclose : closePath hasAuthority written = .ok path) :
    Spells isPathChar path ∧ StartsPath hasAuthority path := by
  have hkept : IsWritten hasAuthority ((dropDotSegment? hasAuthority written).getD written) := by
    cases hdrop : dropDotSegment? hasAuthority written with
    | none => exact h
    | some kept => exact h.dropDotSegment hdrop
  unfold closePath at hclose
  dsimp only at hclose
  split at hclose
  · cases hclose
  · rename_i hlooks
    obtain rfl := Except.ok.inj hclose
    exact ⟨hkept.spells, hkept.startsPath (by simpa using hlooks)⟩

theorem path_of_readPathFrom {inFirst : Bool} {written s path rest : List Char}
    (h : IsWritten hasAuthority written)
    (hread : readPathFrom hasAuthority inFirst written s = .ok (path, rest)) :
    Spells isPathChar path ∧ StartsPath hasAuthority path := by
  fun_induction readPathFrom hasAuthority inFirst written s generalizing path rest with
  | case1 =>
    obtain ⟨closed, hclose, heq⟩ := bind_eq_ok_iff.1 hread
    obtain ⟨rfl, rfl⟩ := Prod.mk.inj (Except.ok.inj heq)
    exact path_of_closePath h hclose
  | case2 => cases hread
  | case3 inFirst written rest kept hdrop hlooks ih => exact ih (h.dropDotSegment hdrop) hread
  | case4 inFirst written rest hdrop ih => exact ih (h.push (by decide) (by decide)) hread
  | case5 =>
    obtain ⟨closed, hclose, heq⟩ := bind_eq_ok_iff.1 hread
    obtain ⟨rfl, rfl⟩ := Prod.mk.inj (Except.ok.inj heq)
    exact path_of_closePath h hclose
  | case6 inFirst written a b rest hhex _ _ ih =>
    rw [Bool.and_eq_true] at hhex
    exact ih (h.pushPercent hhex.1 hhex.2) hread
  | case9 inFirst written c rest _ _ hpercent hallowed ih =>
    have hpath : isPathChar c = true := by
      cases inFirst with
      | true => exact isPathChar_of_isPlainSegmentChar hallowed
      | false => exact hallowed
    exact ih (h.push hpercent hpath) hread
  | case7 | case8 | case10 => cases hread

/-! ## References -/

theorem isValid_readTailFrom {authority : Option Authority} {inFirst : Bool} {written s : List Char} {t : Tail}
    (hauthority : ∀ a ∈ authority, a.IsValid) (hwritten : IsWritten authority.isSome written)
    (h : readTailFrom authority inFirst written s = .ok t) : t.IsValid := by
  obtain ⟨⟨path, rest⟩, hp, h⟩ := bind_eq_ok_iff.1 h
  obtain ⟨⟨q, f⟩, hq, h⟩ := bind_eq_ok_iff.1 h
  obtain rfl := Except.ok.inj h
  have hpath := path_of_readPathFrom hwritten hp
  have hquery := spells_of_readQuery hq
  exact ⟨hauthority, hpath.1, hpath.2, hquery.1, hquery.2⟩

theorem isWritten_slash (hasAuthority : Bool) : IsWritten hasAuthority ['/'] :=
  ⟨.singleton (by decide) (by decide), fun _ => rfl⟩

theorem isValid_resolveAuthority {s : List Char} {t : Tail} (h : resolveAuthority s = .ok t) :
    t.IsValid := by
  obtain ⟨⟨a, rest⟩, ha, h⟩ := bind_eq_ok_iff.1 h
  have hauthority : ∀ b ∈ some a, b.IsValid := by
    rintro b ⟨⟩
    exact (isValid_of_readAuthority ha).1
  dsimp only at h
  split at h
  · exact isValid_readTailFrom hauthority (isWritten_slash _) h
  · obtain ⟨⟨q, f⟩, hq, h⟩ := bind_eq_ok_iff.1 h
    obtain rfl := Except.ok.inj h
    have hquery := spells_of_readQuery hq
    exact ⟨hauthority, .nil, nofun, hquery.1, hquery.2⟩

theorem isValid_resolveAbsolute {s : List Char} {t : Tail} (h : resolveAbsolute s = .ok t) : t.IsValid := by
  unfold resolveAbsolute at h
  split at h
  · exact isValid_resolveAuthority h
  · exact isValid_readTailFrom (by simp) ⟨.nil, by simp⟩ h

theorem isValid_resolveTail {base t : Tail} {s : List Char} (hbase : base.IsValid)
    (h : resolveTail base s = .ok t) : t.IsValid := by
  unfold resolveTail at h
  split at h
  · obtain rfl := Except.ok.inj h
    exact ⟨hbase.authority, hbase.path, hbase.start, hbase.query, by simp⟩
  · obtain ⟨⟨q, f⟩, hq, h⟩ := bind_eq_ok_iff.1 h
    obtain rfl := Except.ok.inj h
    have hquery := spells_of_readQuery hq
    exact ⟨hbase.authority, hbase.path, hbase.start, hquery.1, hquery.2⟩
  · obtain ⟨⟨q, f⟩, hq, h⟩ := bind_eq_ok_iff.1 h
    obtain rfl := Except.ok.inj h
    exact ⟨hbase.authority, hbase.path, hbase.start, hbase.query, (spells_of_readQuery hq).2⟩
  · exact isValid_resolveAuthority h
  · exact isValid_readTailFrom hbase.authority (isWritten_slash _) h
  · have hkept : IsWritten base.authority.isSome
        (dropLastSegment base.authority.isSome base.path.reverse) := by
      apply isWritten_dropLastSegment
      · rw [List.reverse_reverse]
        exact hbase.path
      · intro ha c hc
        rw [List.getLast?_reverse] at hc
        have hstart := hbase.start
        rw [ha] at hstart
        exact hstart c hc
    exact isValid_readTailFrom hbase.authority hkept h

/-- What a reference means over a valid base is a valid IRI. -/
theorem isValid_resolve {base i : Iri} {reference : String} (hbase : base.IsValid)
    (h : resolve base reference = .ok i) : i.IsValid := by
  unfold resolve at h
  dsimp only at h
  split at h
  · cases h
  · split at h
    · rename_i hs
      obtain ⟨tail, ht, rfl⟩ := map_eq_ok_iff.1 h
      exact ⟨isScheme_of_splitScheme hs, isValid_resolveAbsolute ht⟩
    · obtain ⟨tail, ht, rfl⟩ := map_eq_ok_iff.1 h
      exact ⟨hbase.scheme, isValid_resolveTail hbase.tail ht⟩

theorem isValid_resolveWithSlash {base i : Iri} {candidate : String} (hbase : base.IsValid)
    (h : resolveWithSlash base candidate = .ok i) : i.IsValid := by
  unfold resolveWithSlash at h
  split at h
  · rename_i hi
    obtain rfl := Except.ok.inj h
    exact isValid_resolve hbase hi
  · split at h
    · cases h
    · exact isValid_resolve hbase h

theorem isAbsolute_of_resolveCandidate {base : Option Iri} (hbase : ∀ b ∈ base, b.IsValid)
    {candidate text : String} (h : resolveCandidate base candidate = .ok (some text)) :
    IsAbsolute text := by
  unfold resolveCandidate at h
  split at h
  · cases h
  · split at h
    · rename_i i hread
      obtain rfl := Option.some.inj (Except.ok.inj h)
      have hi : read candidate.toList = .ok i := by
        rw [Reference.parse] at hread
        rw [read, hread]
      exact ⟨i, parse_text (isValid_of_read hi)⟩
    · cases h
    · cases h
    · rename_i base _
      split at h
      · rename_i i hi
        obtain rfl := Option.some.inj (Except.ok.inj h)
        exact ⟨i, parse_text (isValid_resolveWithSlash (hbase base rfl) hi)⟩
      · cases h

end TableGraph.Iri
