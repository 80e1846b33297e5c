import TableGraph.Proofs.Iri.Resolved

/-!
# References below a directory

A path without dot segments is written as it is read (`readPathFrom_append`), for nothing is taken off it
at its slashes. A reference whose path goes down from a base that ends with a slash is therefore resolved
by writing it behind the base (`resolve_below`, `text_below`).
-/

namespace TableGraph

namespace Text

theorem pieces_ne_nil (sep : Char) (s : List Char) : pieces sep s ≠ [] := by
  fun_cases pieces sep s <;> simp_all

theorem pieces_append (sep : Char) (s t : List Char) :
    pieces sep (s ++ sep :: t) = pieces sep s ++ pieces sep t := by
  induction s with
  | nil => simp [pieces]
  | cons c rest ih =>
    rw [List.cons_append, pieces, pieces, ih]
    split
    · rfl
    · cases h : pieces sep rest with
      | nil => exact absurd h (pieces_ne_nil sep rest)
      | cons piece more => rfl

end Text

namespace Iri

open Outcome (bind_eq_ok_iff map_eq_ok_iff)
open Text (pieces pieces_append)

/-! ## Dot segments -/

/-- No segment of a path is one dot or two. -/
def IsDotFree (path : List Char) : Prop :=
  ∀ segment ∈ pieces '/' path, segment ≠ ['.'] ∧ segment ≠ ['.', '.']

instance : DecidablePred IsDotFree := fun _ => inferInstanceAs (Decidable (∀ _ ∈ _, _))

theorem isDotFree_append_slash {s t : List Char} :
    IsDotFree (s ++ '/' :: t) ↔ IsDotFree s ∧ IsDotFree t := by
  rw [IsDotFree, pieces_append, List.forall_mem_append]
  rfl

theorem IsDotFree.cons {c : Char} {s : List Char} (hslash : c ≠ '/') (hdot : c ≠ '.') (h : IsDotFree s) :
    IsDotFree (c :: s) := by
  intro segment hsegment
  rw [pieces, if_neg hslash] at hsegment
  split at hsegment
  · rename_i piece more heq
    rcases List.mem_cons.1 hsegment with rfl | hmore
    · simp [hdot]
    · exact h segment (heq ▸ List.mem_cons_of_mem _ hmore)
  · simp_all

variable {hasAuthority : Bool}

theorem dropDotSegment?_of_isDotFree {written : List Char} (h : IsDotFree written.reverse) :
    dropDotSegment? hasAuthority written = none := by
  have hlast (kept : List Char) {segment : List Char} (htext : written = segment.reverse ++ '/' :: kept) :
      IsDotFree segment := by
    have hreverse : written.reverse = kept.reverse ++ '/' :: segment := by simp [htext]
    exact (isDotFree_append_slash.1 (hreverse ▸ h)).2
  unfold dropDotSegment?
  split
  · rename_i kept
    have hdots : IsDotFree ['.', '.'] := hlast kept rfl
    exact absurd hdots (by decide)
  · rename_i kept
    have hdot : IsDotFree ['.'] := hlast kept rfl
    exact absurd hdot (by decide)
  · exact absurd h (by decide)
  · exact absurd h (by decide)
  · rfl

/-! ## Reading paths -/

theorem looksLikeAuthority_of_startsPath {written : List Char}
    (h : StartsPath hasAuthority written.reverse) : looksLikeAuthority hasAuthority written = false := by
  cases hasAuthority with
  | true => rfl
  | false =>
    rw [looksLikeAuthority, Bool.not_false, Bool.true_and, beq_eq_false_iff_ne]
    intro htake
    refine h (written.reverse.drop 2) ?_
    rw [← List.take_append_drop 2 written.reverse, htake]
    rfl

theorem closePath_of_isDotFree {written : List Char} (hdots : IsDotFree written.reverse)
    (hstart : StartsPath hasAuthority written.reverse) :
    closePath hasAuthority written = .ok written.reverse := by
  rw [closePath, dropDotSegment?_of_isDotFree hdots]
  simp [looksLikeAuthority_of_startsPath hstart]

/-! ### One step -/

theorem readPathFrom_slash {written : List Char} (hdots : IsDotFree written.reverse) (inFirst : Bool)
    (rest : List Char) :
    readPathFrom hasAuthority inFirst written ('/' :: rest) =
      readPathFrom hasAuthority false ('/' :: written) rest := by
  conv => lhs; unfold readPathFrom
  simp [dropDotSegment?_of_isDotFree hdots]

theorem readPathFrom_char {c : Char} {inFirst : Bool} (hslash : c ≠ '/') (hpercent : c ≠ '%')
    (hpath : isPathChar c = true) (hfirst : inFirst = true → isPlainSegmentChar c = true)
    (written rest : List Char) :
    readPathFrom hasAuthority inFirst written (c :: rest) =
      readPathFrom hasAuthority inFirst (c :: written) rest := by
  have hallowed : (if inFirst then isPlainSegmentChar c else isPathChar c) = true := by
    cases inFirst with
    | true => exact hfirst rfl
    | false => exact hpath
  conv => lhs; unfold readPathFrom
  rw [if_neg hslash, if_neg (by simp [delimits_path.eq_false hpath]), if_neg hpercent, if_pos hallowed]

theorem readPathFrom_percent {a b : Char} (ha : isHexDigit a = true) (hb : isHexDigit b = true)
    (inFirst : Bool) (written rest : List Char) :
    readPathFrom hasAuthority inFirst written ('%' :: a :: b :: rest) =
      readPathFrom hasAuthority inFirst (b :: a :: '%' :: written) rest := by
  conv => lhs; unfold readPathFrom
  simp [endsPath, ha, hb]

theorem readPathFrom_end {rest : List Char} (hrest : ∀ c ∈ rest.head?, endsPath c = true)
    {written : List Char} (hdots : IsDotFree written.reverse)
    (hstart : StartsPath hasAuthority written.reverse) (inFirst : Bool) :
    readPathFrom hasAuthority inFirst written rest = .ok (written.reverse, rest) := by
  have hclose := closePath_of_isDotFree hdots hstart
  unfold readPathFrom
  cases rest with
  | nil => simp only [hclose, bind, Except.bind, pure, Except.pure]
  | cons c rest =>
    have hends := hrest c rfl
    have hslash : c ≠ '/' := by
      rintro rfl
      exact absurd hends (by decide)
    simp only [hslash, hends, hclose, bind, Except.bind, pure, Except.pure, if_false, if_true]

/-! ### Whole paths -/

theorem readPathFrom_segment {segment : List Char} (h : Spells isPlainSegmentChar segment)
    (inFirst : Bool) (written rest : List Char) :
    readPathFrom hasAuthority inFirst written (segment ++ rest) =
      readPathFrom hasAuthority inFirst (segment.reverse ++ written) rest := by
  induction h generalizing written with
  | nil => rfl
  | @char c s hpercent hc _ ih =>
    have hslash : c ≠ '/' := by
      rintro rfl
      exact absurd hc (by decide)
    rw [List.cons_append,
      readPathFrom_char hslash hpercent (isPathChar_of_isPlainSegmentChar hc) (fun _ => hc), ih]
    simp
  | percent ha hb _ ih =>
    rw [List.cons_append, List.cons_append, List.cons_append, readPathFrom_percent ha hb, ih]
    simp

/-- A path without dot segments is written as it comes. The first segment is behind it, or ends where it
starts. -/
theorem readPathFrom_append {path : List Char} (hpath : Spells isPathChar path) {inFirst : Bool}
    (hfirst : inFirst = true → ∀ c ∈ path.head?, c = '/') {written rest : List Char}
    (hrest : ∀ c ∈ rest.head?, endsPath c = true) (hdots : IsDotFree (written.reverse ++ path))
    (hstart : StartsPath hasAuthority (written.reverse ++ path)) :
    readPathFrom hasAuthority inFirst written (path ++ rest) = .ok (written.reverse ++ path, rest) := by
  induction hpath generalizing written inFirst with
  | nil =>
    rw [List.append_nil] at hdots hstart ⊢
    exact readPathFrom_end hrest hdots hstart inFirst
  | @char c s hpercent hc _ ih =>
    have hwritten : written.reverse ++ c :: s = (c :: written).reverse ++ s := by simp
    rw [List.cons_append]
    by_cases hslash : c = '/'
    · -- what is written so far ends in a segment of the path, and so in no dot segment
      subst hslash
      rw [readPathFrom_slash (isDotFree_append_slash.1 hdots).1, hwritten]
      rw [hwritten] at hdots hstart
      exact ih (fun h => absurd h Bool.false_ne_true) hdots hstart
    · have hinside : inFirst = false := by
        rw [Bool.eq_false_iff]
        exact fun hin => hslash (hfirst hin c rfl)
      rw [readPathFrom_char hslash hpercent hc (by simp [hinside]), hwritten]
      rw [hwritten] at hdots hstart
      exact ih (by simp [hinside]) hdots hstart
  | @percent a b s ha hb _ ih =>
    have hinside : inFirst = false := by
      rw [Bool.eq_false_iff]
      exact fun hin => absurd (hfirst hin '%' rfl) (by decide)
    have hwritten : written.reverse ++ '%' :: a :: b :: s = (b :: a :: '%' :: written).reverse ++ s := by
      simp
    rw [List.cons_append, List.cons_append, List.cons_append, readPathFrom_percent ha hb, hwritten]
    rw [hwritten] at hdots hstart
    exact ih (by simp [hinside]) hdots hstart

theorem readPathFrom_of_readPath {s path rest : List Char} (h : readPath true s = .ok (path, rest))
    {written : List Char} (hdots : IsDotFree (written.reverse ++ path))
    (hstart : StartsPath hasAuthority (written.reverse ++ path)) :
    readPathFrom hasAuthority true written s = .ok (written.reverse ++ path, rest) := by
  have hends := endsPath_of_readPath h
  obtain ⟨⟨segment, s₁⟩, hsegment, h⟩ := bind_eq_ok_iff.1 h
  obtain ⟨⟨more, s₂⟩, hmore, h⟩ := bind_eq_ok_iff.1 h
  obtain ⟨rfl, rfl⟩ := Prod.mk.inj (Except.ok.inj h)
  have hspells := spells_of_scan hmore
  have hfirst : ∀ c ∈ more.head?, c = '/' := by
    intro c hc
    obtain ⟨tail, rfl⟩ := List.head?_eq_some_iff.1 hc
    have hstop := stop_of_scan hsegment c (by simp [← append_of_scan hmore])
    have hinside := hspells.stop_head delimits_path
    rcases endsAuthority_iff.1 hstop with rfl | rfl | rfl
    · rfl
    · exact absurd hinside (by decide)
    · exact absurd hinside (by decide)
  have hwritten : written.reverse ++ (segment ++ more) = (segment.reverse ++ written).reverse ++ more := by
    simp
  rw [← append_of_scan hsegment, ← append_of_scan hmore,
    readPathFrom_segment (spells_of_scan hsegment), hwritten]
  rw [hwritten] at hdots hstart
  exact readPathFrom_append hspells (fun _ => hfirst) hends hdots hstart

/-! ## Directories -/

namespace Tail

/-- A path of whole segments, none of them one dot or two, and nothing behind it. -/
structure IsDirectory (t : Tail) : Prop where
  query : t.query = none
  fragment : t.fragment = none
  slash : t.path.getLast? = some '/'
  dots : IsDotFree t.path

/-- A path that does not start at the root, and without segments of one dot or two. -/
structure IsDescending (t : Tail) : Prop where
  path_ne : t.path ≠ []
  root : t.path.head? ≠ some '/'
  dots : IsDotFree t.path

/-- What a path leads to that goes down from the end of another. -/
def below (base t : Tail) : Tail where
  authority := base.authority
  path := base.path ++ t.path
  query := t.query
  fragment := t.fragment

variable {base t : Tail}

theorem IsDirectory.isDotFree_append (hbase : base.IsDirectory) (ht : t.IsDescending) :
    IsDotFree (base.path ++ t.path) := by
  obtain ⟨before, hpath⟩ := List.getLast?_eq_some_iff.1 hbase.slash
  have hdots := hbase.dots
  rw [hpath] at hdots ⊢
  rw [List.append_assoc]
  exact isDotFree_append_slash.2 ⟨(isDotFree_append_slash.1 hdots).1, ht.dots⟩

theorem IsDirectory.startsPath_append (hbase : base.IsDirectory) (ht : t.IsDescending)
    (hstart : StartsPath hasAuthority base.path) : StartsPath hasAuthority (base.path ++ t.path) := by
  have hslash := hbase.slash
  cases hasAuthority with
  | true =>
    intro c hc
    cases hpath : base.path with
    | nil => simp [hpath] at hslash
    | cons d path =>
      rw [hpath] at hc hstart
      exact hstart c hc
  | false =>
    intro rest heq
    rcases hpath : base.path with _ | ⟨c, _ | ⟨d, path⟩⟩
    · simp [hpath] at hslash
    · -- the second slash would be at the start of the path that goes down
      rw [hpath] at heq
      exact ht.root (by simpa using congrArg List.head? (List.cons.inj heq).2)
    · rw [hpath] at heq hstart
      simp only [List.cons_append, List.cons.injEq] at heq
      obtain ⟨rfl, rfl, -⟩ := heq
      exact hstart path rfl

theorem chars_below (hbase : base.IsDirectory) (ht : t.authority = none) :
    (base.below t).chars = base.chars ++ t.chars := by
  simp [chars, below, hbase.query, hbase.fragment, ht, authorityChars, marked]

end Tail

/-! ## Resolving -/

variable {base : Iri} {t : Tail} {reference : String}

theorem relative_of_parse (h : Reference.parse reference = .ok (.relative t)) :
    reference.toList.head? ≠ some ':' ∧ splitScheme reference.toList = none ∧
      readTail true reference.toList = .ok t := by
  unfold Reference.parse Reference.read at h
  split at h
  · cases h
  · rename_i hcolon
    split at h
    · obtain ⟨tail, -, heq⟩ := map_eq_ok_iff.1 h
      cases heq
    · rename_i hscheme
      obtain ⟨tail, htail, heq⟩ := map_eq_ok_iff.1 h
      obtain rfl := Reference.relative.inj heq
      exact ⟨hcolon, hscheme, htail⟩

theorem Tail.IsDescending.readPath_of_readTail (ht : t.IsDescending) {isRelative : Bool} {s : List Char}
    (h : readTail isRelative s = .ok t) :
    t.authority = none ∧
      ∃ rest, readPath isRelative s = .ok (t.path, rest) ∧ readQuery rest = .ok (t.query, t.fragment) := by
  have hstart := (isValid_of_readTail h).start
  obtain ⟨c, path, hpath⟩ := List.exists_cons_of_ne_nil ht.path_ne
  have hroot := ht.root
  unfold readTail at h
  split at h
  · -- behind an authority there would be the root
    obtain ⟨⟨a, s₁⟩, -, h⟩ := bind_eq_ok_iff.1 h
    obtain ⟨⟨path', s₂⟩, -, h⟩ := bind_eq_ok_iff.1 h
    obtain ⟨⟨q, f⟩, -, h⟩ := bind_eq_ok_iff.1 h
    obtain rfl := Except.ok.inj h
    rw [hpath] at hstart hroot
    exact absurd (congrArg some (hstart c rfl)) hroot
  · obtain ⟨⟨path', s₂⟩, hp, h⟩ := bind_eq_ok_iff.1 h
    obtain ⟨⟨q, f⟩, hq, h⟩ := bind_eq_ok_iff.1 h
    obtain rfl := Except.ok.inj h
    exact ⟨rfl, s₂, hp, hq⟩

theorem dropLastSegment_of_slash {path : List Char} (h : path.getLast? = some '/') :
    dropLastSegment hasAuthority path.reverse = path.reverse := by
  rw [← List.head?_reverse] at h
  obtain ⟨before, hreverse⟩ := List.head?_eq_some_iff.1 h
  rw [hreverse]
  rfl

theorem Tail.IsDescending.resolveTail_eq (ht : t.IsDescending) (base : Tail) {s rest : List Char}
    (h : t.path ++ rest = s) (hspells : Spells isPathChar t.path) :
    resolveTail base s =
      readTailFrom base.authority true (dropLastSegment base.authority.isSome base.path.reverse) s := by
  obtain ⟨c, path, hpath⟩ := List.exists_cons_of_ne_nil ht.path_ne
  have hroot := ht.root
  rw [hpath] at h hspells hroot
  have hinside := hspells.stop_head delimits_path
  have hslash : c ≠ '/' := fun heq => hroot (congrArg some heq)
  have hquestion : c ≠ '?' := by
    rintro rfl
    exact absurd hinside (by decide)
  have hnumber : c ≠ '#' := by
    rintro rfl
    exact absurd hinside (by decide)
  subst h
  simp [resolveTail, hslash, hquestion, hnumber]

/-- A relative reference that goes down from a directory is resolved by writing it behind. -/
theorem resolve_below (hbase : base.IsValid) (hdirectory : base.tail.IsDirectory) (ht : t.IsDescending)
    (h : Reference.parse reference = .ok (.relative t)) :
    resolve base reference = .ok ⟨base.scheme, base.tail.below t⟩ := by
  obtain ⟨hcolon, hscheme, htail⟩ := relative_of_parse h
  obtain ⟨-, rest, hpath, hquery⟩ := ht.readPath_of_readTail htail
  have hread : readPathFrom base.tail.authority.isSome true base.tail.path.reverse reference.toList =
      .ok (base.tail.path ++ t.path, rest) := by
    have hdots := hdirectory.isDotFree_append ht
    have hstart := hdirectory.startsPath_append ht hbase.tail.start
    rw [← List.reverse_reverse base.tail.path] at hdots hstart
    rw [readPathFrom_of_readPath hpath hdots hstart, List.reverse_reverse]
  have hresolve : resolveTail base.tail reference.toList = .ok (base.tail.below t) := by
    rw [ht.resolveTail_eq base.tail (append_of_readPath hpath) (spells_of_readPath hpath)]
    simp only [readTailFrom, dropLastSegment_of_slash hdirectory.slash, bind, Except.bind, hread, hquery]
    rfl
  simp only [resolve, if_neg hcolon, hscheme, hresolve, Except.map]

theorem text_below (hdirectory : base.tail.IsDirectory) (ht : t.IsDescending)
    (h : Reference.parse reference = .ok (.relative t)) :
    text ⟨base.scheme, base.tail.below t⟩ = base.text ++ reference := by
  obtain ⟨-, -, htail⟩ := relative_of_parse h
  have hchars := Tail.chars_below hdirectory (ht.readPath_of_readTail htail).1
  rw [chars_of_readTail htail] at hchars
  apply String.toList_inj.1
  simp [text, chars, hchars]

/-! ## A colon in front -/

theorem not_isAbsolute_colon (reference : String) : ¬ IsAbsolute (":" ++ reference) := by
  simp [IsAbsolute, parse, read, Reference.read]

theorem startsPath_root (hasAuthority : Bool) {c : Char} (hslash : c ≠ '/') (path : List Char) :
    StartsPath hasAuthority ('/' :: c :: path) := by
  cases hasAuthority with
  | true =>
    rintro d ⟨⟩
    rfl
  | false =>
    intro rest heq
    exact hslash (List.cons.inj (List.cons.inj heq).2).1

theorem resolveTail_root (base : Tail) {c : Char} (hslash : c ≠ '/') (s : List Char) :
    resolveTail base ('/' :: c :: s) = readTailFrom base.authority false ['/'] (c :: s) := by
  simp [resolveTail, hslash]

theorem resolveWithSlash_colon (base : Iri) (ht : t.IsDescending)
    (h : Reference.parse reference = .ok (.relative t)) :
    resolveWithSlash base (":" ++ reference) =
      .ok ⟨base.scheme, ⟨base.tail.authority, '/' :: ':' :: t.path, t.query, t.fragment⟩⟩ := by
  obtain ⟨-, -, htail⟩ := relative_of_parse h
  obtain ⟨-, rest, hpath, hquery⟩ := ht.readPath_of_readTail htail
  have hread : readPathFrom base.tail.authority.isSome false ['/'] (':' :: reference.toList) =
      .ok ('/' :: ':' :: t.path, rest) := by
    have hspells : Spells isPathChar (':' :: t.path) :=
      .char (by decide) (by decide) (spells_of_readPath hpath)
    have hdots : IsDotFree (['/'] ++ ':' :: t.path) :=
      isDotFree_append_slash (s := []).2 ⟨by decide, ht.dots.cons (by decide) (by decide)⟩
    rw [← append_of_readPath hpath]
    exact readPathFrom_append hspells (fun hin => absurd hin Bool.false_ne_true)
      (endsPath_of_readPath hpath) hdots (startsPath_root _ (by decide) _)
  have hresolve : resolveTail base.tail ('/' :: ':' :: reference.toList) =
      .ok ⟨base.tail.authority, '/' :: ':' :: t.path, t.query, t.fragment⟩ := by
    rw [resolveTail_root _ (by decide), readTailFrom]
    simp only [bind, Except.bind, hread, hquery]
    rfl
  have hcolon : resolve base (":" ++ reference) = .error .noScheme := by simp [resolve]
  have hslash : resolve base ("/" ++ (":" ++ reference)) =
      .ok ⟨base.scheme, ⟨base.tail.authority, '/' :: ':' :: t.path, t.query, t.fragment⟩⟩ := by
    have htext : ("/" ++ (":" ++ reference)).toList = '/' :: ':' :: reference.toList := by simp
    have hscheme : splitScheme ('/' :: ':' :: reference.toList) = none := by simp [splitScheme]
    simp [resolve, htext, hscheme, hresolve, Except.map]
  simp [resolveWithSlash, hcolon, hslash]

end Iri

end TableGraph
