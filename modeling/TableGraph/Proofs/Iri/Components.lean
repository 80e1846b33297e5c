import Mathlib.Data.List.TakeWhile
import TableGraph.Iri.Spelling

/-!
# What the components of an IRI are made of

`Spells` is the grammar of a component: allowed characters, and percent signs with two hexadecimal
digits. The grammar of an IRI (`IsValid`) is that of its components, with what may stand next to what.
Reading makes nothing else (`isValid_of_read`), and what it makes can be written and read again, whatever
follows each component (`read_chars`).
-/

namespace TableGraph.Iri

open Outcome (bind_eq_ok_iff map_eq_ok_iff)

/-! ## Characters of a component -/

/-- Allowed characters, and percent signs with two hexadecimal digits. -/
inductive Spells (allowed : Char → Bool) : List Char → Prop
  | nil : Spells allowed []
  | char {c : Char} {s : List Char} :
    c ≠ '%' → allowed c = true → Spells allowed s → Spells allowed (c :: s)
  | percent {a b : Char} {s : List Char} :
    isHexDigit a = true → isHexDigit b = true → Spells allowed s → Spells allowed ('%' :: a :: b :: s)

/-- Where a scan stops, nothing of the component can stand. -/
structure Delimits (stop allowed : Char → Bool) : Prop where
  percent : stop '%' = false
  disjoint : ∀ c, stop c = true → allowed c = false

theorem Delimits.eq_false {stop allowed : Char → Bool} (h : Delimits stop allowed) {c : Char}
    (hc : allowed c = true) : stop c = false := by
  cases hstop : stop c with
  | false => rfl
  | true =>
    rw [h.disjoint c hstop] at hc
    cases hc

theorem endsAuthority_iff {c : Char} : endsAuthority c = true ↔ c = '/' ∨ c = '?' ∨ c = '#' := by
  simp [endsAuthority, or_assoc]

theorem delimits_userInfo :
    Delimits (fun c => c == '@' || c == '[' || endsAuthority c) isUserInfoChar where
  percent := by decide
  disjoint c hc := by
    simp only [Bool.or_eq_true, beq_iff_eq, endsAuthority_iff] at hc
    rcases hc with (rfl | rfl) | rfl | rfl | rfl <;> decide

theorem delimits_host : Delimits (fun c => c == ':' || endsAuthority c) isHostChar where
  percent := by decide
  disjoint c hc := by
    simp only [Bool.or_eq_true, beq_iff_eq, endsAuthority_iff] at hc
    rcases hc with rfl | rfl | rfl | rfl <;> decide

theorem delimits_path : Delimits endsPath isPathChar where
  percent := by decide
  disjoint c hc := by
    simp only [endsPath, Bool.or_eq_true, beq_iff_eq] at hc
    rcases hc with rfl | rfl <;> decide

theorem delimits_query : Delimits (· == '#') isQueryChar where
  percent := by decide
  disjoint c hc := by
    obtain rfl := beq_iff_eq.1 hc
    decide

theorem delimits_fragment : Delimits (fun _ => false) isFragmentChar where
  percent := rfl
  disjoint _ hc := absurd hc Bool.false_ne_true

namespace Spells

variable {allowed : Char → Bool}

theorem mono {more : Char → Bool} (hmore : ∀ c, allowed c = true → more c = true) {s : List Char}
    (h : Spells allowed s) : Spells more s := by
  induction h with
  | nil => exact nil
  | char hc ha _ ih => exact char hc (hmore _ ha) ih
  | percent ha hb _ ih => exact percent ha hb ih

theorem append {s t : List Char} (hs : Spells allowed s) (ht : Spells allowed t) :
    Spells allowed (s ++ t) := by
  induction hs with
  | nil => exact ht
  | char hc ha _ ih => exact char hc ha ih
  | percent ha hb _ ih => exact percent ha hb ih

theorem singleton {c : Char} (hc : c ≠ '%') (ha : allowed c = true) : Spells allowed [c] :=
  char hc ha nil

theorem stop_head {stop : Char → Bool} (hstop : Delimits stop allowed) {c : Char} {s : List Char}
    (h : Spells allowed (c :: s)) : stop c = false := by
  cases h with
  | char _ hc _ => exact hstop.eq_false hc
  | percent => exact hstop.percent

/-- A component can be cut at any character that is no percent sign and none of its digits. -/
theorem of_append_cons {s t : List Char} {c : Char} (hc : isHexDigit c = false) (hpercent : c ≠ '%')
    (h : Spells allowed (s ++ c :: t)) : Spells allowed s ∧ allowed c = true ∧ Spells allowed t := by
  generalize hu : s ++ c :: t = u at h
  induction h generalizing s with
  | nil => simp at hu
  | char hd ha hrest ih =>
    cases s with
    | nil =>
      obtain ⟨rfl, rfl⟩ := List.cons.inj hu
      exact ⟨nil, ha, hrest⟩
    | cons d s =>
      obtain ⟨rfl, htail⟩ := List.cons.inj hu
      obtain ⟨hs, hmid, ht⟩ := ih htail
      exact ⟨char hd ha hs, hmid, ht⟩
  | percent ha hb hrest ih =>
    -- the cut is neither at the sign nor at one of its digits
    match s, hu with
    | [], hu => exact absurd (List.cons.inj hu).1 hpercent
    | [_], hu =>
      obtain ⟨-, hu⟩ := List.cons.inj hu
      rw [← (List.cons.inj hu).1, hc] at ha
      cases ha
    | [_, _], hu =>
      obtain ⟨-, hu⟩ := List.cons.inj hu
      obtain ⟨-, hu⟩ := List.cons.inj hu
      rw [← (List.cons.inj hu).1, hc] at hb
      cases hb
    | d :: e :: f :: s, hu =>
      simp only [List.cons_append, List.cons.injEq] at hu
      obtain ⟨rfl, rfl, rfl, htail⟩ := hu
      obtain ⟨hs, hmid, ht⟩ := ih htail
      exact ⟨percent ha hb hs, hmid, ht⟩

theorem scan_append {stop : Char → Bool} (hstop : Delimits stop allowed) {s : List Char}
    (h : Spells allowed s) (rest : List Char) (hrest : ∀ c ∈ rest.head?, stop c = true) :
    scan allowed stop (s ++ rest) = .ok (s, rest) := by
  induction h with
  | nil =>
    cases rest with
    | nil => rfl
    | cons c rest =>
      rw [List.nil_append]
      unfold scan
      rw [if_pos (hrest c rfl)]
  | @char c s hc ha _ ih =>
    rw [List.cons_append]
    unfold scan
    rw [if_neg (by simp [hstop.eq_false ha]), if_neg hc, if_pos ha, ih]
    rfl
  | percent ha hb _ ih =>
    rw [List.cons_append, List.cons_append, List.cons_append]
    unfold scan
    rw [if_neg (by simp [hstop.percent]), if_pos rfl]
    simp only [ha, hb, Bool.and_self, if_true, ih]
    rfl

theorem scan_self {stop : Char → Bool} (hstop : Delimits stop allowed) {s : List Char}
    (h : Spells allowed s) : scan allowed stop s = .ok (s, []) := by
  have happend := h.scan_append hstop [] (by simp)
  rwa [List.append_nil] at happend

end Spells

theorem spells_of_scan {allowed stop : Char → Bool} {s taken left : List Char}
    (h : scan allowed stop s = .ok (taken, left)) : Spells allowed taken := by
  fun_induction scan allowed stop s generalizing taken left with
  | case1 | case2 =>
    obtain ⟨rfl, rfl⟩ := Prod.mk.inj (Except.ok.inj h)
    exact .nil
  | case3 a b rest hhex _ ih =>
    obtain ⟨⟨t, l⟩, hs, heq⟩ := map_eq_ok_iff.1 h
    obtain ⟨rfl, rfl⟩ := Prod.mk.inj heq
    rw [Bool.and_eq_true] at hhex
    exact .percent hhex.1 hhex.2 (ih hs)
  | case6 c rest _ hpercent hallowed ih =>
    obtain ⟨⟨t, l⟩, hs, heq⟩ := map_eq_ok_iff.1 h
    obtain ⟨rfl, rfl⟩ := Prod.mk.inj heq
    exact .char hpercent hallowed (ih hs)
  | case4 | case5 | case7 => simp at h

/-! ## Authorities -/

/-- A host: an address in brackets, or a name. -/
def IsHost (host : List Char) : Prop :=
  (∃ literal, host = '[' :: literal ++ [']'] ∧ ']' ∉ literal ∧ literalFault literal = none) ∨
    Spells isHostChar host

structure Authority.IsValid (a : Authority) : Prop where
  userInfo : ∀ u ∈ a.userInfo, Spells isUserInfoChar u
  host : IsHost a.host
  port : ∀ p ∈ a.port, ∀ c ∈ p, c.isDigit = true

theorem isDigit_of_mem_toString {n : Nat} {c : Char} (h : c ∈ (toString n).toList) : c.isDigit = true := by
  rw [Nat.toString_eq_ofList_toDigits, String.toList_ofList] at h
  exact Nat.isDigit_of_mem_toDigits (by decide) (by decide) h

theorem isUserInfoChar_of_isHostChar {c : Char} (h : isHostChar c = true) : isUserInfoChar c = true := by
  simp [isUserInfoChar, h]

theorem spells_of_isAlphanum {s : List Char} (h : ∀ c ∈ s, c.isAlphanum = true) :
    Spells isHostChar s := by
  induction s with
  | nil => exact .nil
  | cons c rest ih =>
    have hc := h c (by simp)
    have hhost : isHostChar c = true := by
      simp [isHostChar, isUnreserved, isAsciiUnreserved, hc]
    refine .char ?_ hhost (ih fun d hd => h d (by simp [hd]))
    rintro rfl
    revert hc
    decide

theorem spells_userInfo_hostPort {host : List Char} {port : Option (List Char)}
    (hhost : Spells isHostChar host) (hport : ∀ p ∈ port, ∀ c ∈ p, c.isDigit = true) :
    Spells isUserInfoChar (host ++ marked ':' port) := by
  refine (hhost.mono fun _ => isUserInfoChar_of_isHostChar).append ?_
  cases port with
  | none => exact .nil
  | some p =>
    have hdigits : ∀ c ∈ p, c.isAlphanum = true := fun c hc => by
      simp [Char.isAlphanum, hport p rfl c hc]
    have hp := (spells_of_isAlphanum hdigits).mono fun _ => isUserInfoChar_of_isHostChar
    exact .char (by decide) (by decide) hp

theorem head?_hostPort (port : Option (List Char)) {rest : List Char}
    (hrest : ∀ c ∈ rest.head?, endsAuthority c = true) :
    ∀ c ∈ (marked ':' port ++ rest).head?, c = ':' ∨ endsAuthority c = true := by
  intro c hc
  cases port with
  | none => exact .inr (hrest c hc)
  | some p =>
    have hcolon : ':' = c := by simpa [marked] using hc
    exact .inl hcolon.symm

theorem exists_scan_host {host rest : List Char} {port : Option (List Char)} (hhost : IsHost host)
    (hport : ∀ p ∈ port, ∀ c ∈ p, c.isDigit = true) (hrest : ∀ c ∈ rest.head?, endsAuthority c = true) :
    ∃ taken left, left.head? ≠ some '@' ∧
      scan isUserInfoChar (fun c => c == '@' || c == '[' || endsAuthority c)
        (host ++ marked ':' port ++ rest) = .ok (taken, left) := by
  rcases hhost with ⟨literal, rfl, -, -⟩ | hname
  · -- a bracket ends the search at once
    have hscan := Spells.nil.scan_append delimits_userInfo
      ('[' :: literal ++ [']'] ++ marked ':' port ++ rest) (by simp)
    exact ⟨[], _, by simp, hscan⟩
  · have hscan := (spells_userInfo_hostPort hname hport).scan_append delimits_userInfo rest
      fun c hc => by simp [hrest c hc]
    refine ⟨_, rest, fun hat => ?_, hscan⟩
    exact absurd (hrest '@' hat) (by decide)

theorem readUserInfo_append {a : Authority} (h : a.IsValid) {rest : List Char}
    (hrest : ∀ c ∈ rest.head?, endsAuthority c = true) :
    readUserInfo (a.chars ++ rest) = .ok (a.userInfo, a.host ++ marked ':' a.port ++ rest) := by
  obtain ⟨userInfo, host, port⟩ := a
  cases userInfo with
  | some u =>
    have hscan := (h.userInfo u rfl).scan_append delimits_userInfo
      ('@' :: (host ++ marked ':' port ++ rest)) (by simp)
    have htext : Authority.chars ⟨some u, host, port⟩ ++ rest =
        u ++ '@' :: (host ++ marked ':' port ++ rest) := by
      simp [Authority.chars, userInfoChars]
    rw [htext, readUserInfo, hscan]
    rfl
  | none =>
    have htext : Authority.chars ⟨none, host, port⟩ ++ rest = host ++ marked ':' port ++ rest := by
      simp [Authority.chars, userInfoChars]
    obtain ⟨taken, left, hleft, hscan⟩ := exists_scan_host h.host h.port hrest
    rw [htext, readUserInfo, hscan]
    split
    · rename_i heq
      cases heq
    · rename_i heq
      obtain ⟨rfl, rfl⟩ := Prod.mk.inj (Except.ok.inj heq)
      exact absurd rfl hleft
    · rfl

theorem readHost_append {host rest : List Char} (h : IsHost host)
    (hrest : ∀ c ∈ rest.head?, c = ':' ∨ endsAuthority c = true) :
    readHost (host ++ rest) = .ok (host, rest) := by
  rcases h with ⟨literal, rfl, hbracket, hfault⟩ | hname
  · have hall : ∀ c ∈ literal, (c != ']') = true := by
      intro c hc
      simpa using fun (heq : c = ']') => hbracket (heq ▸ hc)
    have htake : (literal ++ ']' :: rest).takeWhile (· != ']') = literal := by
      rw [List.takeWhile_append_of_pos hall]
      simp
    have hdrop : (literal ++ ']' :: rest).dropWhile (· != ']') = ']' :: rest := by
      rw [List.dropWhile_append_of_pos hall]
      simp
    have htext : ('[' :: literal ++ [']']) ++ rest = '[' :: (literal ++ ']' :: rest) := by simp
    rw [htext, readHost]
    simp only [htake, hdrop, hfault]
    cases rest with
    | nil => rfl
    | cons c rest =>
      have hc : (c == ':' || endsAuthority c) = true := by simpa using hrest c rfl
      simp [hc]
  · have hscan := hname.scan_append delimits_host rest fun c hc => by simpa using hrest c hc
    have hopen : ∀ inner, host ++ rest ≠ '[' :: inner := by
      intro inner heq
      cases host with
      | nil =>
        rw [List.nil_append] at heq
        exact absurd (hrest '[' (by simp [heq])) (by decide)
      | cons c host =>
        obtain ⟨rfl, -⟩ := List.cons.inj heq
        cases hname with
        | char _ hc _ => exact absurd hc (by decide)
    unfold readHost
    split
    · rename_i inner heq
      exact absurd heq (hopen inner)
    · exact hscan

theorem readPort_append {port : Option (List Char)} (h : ∀ p ∈ port, ∀ c ∈ p, c.isDigit = true)
    {rest : List Char} (hrest : ∀ c ∈ rest.head?, endsAuthority c = true) :
    readPort (marked ':' port ++ rest) = .ok (port, rest) := by
  cases port with
  | none =>
    rw [marked, List.nil_append]
    unfold readPort
    split
    · exact absurd (hrest ':' rfl) (by decide)
    · rfl
  | some p =>
    have hp := h p rfl
    rw [marked, List.cons_append, readPort]
    cases rest with
    | nil =>
      have hdrop : (p ++ []).dropWhile Char.isDigit = [] := by
        rw [List.dropWhile_append_of_pos hp]
        rfl
      rw [hdrop, List.append_nil]
    | cons c rest =>
      have hends := hrest c rfl
      have hc : c.isDigit = false := by
        rcases endsAuthority_iff.1 hends with rfl | rfl | rfl <;> decide
      have hdrop : (p ++ c :: rest).dropWhile Char.isDigit = c :: rest := by
        rw [List.dropWhile_append_of_pos hp, List.dropWhile_cons_of_neg (by simp [hc])]
      have htake : (p ++ c :: rest).takeWhile Char.isDigit = p := by
        rw [List.takeWhile_append_of_pos hp, List.takeWhile_cons_of_neg (by simp [hc]), List.append_nil]
      simp only [hdrop, htake, hends, if_true]

theorem readAuthority_append {a : Authority} (h : a.IsValid) {rest : List Char}
    (hrest : ∀ c ∈ rest.head?, endsAuthority c = true) :
    readAuthority (a.chars ++ rest) = .ok (a, rest) := by
  have hhost := readHost_append h.host (head?_hostPort a.port hrest)
  have hport := readPort_append h.port hrest
  rw [readAuthority, readUserInfo_append h hrest, List.append_assoc]
  simp only [bind, Except.bind, hhost, hport]
  rfl

theorem isHost_of_readHost {s host rest : List Char} (h : readHost s = .ok (host, rest)) :
    IsHost host ∧ ∀ c ∈ rest.head?, c = ':' ∨ endsAuthority c = true := by
  unfold readHost at h
  split at h
  · rename_i inner
    split at h
    · simp at h
    · rename_i bracket more hdrop
      have hbracket : bracket = ']' := by
        have hhead := List.head?_dropWhile_not (· != ']') inner
        rw [hdrop] at hhead
        simpa using hhead
      have hnotin : ']' ∉ inner.takeWhile (· != ']') := by
        intro hmem
        exact absurd (List.all_eq_true.1 List.all_takeWhile _ hmem) (by simp)
      simp only at h
      split at h
      · simp at h
      · rename_i hfault
        have hhost : IsHost ('[' :: inner.takeWhile (· != ']') ++ [bracket]) :=
          .inl ⟨_, by rw [hbracket], hnotin, hfault⟩
        split at h
        · rename_i hnone
          obtain ⟨rfl, rfl⟩ := Prod.mk.inj (Except.ok.inj h)
          exact ⟨hhost, by simp [hnone]⟩
        · rename_i c hsome
          split at h
          · rename_i hc
            obtain ⟨rfl, rfl⟩ := Prod.mk.inj (Except.ok.inj h)
            refine ⟨hhost, fun d hd => ?_⟩
            obtain rfl : c = d := by simpa [hsome] using hd
            simpa using hc
          · simp at h
  · exact ⟨.inr (spells_of_scan h), fun c hc => by simpa using stop_of_scan h c hc⟩

theorem isDigit_of_readPort {s rest : List Char} {port : Option (List Char)}
    (hs : ∀ c ∈ s.head?, c = ':' ∨ endsAuthority c = true) (h : readPort s = .ok (port, rest)) :
    (∀ p ∈ port, ∀ c ∈ p, c.isDigit = true) ∧ ∀ c ∈ rest.head?, endsAuthority c = true := by
  unfold readPort at h
  split at h
  · rename_i more
    generalize hd : more.dropWhile Char.isDigit = left at h
    cases left with
    | nil =>
      obtain ⟨rfl, rfl⟩ := Prod.mk.inj (Except.ok.inj h)
      have hall : ∀ c ∈ more, c.isDigit = true := List.dropWhile_eq_nil_iff.1 hd
      exact ⟨by simpa using hall, by simp⟩
    | cons c left =>
      simp only at h
      split at h
      · rename_i hc
        obtain ⟨rfl, rfl⟩ := Prod.mk.inj (Except.ok.inj h)
        have hall : ∀ c ∈ more.takeWhile Char.isDigit, c.isDigit = true :=
          List.all_eq_true.1 List.all_takeWhile
        exact ⟨by simpa using hall, by simpa using hc⟩
      · simp at h
  · rename_i hcolon
    obtain ⟨rfl, rfl⟩ := Prod.mk.inj (Except.ok.inj h)
    refine ⟨by simp, fun c hc => (hs c hc).resolve_left ?_⟩
    rintro rfl
    obtain ⟨rest, rfl⟩ := List.head?_eq_some_iff.1 hc
    exact hcolon rest rfl

theorem isValid_of_readAuthority {s rest : List Char} {a : Authority}
    (h : readAuthority s = .ok (a, rest)) :
    a.IsValid ∧ ∀ c ∈ rest.head?, endsAuthority c = true := by
  obtain ⟨⟨u, s₁⟩, hu, h⟩ := bind_eq_ok_iff.1 h
  obtain ⟨⟨host, s₂⟩, hh, h⟩ := bind_eq_ok_iff.1 h
  obtain ⟨⟨port, s₃⟩, hp, h⟩ := bind_eq_ok_iff.1 h
  obtain ⟨rfl, rfl⟩ := Prod.mk.inj (Except.ok.inj h)
  obtain ⟨hhost, hs₂⟩ := isHost_of_readHost hh
  obtain ⟨hport, hrest⟩ := isDigit_of_readPort hs₂ hp
  refine ⟨⟨?_, hhost, hport⟩, hrest⟩
  unfold readUserInfo at hu
  split at hu
  · simp at hu
  · rename_i hscan
    obtain ⟨rfl, rfl⟩ := Prod.mk.inj (Except.ok.inj hu)
    simpa using spells_of_scan hscan
  · obtain ⟨rfl, rfl⟩ := Prod.mk.inj (Except.ok.inj hu)
    simp

/-! ## Tails -/

/-- How a path starts: behind an authority with a slash if at all, and otherwise not like one. -/
def StartsPath (hasAuthority : Bool) (path : List Char) : Prop :=
  if hasAuthority then ∀ c ∈ path.head?, c = '/' else ∀ rest, path ≠ '/' :: '/' :: rest

structure Tail.IsValid (t : Tail) : Prop where
  authority : ∀ a ∈ t.authority, a.IsValid
  path : Spells isPathChar t.path
  start : StartsPath t.authority.isSome t.path
  query : ∀ q ∈ t.query, Spells isQueryChar q
  fragment : ∀ f ∈ t.fragment, Spells isFragmentChar f

theorem readFragment_self {fragment : List Char} (h : Spells isFragmentChar fragment) :
    readFragment fragment = .ok fragment := by
  rw [readFragment, h.scan_self delimits_fragment]
  rfl

theorem readQuery_marked {query fragment : Option (List Char)}
    (hq : ∀ q ∈ query, Spells isQueryChar q) (hf : ∀ f ∈ fragment, Spells isFragmentChar f) :
    readQuery (marked '?' query ++ marked '#' fragment) = .ok (query, fragment) := by
  cases query with
  | none =>
    cases fragment with
    | none => rfl
    | some f =>
      rw [marked, marked, List.nil_append, readQuery, readFragment_self (hf f rfl)]
      rfl
  | some q =>
    cases fragment with
    | none =>
      have hscan := (hq q rfl).scan_self delimits_query
      rw [marked, marked, List.append_nil, readQuery, hscan]
      rfl
    | some f =>
      have hscan := (hq q rfl).scan_append delimits_query ('#' :: f) (by simp)
      rw [marked, marked, List.cons_append, readQuery, hscan]
      simp only [bind, Except.bind, readFragment_self (hf f rfl)]
      rfl

theorem head?_marked (query fragment : Option (List Char)) :
    ∀ c ∈ (marked '?' query ++ marked '#' fragment).head?, endsPath c = true := by
  intro c hc
  cases query with
  | some q =>
    obtain rfl : '?' = c := by simpa [marked] using hc
    rfl
  | none =>
    cases fragment with
    | some f =>
      obtain rfl : '#' = c := by simpa [marked] using hc
      rfl
    | none => simp [marked] at hc

theorem endsAuthority_of_endsPath {c : Char} (h : endsPath c = true) : endsAuthority c = true := by
  simp only [endsPath, Bool.or_eq_true, beq_iff_eq] at h
  exact endsAuthority_iff.2 (.inr h)

theorem readTail_chars {t : Tail} (h : t.IsValid) : readTail false t.chars = .ok t := by
  obtain ⟨authority, path, query, fragment⟩ := t
  have hends := head?_marked query fragment
  have hpath : readPath false (path ++ (marked '?' query ++ marked '#' fragment)) =
      .ok (path, marked '?' query ++ marked '#' fragment) := by
    rw [readPath, if_neg (by simp)]
    exact h.path.scan_append delimits_path _ hends
  have hquery := readQuery_marked h.query h.fragment
  cases authority with
  | some a =>
    have hstart : ∀ c ∈ (path ++ (marked '?' query ++ marked '#' fragment)).head?,
        endsAuthority c = true := by
      intro c hc
      cases path with
      | nil => exact endsAuthority_of_endsPath (hends c hc)
      | cons d path =>
        have hd : d = '/' := h.start d rfl
        obtain rfl : d = c := by simpa using hc
        exact endsAuthority_iff.2 (.inl hd)
    have hauthority := readAuthority_append (h.authority a rfl) hstart
    have htext : Tail.chars ⟨some a, path, query, fragment⟩ =
        '/' :: '/' :: (a.chars ++ (path ++ (marked '?' query ++ marked '#' fragment))) := by
      simp [Tail.chars, authorityChars]
    rw [htext, readTail]
    simp only [bind, Except.bind, hauthority, hpath, hquery]
    rfl
  | none =>
    have htext : Tail.chars ⟨none, path, query, fragment⟩ =
        path ++ (marked '?' query ++ marked '#' fragment) := by
      simp [Tail.chars, authorityChars]
    have hslashes : ∀ rest, path ++ (marked '?' query ++ marked '#' fragment) ≠ '/' :: '/' :: rest := by
      intro rest heq
      have hstart := h.start
      rcases path with _ | ⟨c, _ | ⟨d, path⟩⟩
      · exact absurd (hends '/' (by simpa using congrArg List.head? heq)) (by decide)
      · obtain ⟨-, heq⟩ := List.cons.inj heq
        exact absurd (hends '/' (by simpa using congrArg List.head? heq)) (by decide)
      · simp only [List.cons_append, List.cons.injEq] at heq
        obtain ⟨rfl, rfl, -⟩ := heq
        exact hstart path rfl
    rw [htext]
    unfold readTail
    split
    · rename_i rest heq
      exact absurd heq (hslashes rest)
    · simp only [bind, Except.bind, hpath, hquery]
      rfl

theorem isPathChar_of_isPlainSegmentChar {c : Char} (h : isPlainSegmentChar c = true) :
    isPathChar c = true := by
  simp [isPathChar, h]

theorem spells_of_readPath {isRelative : Bool} {s path rest : List Char}
    (h : readPath isRelative s = .ok (path, rest)) : Spells isPathChar path := by
  unfold readPath at h
  split at h
  · obtain ⟨⟨segment, s₁⟩, hs, h⟩ := bind_eq_ok_iff.1 h
    obtain ⟨⟨more, s₂⟩, hm, h⟩ := bind_eq_ok_iff.1 h
    obtain ⟨rfl, rfl⟩ := Prod.mk.inj (Except.ok.inj h)
    exact ((spells_of_scan hs).mono fun _ => isPathChar_of_isPlainSegmentChar).append (spells_of_scan hm)
  · exact spells_of_scan h

theorem spells_of_readFragment {s fragment : List Char} (h : readFragment s = .ok fragment) :
    Spells isFragmentChar fragment := by
  obtain ⟨⟨taken, left⟩, hs, h⟩ := bind_eq_ok_iff.1 h
  obtain rfl := Except.ok.inj h
  exact spells_of_scan hs

theorem spells_of_readQuery {s : List Char} {query fragment : Option (List Char)}
    (h : readQuery s = .ok (query, fragment)) :
    (∀ q ∈ query, Spells isQueryChar q) ∧ ∀ f ∈ fragment, Spells isFragmentChar f := by
  unfold readQuery at h
  split at h
  · obtain ⟨⟨q, left⟩, hq, h⟩ := bind_eq_ok_iff.1 h
    have hquery := spells_of_scan hq
    simp only at h
    split at h
    · obtain ⟨f, hf, h⟩ := bind_eq_ok_iff.1 h
      obtain ⟨rfl, rfl⟩ := Prod.mk.inj (Except.ok.inj h)
      exact ⟨by simpa using hquery, by simpa using spells_of_readFragment hf⟩
    · obtain ⟨rfl, rfl⟩ := Prod.mk.inj (Except.ok.inj h)
      exact ⟨by simpa using hquery, by simp⟩
  · obtain ⟨f, hf, h⟩ := bind_eq_ok_iff.1 h
    obtain ⟨rfl, rfl⟩ := Prod.mk.inj (Except.ok.inj h)
    exact ⟨by simp, by simpa using spells_of_readFragment hf⟩
  · obtain ⟨rfl, rfl⟩ := Prod.mk.inj (Except.ok.inj h)
    exact ⟨by simp, by simp⟩

theorem isValid_of_readTail {isRelative : Bool} {s : List Char} {t : Tail}
    (h : readTail isRelative s = .ok t) : t.IsValid := by
  unfold readTail at h
  split at h
  · obtain ⟨⟨a, s₁⟩, ha, h⟩ := bind_eq_ok_iff.1 h
    obtain ⟨⟨path, s₂⟩, hp, h⟩ := bind_eq_ok_iff.1 h
    obtain ⟨⟨q, f⟩, hq, h⟩ := bind_eq_ok_iff.1 h
    obtain rfl := Except.ok.inj h
    obtain ⟨hauthority, hends⟩ := isValid_of_readAuthority ha
    have hpath := spells_of_readPath hp
    refine ⟨by simpa using hauthority, hpath, ?_, (spells_of_readQuery hq).1, (spells_of_readQuery hq).2⟩
    -- the authority ends at a slash, or else the path is empty
    intro c hc
    obtain ⟨path, rfl⟩ := List.head?_eq_some_iff.1 hc
    have hc : endsAuthority c = true := hends c (by rw [← append_of_readPath hp]; rfl)
    have hinside := hpath.stop_head delimits_path
    rcases endsAuthority_iff.1 hc with rfl | rfl | rfl
    · rfl
    · exact absurd hinside (by decide)
    · exact absurd hinside (by decide)
  · rename_i hslashes
    obtain ⟨⟨path, s₂⟩, hp, h⟩ := bind_eq_ok_iff.1 h
    obtain ⟨⟨q, f⟩, hq, h⟩ := bind_eq_ok_iff.1 h
    obtain rfl := Except.ok.inj h
    refine ⟨by simp, spells_of_readPath hp, ?_, (spells_of_readQuery hq).1, (spells_of_readQuery hq).2⟩
    rintro rest rfl
    exact hslashes _ (append_of_readPath hp).symm

/-! ## IRIs -/

/-- A letter, and then characters of schemes. -/
def IsScheme (scheme : List Char) : Prop :=
  (∃ c rest, scheme = c :: rest ∧ c.isAlpha = true) ∧ ∀ c ∈ scheme, isSchemeChar c = true

structure IsValid (i : Iri) : Prop where
  scheme : IsScheme i.scheme
  tail : i.tail.IsValid

theorem isScheme_of_splitScheme {s scheme rest : List Char} (h : splitScheme s = some (scheme, rest)) :
    IsScheme scheme := by
  unfold splitScheme at h
  split at h
  · simp at h
  · rename_i c more
    split at h
    · rename_i hc
      split at h
      · obtain ⟨rfl, rfl⟩ := Prod.mk.inj (Option.some.inj h)
        have hscheme : isSchemeChar c = true := by
          simp [isSchemeChar, Char.isAlphanum, hc]
        refine ⟨⟨c, _, List.takeWhile_cons_of_pos hscheme, hc⟩, ?_⟩
        exact List.all_eq_true.1 List.all_takeWhile
      · simp at h
    · simp at h

theorem splitScheme_append {scheme : List Char} (h : IsScheme scheme) (rest : List Char) :
    splitScheme (scheme ++ ':' :: rest) = some (scheme, rest) := by
  obtain ⟨⟨c, more, rfl, hc⟩, hall⟩ := h
  have hdrop : (c :: more ++ ':' :: rest).dropWhile isSchemeChar = ':' :: rest := by
    rw [List.dropWhile_append_of_pos hall]
    exact List.dropWhile_cons_of_neg (by decide)
  have htake : (c :: more ++ ':' :: rest).takeWhile isSchemeChar = c :: more := by
    rw [List.takeWhile_append_of_pos hall, List.takeWhile_cons_of_neg (by decide), List.append_nil]
  rw [List.cons_append] at hdrop htake ⊢
  simp only [splitScheme, hc, hdrop, htake, if_true]

/-- A valid IRI is read again from its own text. -/
theorem read_chars {i : Iri} (h : i.IsValid) : read i.chars = .ok i := by
  have hhead : i.chars.head? ≠ some ':' := by
    obtain ⟨⟨c, rest, hscheme, hc⟩, -⟩ := h.scheme
    rw [chars, hscheme]
    rintro heq
    obtain rfl : c = ':' := by simpa using heq
    exact absurd hc (by decide)
  have href : Reference.read i.chars = .ok (.absolute i) := by
    rw [Reference.read, if_neg hhead, chars, splitScheme_append h.scheme]
    simp only [readTail_chars h.tail, Except.map]
  rw [read, href]

theorem parse_text {i : Iri} (h : i.IsValid) : parse i.text = .ok i := by
  rw [parse, text, String.toList_ofList, read_chars h]

theorem isValid_of_read {s : List Char} {i : Iri} (h : read s = .ok i) : i.IsValid := by
  unfold read at h
  split at h
  · rename_i hr
    obtain rfl := Except.ok.inj h
    unfold Reference.read at hr
    split at hr
    · simp at hr
    · split at hr
      · rename_i hs
        obtain ⟨tail, ht, heq⟩ := map_eq_ok_iff.1 hr
        obtain rfl := Reference.absolute.inj heq
        exact ⟨isScheme_of_splitScheme hs, isValid_of_readTail ht⟩
      · obtain ⟨tail, -, heq⟩ := map_eq_ok_iff.1 hr
        cases heq
  · simp at h
  · simp at h

/-- Text that is read as an absolute IRI. -/
def IsAbsolute (text : String) : Prop :=
  ∃ i, parse text = .ok i

instance : DecidablePred IsAbsolute := fun text =>
  match h : parse text with
  | .ok i => .isTrue ⟨i, h⟩
  | .error fault => .isFalse fun ⟨i, hi⟩ => by
      rw [hi] at h
      cases h

/-- An IRI with a fragment that is still empty goes on with the characters of one. -/
theorem isAbsolute_append {ns localName : String} {i : Iri} (h : parse ns = .ok i)
    (hopen : i.tail.fragment = some []) (hlocal : Spells isFragmentChar localName.toList) :
    IsAbsolute (ns ++ localName) := by
  have hi := isValid_of_read h
  let whole : Iri := ⟨i.scheme, { i.tail with fragment := some localName.toList }⟩
  have hwhole : whole.IsValid := by
    refine ⟨hi.scheme, hi.tail.authority, hi.tail.path, hi.tail.start, hi.tail.query, ?_⟩
    rintro fragment ⟨⟩
    exact hlocal
  have htext : whole.text = ns ++ localName := by
    apply String.toList_inj.1
    rw [← text_of_parse h, String.toList_append]
    simp [whole, text, chars, Tail.chars, hopen, marked]
  exact ⟨whole, htext ▸ parse_text hwhole⟩

end TableGraph.Iri
