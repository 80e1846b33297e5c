import TableGraph.Iri.Reader
import TableGraph.Outcome

/-!
# The spelling of IRIs

Reading keeps the spelling: each reading function divides its text into what it takes and what it
leaves, so that the components of a reference, put together with their delimiters, are the text it was
read from (`Reference.chars_of_read`, `chars_of_read`).
-/

namespace TableGraph.Iri

open Outcome (bind_eq_ok_iff map_eq_ok_iff)

/-! ## Components -/

theorem append_of_scan {allowed stop : Char → Bool} {s taken left : List Char}
    (h : scan allowed stop s = .ok (taken, left)) : taken ++ left = s := by
  fun_induction scan allowed stop s generalizing taken left with
  | case1 | case2 => simp_all
  | case3 a b rest _ _ ih | case6 c rest _ _ _ ih =>
    obtain ⟨⟨t, l⟩, hs, heq⟩ := map_eq_ok_iff.1 h
    obtain ⟨rfl, rfl⟩ := Prod.mk.inj heq
    simp [ih hs]
  | case4 | case5 | case7 => simp at h

theorem stop_of_scan {allowed stop : Char → Bool} {s taken left : List Char}
    (h : scan allowed stop s = .ok (taken, left)) : ∀ c ∈ left.head?, stop c := by
  fun_induction scan allowed stop s generalizing taken left with
  | case1 => simp_all
  | case2 =>
    obtain ⟨rfl, rfl⟩ := Prod.mk.inj (Except.ok.inj h)
    simpa
  | case3 a b rest _ _ ih | case6 c rest _ _ _ ih =>
    obtain ⟨⟨t, l⟩, hs, heq⟩ := map_eq_ok_iff.1 h
    obtain ⟨rfl, rfl⟩ := Prod.mk.inj heq
    exact ih hs
  | case4 | case5 | case7 => simp at h

theorem append_of_splitScheme {s scheme rest : List Char}
    (h : splitScheme s = some (scheme, rest)) : scheme ++ ':' :: rest = s := by
  unfold splitScheme at h
  split at h
  · simp at h
  · split at h
    · split at h
      · rename_i hd
        obtain ⟨rfl, rfl⟩ := Prod.mk.inj (Option.some.inj h)
        rw [← hd, List.takeWhile_append_dropWhile]
      · simp at h
    · simp at h

theorem append_of_readUserInfo {s rest : List Char} {userInfo : Option (List Char)}
    (h : readUserInfo s = .ok (userInfo, rest)) : userInfoChars userInfo ++ rest = s := by
  unfold readUserInfo at h
  split at h
  · simp at h
  · rename_i hs
    obtain ⟨rfl, rfl⟩ := Prod.mk.inj (Except.ok.inj h)
    simpa [userInfoChars] using append_of_scan hs
  · obtain ⟨rfl, rfl⟩ := Prod.mk.inj (Except.ok.inj h)
    rfl

theorem append_of_readHost {s host rest : List Char}
    (h : readHost s = .ok (host, rest)) : host ++ rest = s := by
  unfold readHost at h
  split at h
  · rename_i inner
    split at h
    · simp at h
    · rename_i bracket more hd
      have hin : inner.takeWhile (· != ']') ++ bracket :: more = inner := by
        rw [← hd, List.takeWhile_append_dropWhile]
      have done : ('[' :: inner.takeWhile (· != ']') ++ [bracket]) ++ more = '[' :: inner := by
        simp [hin]
      simp only at h
      split at h
      · simp at h
      · split at h
        · obtain ⟨rfl, rfl⟩ := Prod.mk.inj (Except.ok.inj h)
          exact done
        · split at h
          · obtain ⟨rfl, rfl⟩ := Prod.mk.inj (Except.ok.inj h)
            exact done
          · simp at h
  · exact append_of_scan h

theorem append_of_readPort {s rest : List Char} {port : Option (List Char)}
    (h : readPort s = .ok (port, rest)) : marked ':' port ++ rest = s := by
  unfold readPort at h
  split at h
  · rename_i more
    generalize hd : more.dropWhile Char.isDigit = left at h
    cases left with
    | nil =>
      obtain ⟨rfl, rfl⟩ := Prod.mk.inj (Except.ok.inj h)
      simp [marked]
    | cons c left =>
      simp only at h
      split at h
      · obtain ⟨rfl, rfl⟩ := Prod.mk.inj (Except.ok.inj h)
        simp [marked, ← hd, List.takeWhile_append_dropWhile]
      · simp at h
  · obtain ⟨rfl, rfl⟩ := Prod.mk.inj (Except.ok.inj h)
    rfl

theorem chars_of_readAuthority {s rest : List Char} {a : Authority}
    (h : readAuthority s = .ok (a, rest)) : a.chars ++ rest = s := by
  obtain ⟨⟨u, s₁⟩, hu, h⟩ := bind_eq_ok_iff.1 h
  obtain ⟨⟨host, s₂⟩, hh, h⟩ := bind_eq_ok_iff.1 h
  obtain ⟨⟨port, s₃⟩, hp, h⟩ := bind_eq_ok_iff.1 h
  obtain ⟨rfl, rfl⟩ := Prod.mk.inj (Except.ok.inj h)
  rw [← append_of_readUserInfo hu, ← append_of_readHost hh, ← append_of_readPort hp]
  simp [Authority.chars]

theorem append_of_readPath {isRelative : Bool} {s path rest : List Char}
    (h : readPath isRelative s = .ok (path, rest)) : path ++ rest = s := by
  unfold readPath at h
  split at h
  · obtain ⟨⟨segment, s₁⟩, hs, h⟩ := bind_eq_ok_iff.1 h
    obtain ⟨⟨more, s₂⟩, hm, h⟩ := bind_eq_ok_iff.1 h
    obtain ⟨rfl, rfl⟩ := Prod.mk.inj (Except.ok.inj h)
    rw [← append_of_scan hs, ← append_of_scan hm, List.append_assoc]
  · exact append_of_scan h

theorem eq_of_readFragment {s fragment : List Char} (h : readFragment s = .ok fragment) :
    fragment = s := by
  obtain ⟨⟨t, left⟩, hs, h⟩ := bind_eq_ok_iff.1 h
  obtain rfl := Except.ok.inj h
  cases left with
  | nil => simpa using append_of_scan hs
  | cons c left => simpa using stop_of_scan hs c

theorem chars_of_readQuery {s : List Char} {query fragment : Option (List Char)}
    (hs : ∀ c ∈ s.head?, endsPath c) (h : readQuery s = .ok (query, fragment)) :
    marked '?' query ++ marked '#' fragment = s := by
  unfold readQuery at h
  split at h
  · obtain ⟨⟨q, left⟩, hq, h⟩ := bind_eq_ok_iff.1 h
    have hleft := stop_of_scan hq
    simp only at h
    split at h
    · obtain ⟨f, hf, h⟩ := bind_eq_ok_iff.1 h
      obtain ⟨rfl, rfl⟩ := Prod.mk.inj (Except.ok.inj h)
      simp [marked, eq_of_readFragment hf, append_of_scan hq]
    · rename_i hne
      obtain ⟨rfl, rfl⟩ := Prod.mk.inj (Except.ok.inj h)
      cases left with
      | nil => simpa [marked] using append_of_scan hq
      | cons c left => simp_all
  · obtain ⟨f, hf, h⟩ := bind_eq_ok_iff.1 h
    obtain ⟨rfl, rfl⟩ := Prod.mk.inj (Except.ok.inj h)
    simp [marked, eq_of_readFragment hf]
  · obtain ⟨rfl, rfl⟩ := Prod.mk.inj (Except.ok.inj h)
    cases s with
    | nil => rfl
    | cons c s => simp_all [endsPath]

theorem endsPath_of_readPath {isRelative : Bool} {s path rest : List Char}
    (h : readPath isRelative s = .ok (path, rest)) : ∀ c ∈ rest.head?, endsPath c := by
  unfold readPath at h
  split at h
  · obtain ⟨⟨segment, s₁⟩, hs, h⟩ := bind_eq_ok_iff.1 h
    obtain ⟨⟨more, s₂⟩, hm, h⟩ := bind_eq_ok_iff.1 h
    obtain ⟨rfl, rfl⟩ := Prod.mk.inj (Except.ok.inj h)
    exact stop_of_scan hm
  · exact stop_of_scan h

/-! ## References -/

theorem chars_of_readTail {isRelative : Bool} {s : List Char} {tail : Tail}
    (h : readTail isRelative s = .ok tail) : tail.chars = s := by
  unfold readTail at h
  split at h
  · obtain ⟨⟨a, s₁⟩, ha, h⟩ := bind_eq_ok_iff.1 h
    obtain ⟨⟨path, s₂⟩, hp, h⟩ := bind_eq_ok_iff.1 h
    obtain ⟨⟨q, f⟩, hq, h⟩ := bind_eq_ok_iff.1 h
    obtain rfl := Except.ok.inj h
    rw [← chars_of_readAuthority ha, ← append_of_readPath hp,
      ← chars_of_readQuery (endsPath_of_readPath hp) hq]
    simp [Tail.chars, authorityChars]
  · obtain ⟨⟨path, s₂⟩, hp, h⟩ := bind_eq_ok_iff.1 h
    obtain ⟨⟨q, f⟩, hq, h⟩ := bind_eq_ok_iff.1 h
    obtain rfl := Except.ok.inj h
    rw [← append_of_readPath hp, ← chars_of_readQuery (endsPath_of_readPath hp) hq]
    simp [Tail.chars, authorityChars]

/-- The components of a reference, put together, are the text it was read from. -/
theorem Reference.chars_of_read {s : List Char} {r : Reference} (h : Reference.read s = .ok r) :
    r.chars = s := by
  unfold Reference.read at h
  split at h
  · simp at h
  · split at h
    · rename_i hs
      obtain ⟨tail, ht, rfl⟩ := map_eq_ok_iff.1 h
      rw [← append_of_splitScheme hs, ← chars_of_readTail ht]
      rfl
    · obtain ⟨tail, ht, rfl⟩ := map_eq_ok_iff.1 h
      exact chars_of_readTail ht

theorem chars_of_read {s : List Char} {i : Iri} (h : read s = .ok i) : i.chars = s := by
  unfold read at h
  split at h
  · rename_i hr
    obtain rfl := Except.ok.inj h
    exact Reference.chars_of_read hr
  · simp at h
  · simp at h

theorem text_of_parse {s : String} {i : Iri} (h : parse s = .ok i) : i.text = s := by
  rw [text, chars_of_read h, String.ofList_toList]

end TableGraph.Iri
