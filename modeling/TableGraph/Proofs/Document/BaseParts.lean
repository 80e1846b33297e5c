import TableGraph.Document.Loading
import TableGraph.Proofs.Iri.Components
import TableGraph.Proofs.Text.Trimming

/-!
# A base IRI in components

The components of a base IRI are put together as they are, each with the sign that goes with it, and what
has been put together is read like any text. The reader finds the components again where they meet at their
signs. One pair meets without a sign, the authority and the path, so the path has to start with the slash
that ends an authority; and white space at the end of the last component is lost, since the text of a base
IRI is trimmed (`base_parts_are_loaded`).
-/

namespace TableGraph

open Text (IsTrimmed)

/-! ## Components without text -/

namespace Iri

/-- A component that has some text. -/
def filled : List Char → Option (List Char)
  | [] => none
  | c :: rest => some (c :: rest)

theorem filled_of_ne {s : List Char} (h : s ≠ []) : filled s = some s := by
  cases s with
  | nil => exact absurd rfl h
  | cons c rest => rfl

theorem of_mem_filled {s t : List Char} (h : t ∈ filled s) : t = s := by
  cases s with
  | nil => cases h
  | cons c rest => exact (Option.some.inj h).symm

@[simp] theorem bind_filled_filled (s : List Char) : (filled s).bind filled = filled s := by
  cases s <;> rfl

/-- An authority, where user information or a port without text counts as none. -/
def Authority.withoutEmpty (a : Authority) : Authority :=
  ⟨a.userInfo.bind filled, a.host, a.port.bind filled⟩

/-- An IRI, where an optional component without text counts as none. -/
def withoutEmpty (i : Iri) : Iri where
  scheme := i.scheme
  tail :=
    { authority := i.tail.authority.map Authority.withoutEmpty
      path := i.tail.path
      query := i.tail.query.bind filled
      fragment := i.tail.fragment.bind filled }

theorem length_marked_filled_le (mark : Char) (part : Option (List Char)) :
    (marked mark (part.bind filled)).length ≤ (marked mark part).length := by
  rcases part with _ | _ | ⟨c, rest⟩ <;> simp [filled, marked]

theorem length_userInfoChars_filled_le (part : Option (List Char)) :
    (userInfoChars (part.bind filled)).length ≤ (userInfoChars part).length := by
  rcases part with _ | _ | ⟨c, rest⟩ <;> simp [filled, userInfoChars]

theorem length_authorityChars_withoutEmpty_le (authority : Option Authority) :
    (authorityChars (authority.map Authority.withoutEmpty)).length ≤ (authorityChars authority).length := by
  cases authority with
  | none => exact Nat.le_refl _
  | some a =>
    have huser := length_userInfoChars_filled_le a.userInfo
    have hport := length_marked_filled_le ':' a.port
    simp only [Option.map_some, authorityChars, Authority.chars, Authority.withoutEmpty, List.length_cons,
      List.length_append]
    omega

theorem length_chars_withoutEmpty_le (i : Iri) : i.withoutEmpty.chars.length ≤ i.chars.length := by
  have hauthority := length_authorityChars_withoutEmpty_le i.tail.authority
  have hquery := length_marked_filled_le '?' i.tail.query
  have hfragment := length_marked_filled_le '#' i.tail.fragment
  simp only [withoutEmpty, chars, Tail.chars, List.length_cons, List.length_append]
  omega

end Iri

namespace Text

theorem dropEndWhile_sublist (p : Char → Bool) (s : List Char) : (dropEndWhile p s).Sublist s := by
  obtain ⟨dropped, -, happend⟩ := exists_dropEndWhile_append p s
  exact List.IsPrefix.sublist ⟨dropped, happend⟩

theorem trim_sublist (s : String) : (trim s).toList.Sublist s.toList := by
  rw [trim, String.toList_ofList]
  exact (dropEndWhile_sublist _ _).trans (List.dropWhile_sublist _)

theorem isTrimmed_of_length_le {s : String} (h : s.toList.length ≤ (trim s).toList.length) :
    IsTrimmed s.toList :=
  (trim_sublist s).eq_of_length_le h ▸ isTrimmed_trim s

end Text

namespace Document.BaseParts

open Iri (Spells IsScheme IsHost isUserInfoChar isPathChar isQueryChar isFragmentChar marked userInfoChars
  filled filled_of_ne of_mem_filled withoutEmpty)

/-! ## Putting components together -/

def chars (part : Option String) : List Char :=
  (part.getD "").toList

def portChars? (p : BaseParts) : Option (List Char) :=
  match p.port with
  | some (.ofNat port) => some (toString port).toList
  | _ => none

/-- The IRI with the components that are given, where an empty one counts as none. -/
def toIri (p : BaseParts) : Iri where
  scheme := chars p.scheme
  tail :=
    { authority := some ⟨filled (chars p.userInfo), chars p.host, p.portChars?⟩
      path := chars p.path
      query := filled (chars p.query)
      fragment := filled (chars p.fragment) }

/-- Each component is made of what may stand in its place, and there are a scheme and a host. -/
structure IsValid (p : BaseParts) : Prop where
  scheme : IsScheme (chars p.scheme)
  userInfo : Spells isUserInfoChar (chars p.userInfo)
  host_ne : chars p.host ≠ []
  host : IsHost (chars p.host)
  path : Spells isPathChar (chars p.path)
  query : Spells isQueryChar (chars p.query)
  fragment : Spells isFragmentChar (chars p.fragment)

theorem toList_component (before behind : String) (part : Option String) :
    (component before part behind).toList =
      match filled (chars part) with
      | none => []
      | some s => before.toList ++ s ++ behind.toList := by
  cases part with
  | none => rfl
  | some part =>
    by_cases hpart : part = ""
    · subst hpart
      rfl
    · have hne : part.toList ≠ [] := by simpa using hpart
      have hfilled : filled (chars (some part)) = some part.toList := filled_of_ne hne
      simp [component, hpart, hfilled]

theorem toList_component_bare (part : Option String) : (component "" part "").toList = chars part := by
  rw [toList_component]
  cases chars part <;> simp [filled]

theorem toList_component_marked (mark : Char) (part : Option String) :
    (component (String.singleton mark) part "").toList = marked mark (filled (chars part)) := by
  rw [toList_component]
  cases filled (chars part) <;> simp [marked]

theorem toList_component_userInfo (part : Option String) :
    (component "" part "@").toList = userInfoChars (filled (chars part)) := by
  rw [toList_component]
  cases filled (chars part) <;> simp [userInfoChars]

variable {p : BaseParts}

theorem toList_component_scheme (h : p.IsValid) :
    (component "" p.scheme ":").toList = chars p.scheme ++ [':'] := by
  have hne : chars p.scheme ≠ [] := by
    obtain ⟨⟨c, rest, hscheme, -⟩, -⟩ := h.scheme
    simp [hscheme]
  rw [toList_component, filled_of_ne hne]
  simp

theorem toList_authority (h : p.IsValid) :
    p.authority.toList = Iri.authorityChars p.toIri.tail.authority := by
  obtain ⟨scheme, userInfo, host, port, path, query, fragment⟩ := p
  cases host with
  | none => exact absurd rfl h.host_ne
  | some host =>
    have hempty : host.isEmpty = false := by
      have hne := h.host_ne
      simpa [chars] using hne
    rcases port with _ | port | port <;>
      simp [authority, hempty, toList_component_userInfo, toIri, Iri.authorityChars, Iri.Authority.chars,
        portChars?, chars, marked]

theorem text_eq (h : p.IsValid) : p.text = p.toIri.text := by
  have hquery : (component "?" p.query "").toList = _ := toList_component_marked '?' p.query
  have hfragment : (component "#" p.fragment "").toList = _ := toList_component_marked '#' p.fragment
  rw [← String.toList_inj, Iri.text, String.toList_ofList]
  simp [text, toList_component_scheme h, toList_authority h, toList_component_bare, hquery, hfragment,
    Iri.chars, Iri.Tail.chars, toIri]

/-! ## Finding components again -/

/-- The path starts with the slash that ends an authority, and trimming takes nothing off the end. -/
structure IsSeparable (p : BaseParts) : Prop where
  path : ∀ c ∈ (chars p.path).head?, c = '/'
  trimmed : IsTrimmed p.text.toList

theorem isDigit_of_mem_portChars? : ∀ digits ∈ p.portChars?, ∀ c ∈ digits, c.isDigit = true := by
  intro digits hdigits c hc
  unfold portChars? at hdigits
  split at hdigits
  · rename_i port _
    obtain rfl := Option.some.inj hdigits
    exact Iri.isDigit_of_mem_toString hc
  · cases hdigits

theorem isValid_toIri (h : p.IsValid) (hpath : ∀ c ∈ (chars p.path).head?, c = '/') : p.toIri.IsValid := by
  refine ⟨h.scheme, ?_, h.path, hpath, ?_, ?_⟩
  · rintro a ⟨⟩
    exact ⟨fun u hu => of_mem_filled hu ▸ h.userInfo, h.host, isDigit_of_mem_portChars?⟩
  · exact fun q hq => of_mem_filled hq ▸ h.query
  · exact fun f hf => of_mem_filled hf ▸ h.fragment

theorem isValid_of_isValid_toIri (h : p.toIri.IsValid) (hhost : chars p.host ≠ []) : p.IsValid := by
  have hfilled {allowed : Char → Bool} {s : List Char} (hs : ∀ t ∈ filled s, Spells allowed t) :
      Spells allowed s := by
    cases s with
    | nil => exact .nil
    | cons c rest => exact hs _ rfl
  have hauthority := h.tail.authority _ rfl
  exact ⟨h.scheme, hfilled hauthority.userInfo, hhost, hauthority.host, h.tail.path,
    hfilled h.tail.query, hfilled h.tail.fragment⟩

theorem parseBase_text (h : p.IsValid) (hseparable : p.IsSeparable) : Iri.parseBase p.text = .ok p.toIri := by
  have hparse : Iri.parse p.text = .ok p.toIri := by
    rw [text_eq h]
    exact Iri.parse_text (isValid_toIri h hseparable.path)
  rw [Iri.parseBase, Text.trim_of_isTrimmed hseparable.trimmed, hparse]
  rfl

theorem withoutEmpty_toIri (p : BaseParts) : p.toIri.withoutEmpty = p.toIri := by
  have hport : p.portChars?.bind filled = p.portChars? := by
    unfold portChars?
    split
    · rename_i port _
      rw [Option.bind_some, filled_of_ne]
      rw [Nat.toString_eq_ofList_toDigits, String.toList_ofList]
      exact Nat.toDigits_ne_nil
    · rfl
  simp [withoutEmpty, toIri, Iri.Authority.withoutEmpty, hport]

/-- An IRI that has the components has been read from a text in which they are apart. -/
theorem isSeparable_of_parseBase (h : p.IsValid) {i : Iri} (hi : Iri.parseBase p.text = .ok i)
    (hparts : i.withoutEmpty = p.toIri) : p.IsSeparable := by
  have hread := Outcome.mapError_eq_ok_iff.1 hi
  refine ⟨?_, Text.isTrimmed_of_length_le ?_⟩
  · have hpath : i.tail.path = chars p.path := congrArg (·.tail.path) hparts
    have hauthority : (i.tail.authority.map Iri.Authority.withoutEmpty).isSome := by
      rw [show i.tail.authority.map _ = _ from congrArg (·.tail.authority) hparts]
      rfl
    have hstart := (Iri.isValid_of_read hread).tail.start
    rw [← Option.isSome_map, hauthority, hpath] at hstart
    exact hstart
  · have hchars : p.text.toList = i.withoutEmpty.chars := by
      rw [text_eq h, hparts, Iri.text, String.toList_ofList]
    rw [hchars, ← Iri.chars_of_read hread]
    exact i.length_chars_withoutEmpty_le

end BaseParts

/-- **A base IRI in components is loaded with those components, where they can be told apart.** Take a base
IRI whose components may each stand in their places, with a scheme and a host. If its path is empty or
starts with a slash, and trimming leaves its text as it is, then the text is read as the IRI with these
components. If the text is read as an IRI at all, that becomes the base; and it has these components, empty
ones counting as none, exactly under these conditions. -/
theorem base_parts_are_loaded {d : Document} {p : BaseParts} (hbase : d.base = some (.parts p))
    (h : p.IsValid) (rule : LabelRule) :
    (p.IsSeparable → Iri.parseBase p.text = .ok p.toIri) ∧
      ∀ i, Iri.parseBase p.text = .ok i →
        (d.load rule).naming.base = i ∧ (i.withoutEmpty = p.toIri ↔ p.IsSeparable) := by
  refine ⟨p.parseBase_text h, fun i hi => ⟨?_, BaseParts.isSeparable_of_parseBase h hi, fun hseparable => ?_⟩⟩
  · simp [load, loadBase, hbase, StoredBase.iriText, hi, Except.toOption]
  · rw [BaseParts.parseBase_text h hseparable] at hi
    rw [← Except.ok.inj hi, BaseParts.withoutEmpty_toIri]

/-- All components, and a path that starts with a slash. -/
theorem base_parts_are_loaded_all :
    let p : BaseParts :=
      ⟨some "https", some "me:pw", some "ex.org", some 8443, some "/data/", some "q=1", some "top"⟩
    let d : Document := ⟨none, none, some (.parts p), none, none⟩
    (p.IsValid ∧ p.IsSeparable) ∧ p.text = "https://me:pw@ex.org:8443/data/?q=1#top" ∧
      (d.load .standard).naming.base = p.toIri ∧ p.toIri.withoutEmpty = p.toIri := by
  intro p d
  have hread : Iri.read "https://me:pw@ex.org:8443/data/?q=1#top".toList = .ok p.toIri := by decide +kernel
  have h : p.IsValid := BaseParts.isValid_of_isValid_toIri (Iri.isValid_of_read hread) (by decide +kernel)
  have htext : p.text = "https://me:pw@ex.org:8443/data/?q=1#top" := by decide +kernel
  have hseparable : p.IsSeparable := by
    have hslash : (BaseParts.chars p.path).head? = some '/' := by decide
    constructor
    · rw [hslash]
      simp
    · rw [htext]
      decide
  obtain ⟨hparse, hloaded⟩ := base_parts_are_loaded (d := d) rfl h .standard
  obtain ⟨hbase, hparts⟩ := hloaded _ (hparse hseparable)
  exact ⟨⟨h, hseparable⟩, htext, hbase, hparts.2 hseparable⟩

/-- A path without a slash goes on with the host, and a space that is no ASCII one is lost at the end of a
fragment. -/
theorem base_parts_run_together :
    let joined : BaseParts := ⟨some "http", none, some "ex.org", none, some "data", none, none⟩
    let spaced : BaseParts := ⟨some "http", none, some "ex.org", none, some "/", none, some "top\u00A0"⟩
    let host : Iri := ⟨"http".toList, ⟨some ⟨none, "ex.orgdata".toList, none⟩, [], none, none⟩⟩
    let top : Iri := ⟨"http".toList, ⟨some ⟨none, "ex.org".toList, none⟩, ['/'], none, some "top".toList⟩⟩
    (joined.IsValid ∧ Iri.parseBase joined.text = .ok host ∧ host.withoutEmpty ≠ joined.toIri) ∧
      spaced.IsValid ∧ Iri.parseBase spaced.text = .ok top ∧ top.withoutEmpty ≠ spaced.toIri := by
  intro joined spaced host top
  have hhost : Iri.read "http://ex.org".toList = .ok (BaseParts.toIri { joined with path := none }) := by
    decide +kernel
  have hpath : Iri.read "http:data".toList = .ok ⟨"http".toList, ⟨none, "data".toList, none, none⟩⟩ := by
    decide +kernel
  have hspaced : Iri.read "http://ex.org/#top\u00A0".toList = .ok spaced.toIri := by decide +kernel
  have hwithout := BaseParts.isValid_of_isValid_toIri (Iri.isValid_of_read hhost) (by decide +kernel)
  refine ⟨⟨{ hwithout with path := (Iri.isValid_of_read hpath).tail.path }, ?_, ?_⟩, ?_, ?_, ?_⟩
  · decide +kernel
  · decide +kernel
  · exact BaseParts.isValid_of_isValid_toIri (Iri.isValid_of_read hspaced) (by decide +kernel)
  · decide +kernel
  · decide +kernel

end Document

end TableGraph
