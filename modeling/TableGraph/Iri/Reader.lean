import TableGraph.Iri.Address

/-!
# Reading IRIs

A reference is read from left to right, component by component, and the first character out of place
is the fault. Each reading function returns what it took and what is left. Nothing is folded, decoded
or dropped on the way, so the components put together are the text that was read.
-/

namespace TableGraph.Iri

/-! ## One component -/

/-- Read characters of one component up to the first that has `stop`. A percent sign brings two
hexadecimal digits along. -/
def scan (allowed stop : Char → Bool) : List Char → Except Fault (List Char × List Char)
  | [] => .ok ([], [])
  | c :: rest =>
    if stop c then .ok ([], c :: rest)
    else if c = '%' then
      match rest with
      | a :: b :: rest =>
        if isHexDigit a && isHexDigit b then
          (scan allowed stop rest).map fun (taken, left) => (c :: a :: b :: taken, left)
        else .error (.percent [a, b])
      | short => .error (.percent short)
    else if allowed c then (scan allowed stop rest).map fun (taken, left) => (c :: taken, left)
    else .error (.codePoint c)

/-- The scheme and what follows its colon, if the text starts with a scheme. -/
def splitScheme (s : List Char) : Option (List Char × List Char) :=
  match s with
  | [] => none
  | c :: _ =>
    if c.isAlpha then
      match s.dropWhile isSchemeChar with
      | ':' :: rest => some (s.takeWhile isSchemeChar, rest)
      | _ => none
    else none

/-- The user information before an at sign, if the authority has some. -/
def readUserInfo (s : List Char) : Except Fault (Option (List Char) × List Char) :=
  match scan isUserInfoChar (fun c => c == '@' || c == '[' || endsAuthority c) s with
  | .error fault => .error fault
  | .ok (taken, '@' :: rest) => .ok (some taken, rest)
  | .ok _ => .ok (none, s)

def readHost (s : List Char) : Except Fault (List Char × List Char) :=
  match s with
  | '[' :: inner =>
    match inner.dropWhile (· != ']') with
    | [] => .error (.hostCharacter '[')
    | bracket :: rest =>
      let literal := inner.takeWhile (· != ']')
      match literalFault literal with
      | some fault => .error fault
      | none =>
        match rest.head? with
        | none => .ok ('[' :: literal ++ [bracket], rest)
        | some c =>
          if c == ':' || endsAuthority c then .ok ('[' :: literal ++ [bracket], rest)
          else .error (.hostCharacter c)
  | _ => scan isHostChar (fun c => c == ':' || endsAuthority c) s

/-- The port after a colon, if the authority has one. -/
def readPort (s : List Char) : Except Fault (Option (List Char) × List Char) :=
  match s with
  | ':' :: rest =>
    match rest.dropWhile Char.isDigit with
    | [] => .ok (some rest, [])
    | c :: left =>
      if endsAuthority c then .ok (some (rest.takeWhile Char.isDigit), c :: left)
      else .error (.portCharacter c)
  | _ => .ok (none, s)

/-- The authority, up to the path. -/
def readAuthority (s : List Char) : Except Fault (Authority × List Char) := do
  let (userInfo, s) ← readUserInfo s
  let (host, s) ← readHost s
  let (port, s) ← readPort s
  return (⟨userInfo, host, port⟩, s)

/-- The path of a reference. The first segment of a relative one holds no colon, which would make it
a scheme. -/
def readPath (isRelative : Bool) (s : List Char) : Except Fault (List Char × List Char) :=
  if isRelative then do
    let (segment, s) ← scan isPlainSegmentChar endsAuthority s
    let (more, s) ← scan isPathChar endsPath s
    return (segment ++ more, s)
  else scan isPathChar endsPath s

def readFragment (s : List Char) : Except Fault (List Char) := do
  let (fragment, _) ← scan isFragmentChar (fun _ => false) s
  return fragment

/-- The query and the fragment, each behind its sign. -/
def readQuery (s : List Char) : Except Fault (Option (List Char) × Option (List Char)) :=
  match s with
  | '?' :: rest => do
    let (query, rest) ← scan isQueryChar (· == '#') rest
    match rest with
    | '#' :: rest => return (some query, some (← readFragment rest))
    | _ => return (some query, none)
  | '#' :: rest => do
    return (none, some (← readFragment rest))
  | _ => return (none, none)

/-! ## References -/

/-- Everything after the scheme, or all of a relative reference. -/
def readTail (isRelative : Bool) (s : List Char) : Except Fault Tail :=
  match s with
  | '/' :: '/' :: rest => do
    let (authority, rest) ← readAuthority rest
    let (path, rest) ← readPath false rest
    let (query, fragment) ← readQuery rest
    return ⟨some authority, path, query, fragment⟩
  | _ => do
    let (path, rest) ← readPath isRelative s
    let (query, fragment) ← readQuery rest
    return ⟨none, path, query, fragment⟩

/-- Read a reference. A leading colon lacks its scheme. -/
def Reference.read (s : List Char) : Except Fault Reference :=
  if s.head? = some ':' then .error .noScheme
  else
    match splitScheme s with
    | some (scheme, rest) => (readTail false rest).map fun tail => .absolute ⟨scheme, tail⟩
    | none => (readTail true s).map .relative

def Reference.parse (s : String) : Except Fault Reference :=
  Reference.read s.toList

/-- Read an absolute IRI; a relative reference lacks a scheme. -/
def read (s : List Char) : Except Fault Iri :=
  match Reference.read s with
  | .ok (.absolute iri) => .ok iri
  | .ok (.relative _) => .error .noScheme
  | .error fault => .error fault

def parse (s : String) : Except Fault Iri :=
  read s.toList

end TableGraph.Iri
