import TableGraph.Iri.Reader

/-!
# Resolving references

`Iri.resolve` reads a reference against a base IRI. What the reference leaves out it takes from the
base; a relative path replaces the last segment of the base's path. Whatever the reference has of its own,
be it a scheme or an authority, dot segments of its path are removed as they are read.
-/

namespace TableGraph.Iri

/-! ## Paths

A path that is being written is kept last character first, so that what it ends in is what it starts
with. -/

/-- Cut a path behind its last slash. A path without one becomes empty, or the root when an authority
stands before it. -/
def dropLastSegment (hasAuthority : Bool) (written : List Char) : List Char :=
  match written.dropWhile (· != '/') with
  | [] => if hasAuthority then ['/'] else []
  | kept => kept

/-- Take a dot segment off the end of a path, if it ends in one. -/
def dropDotSegment? (hasAuthority : Bool) (written : List Char) : Option (List Char) :=
  match written with
  | '.' :: '.' :: '/' :: kept => some (dropLastSegment hasAuthority kept)
  | '.' :: '/' :: kept => some ('/' :: kept)
  | ['.'] | ['.', '.'] => some []
  | _ => none

/-- Whether a finished path would be read as an authority: two slashes, and no authority before. -/
def looksLikeAuthority (hasAuthority : Bool) (written : List Char) : Bool :=
  !hasAuthority && written.reverse.take 2 == ['/', '/']

/-- The path as it is kept at its end. -/
def closePath (hasAuthority : Bool) (written : List Char) : Except Fault (List Char) :=
  let path := (dropDotSegment? hasAuthority written).getD written
  if looksLikeAuthority hasAuthority path then .error .pathStart else .ok path.reverse

/-- Read on a path, from what is written of it and the text ahead, to its end. At a slash a dot
segment is taken off in place of the slash. The first segment holds no colon. -/
def readPathFrom (hasAuthority : Bool) (inFirst : Bool) (written : List Char) :
    List Char → Except Fault (List Char × List Char)
  | [] => do return (← closePath hasAuthority written, [])
  | c :: rest =>
    if c = '/' then
      match dropDotSegment? hasAuthority written with
      | some path =>
        if looksLikeAuthority hasAuthority path then .error .pathStart
        else readPathFrom hasAuthority false path rest
      | none => readPathFrom hasAuthority false ('/' :: written) rest
    else if endsPath c then do return (← closePath hasAuthority written, c :: rest)
    else if c = '%' then
      match rest with
      | a :: b :: rest =>
        if isHexDigit a && isHexDigit b then
          readPathFrom hasAuthority inFirst (b :: a :: c :: written) rest
        else .error (.percent [a, b])
      | short => .error (.percent short)
    else if (if inFirst then isPlainSegmentChar c else isPathChar c) then
      readPathFrom hasAuthority inFirst (c :: written) rest
    else .error (.codePoint c)

/-! ## References -/

/-- Read on a path from what is written of it, and then the query and the fragment. -/
def readTailFrom (authority : Option Authority) (inFirst : Bool) (written s : List Char) :
    Except Fault Tail := do
  let (path, rest) ← readPathFrom authority.isSome inFirst written s
  let (query, fragment) ← readQuery rest
  return ⟨authority, path, query, fragment⟩

/-- What stands behind two slashes: an authority, with a path if a slash follows. -/
def resolveAuthority (s : List Char) : Except Fault Tail := do
  let (authority, rest) ← readAuthority s
  match rest with
  | '/' :: rest => readTailFrom (some authority) false ['/'] rest
  | rest =>
    let (query, fragment) ← readQuery rest
    return ⟨some authority, [], query, fragment⟩

/-- What an absolute reference means after its scheme. -/
def resolveAbsolute (s : List Char) : Except Fault Tail :=
  match s with
  | '/' :: '/' :: rest => resolveAuthority rest
  | s => readTailFrom none false [] s

/-- What a relative reference means after the scheme of `base`. -/
def resolveTail (base : Tail) (s : List Char) : Except Fault Tail :=
  match s with
  | [] => return { base with fragment := none }
  | '?' :: _ => do
    let (query, fragment) ← readQuery s
    return { base with query := query, fragment := fragment }
  | '#' :: _ => do
    let (_, fragment) ← readQuery s
    return { base with fragment := fragment }
  | '/' :: '/' :: rest => resolveAuthority rest
  | '/' :: rest => readTailFrom base.authority false ['/'] rest
  | _ => readTailFrom base.authority true (dropLastSegment base.authority.isSome base.path.reverse) s

/-- Resolve a reference against a base IRI. -/
def resolve (base : Iri) (reference : String) : Except Fault Iri :=
  let s := reference.toList
  if s.head? = some ':' then .error .noScheme
  else
    match splitScheme s with
    | some (scheme, rest) => (resolveAbsolute rest).map fun tail => ⟨scheme, tail⟩
    | none => (resolveTail base.tail s).map fun tail => ⟨base.scheme, tail⟩

end TableGraph.Iri
