import CodeIntel.Uri.Host
import CodeIntel.Path.Basic

namespace CodeIntel.Uri

/-- The schemes besides `file` whose authority names a registered host. -/
def registeredSchemes : List String := ["http", "https", "ws", "wss", "ftp"]

def isDriveLetter : List Char → Bool
  | [c, ':'] => isLetter c
  | _ => false

def isSingleDot (segment : List Char) : Bool :=
  [".", "%2e"].contains (String.ofList (segment.map lower))

def isDoubleDot (segment : List Char) : Bool :=
  ["..", "%2e%2e", "%2e.", ".%2e"].contains (String.ofList (segment.map lower))

/-- The segments without the last, which stays if it is a drive letter. `kept` is last first. -/
def dropSegment : List (List Char) → List (List Char)
  | [] => []
  | segment :: rest => if isDriveLetter segment then segment :: rest else rest

/-- Resolves dot segments; `kept` holds the segments before them, last first. -/
def resolveDots (kept : List (List Char)) : List (List Char) → List (List Char)
  | [] => kept.reverse
  | [segment] =>
    if isDoubleDot segment then ([] :: dropSegment kept).reverse
    else if isSingleDot segment then ([] :: kept).reverse
    else (segment :: kept).reverse
  | segment :: rest =>
    if isDoubleDot segment then resolveDots (dropSegment kept) rest
    else if isSingleDot segment then resolveDots kept rest
    else resolveDots (segment :: kept) rest

/-- Empty segments at the start fall away, but for one that stands alone. -/
def trimSegments : List (List Char) → List (List Char)
  | [] => [[]]
  | [segment] => [segment]
  | segment :: rest => if segment = [] then trimSegments rest else segment :: rest

/-- A path that ends in a drive letter, with a colon or a bar, names a directory and ends in a
slash. -/
def closeDrive (bytes : List UInt8) : List UInt8 :=
  match bytes.reverse with
  | mark :: letter :: _ :: _ =>
    if (mark = 0x3A || mark = 0x7C)
        && ((0x41 ≤ letter && letter ≤ 0x5A) || (0x61 ≤ letter && letter ≤ 0x7A)) then
      bytes ++ [Path.slash]
    else bytes
  | _ => bytes

def pathOfSegments (segments : List (List Char)) : Path :=
  ⟨closeDrive (segments.flatMap fun segment => Path.slash :: percentDecode segment)⟩

/-- Why a URI names no local file. -/
inductive PathError
  | unresolved (cause : ResolveError)
  | notLocal
deriving DecidableEq, Repr

/-- The host of a file URI. A drive letter there belongs to the path. -/
def fileHost (authority : List Char) : Except ResolveError (Host × List (List Char)) :=
  if authority = [] then .ok (.absent, [])
  else if isDriveLetter authority then .ok (.absent, [authority])
  else do
    match ← hostOfName authority with
    | .localhost => pure (.absent, [])
    | host => pure (host, [])

/-- The segments of a file URI's path, and whether another machine is named. A path that starts with
a drive letter is on this machine. -/
def fileSegments (uri : Uri) : Except ResolveError (Host × List (List Char)) := do
  let (host, drive) ← fileHost (uri.authority.getD [])
  let path := if uri.path.head? = some '/' then uri.path.drop 1 else uri.path
  let segments := resolveDots [] (drive ++ path.splitOn '/')
  let host := if segments.head?.any isDriveLetter then .absent else host
  pure (host, trimSegments segments)

/-- Host and path segments of a URI with a registered host, however many slashes precede it. -/
def registeredSegments (uri : Uri) : Except ResolveError (Host × List (List Char)) := do
  let (authority, path) :=
    match uri.authority with
    | some (c :: cs) => (c :: cs, uri.path)
    | _ =>
      let rest := uri.path.dropWhile (· = '/')
      (rest.takeWhile (· ≠ '/'), rest.dropWhile (· ≠ '/'))
  let host ← hostOfAuthority true authority
  pure (host, resolveDots [] ((path.drop 1).splitOn '/'))

/-- Host and path segments of any other URI; a path that does not start at a root has none. The sign
behind a user counts for nothing if it stands alone and last. -/
def plainSegments (uri : Uri) : Except ResolveError (Host × Option (List (List Char))) := do
  let host ←
    match uri.authority with
    | some authority =>
      if authority = ['@'] && uri.endsInAuthority then pure .absent
      else hostOfAuthority false authority
    | none => pure .absent
  match uri.path with
  | '/' :: rest => pure (host, some (resolveDots [] (rest.splitOn '/')))
  | _ => pure (host, none)

/-- The local file that a URI names. Its scheme does not matter, its host may only be this
machine. -/
def filePath (uri : Uri) : Except PathError Path := do
  let (host, segments?) ←
    match uri.scheme with
    | none => throw (.unresolved .relative)
    | some scheme =>
      let scheme := String.ofList (scheme.map lower)
      let resolved :=
        if scheme = "file" then uri.fileSegments.map fun (host, segments) => (host, some segments)
        else if registeredSchemes.contains scheme then
          uri.registeredSegments.map fun (host, segments) => (host, some segments)
        else uri.plainSegments
      resolved.mapError .unresolved
  match host, segments? with
  | .remote, _ => throw .notLocal
  | _, none => throw .notLocal
  | _, some segments => pure (pathOfSegments segments)

/-- The printable characters that do not stand for themselves in a file URI. -/
def escapedChars : List Char :=
  ['"', '#', '%', '/', '<', '>', '?', '\\', '\x60', '\x7b', '\x7d']

/-- Whether a byte of a name stands for itself in a file URI. -/
def isPlainInName (b : UInt8) : Bool :=
  0x20 < b && b < 0x7F && !escapedChars.contains (Char.ofNat b.toNat)

def upperHexDigit (n : Nat) : Char := (Nat.digitChar n).toUpper

def percentEncode (name : List UInt8) : List Char :=
  name.flatMap fun b =>
    if isPlainInName b then [Char.ofNat b.toNat]
    else ['%', upperHexDigit (b.toNat / 16), upperHexDigit (b.toNat % 16)]

/-- The URI text of an absolute path: its steps after the root, each behind a slash. -/
def textOfPath (p : Path) : String :=
  let steps := p.components.drop 1
  let body :=
    if steps = [] then ['/']
    else steps.flatMap fun step => '/' :: percentEncode step.bytes
  String.ofList ("file://".toList ++ body)

/-- The URI of a path; a relative path is taken from `cwd`. -/
def ofPath (cwd p : Path) : Except (Path × UriError) Uri :=
  let p := if p.isAbsolute then p else cwd.join p
  (parse (textOfPath p)).mapError fun e => (p, e)

end CodeIntel.Uri
