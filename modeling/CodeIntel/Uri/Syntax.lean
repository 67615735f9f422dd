import CodeIntel.Path.Basic

namespace CodeIntel

/-- What makes a text no URI, with the index of the byte where it shows. -/
inductive UriError
  | octet (index : Nat)
  | character (index : Nat)
  | ipv6 (index : Nat)
deriving DecidableEq, Repr

def UriError.message : UriError → String
  | octet index => s!"invalid percent-encoded octet at index {index}"
  | character index => s!"unexpected character at index {index}"
  | ipv6 index => s!"invalid IPv6 address at index {index}"

/-- A URI or a relative reference, taken apart. -/
structure Uri where
  text : String
  scheme : Option (List Char)
  authority : Option (List Char)
  path : List Char
deriving DecidableEq, Repr, Inhabited

namespace Uri

/-- Whether nothing follows the authority, not even an empty query. -/
def endsInAuthority (uri : Uri) : Bool :=
  match uri.scheme, uri.authority with
  | some scheme, some authority => uri.text.toList = scheme ++ [':', '/', '/'] ++ authority
  | _, _ => false

def isLetter (c : Char) : Bool := ('a' ≤ c && c ≤ 'z') || ('A' ≤ c && c ≤ 'Z')

def isDecimal (c : Char) : Bool := '0' ≤ c && c ≤ '9'

def isHex (c : Char) : Bool := isDecimal c || ('a' ≤ c && c ≤ 'f') || ('A' ≤ c && c ≤ 'F')

def isUnreserved (c : Char) : Bool :=
  isLetter c || isDecimal c || ['-', '.', '_', '~'].contains c

def isSubDelimiter (c : Char) : Bool :=
  ['!', '$', '&', '\'', '(', ')', '*', '+', ',', ';', '='].contains c

def inScheme (c : Char) : Bool := isLetter c || isDecimal c || ['+', '-', '.'].contains c

def inRegisteredName (c : Char) : Bool := isUnreserved c || isSubDelimiter c

def inUserInfo (c : Char) : Bool := inRegisteredName c || c = ':'

def inPath (c : Char) : Bool := inUserInfo c || c = '@' || c = '/'

def inSegmentNoColon (c : Char) : Bool := inRegisteredName c || c = '@'

def inQuery (c : Char) : Bool := inPath c || c = '?'

/-- Passes over allowed characters and percent-encoded octets; `index` counts what was passed. -/
def skip (allowed : Char → Bool) : Nat → List Char → Except UriError (Nat × List Char)
  | index, [] => .ok (index, [])
  | index, '%' :: a :: b :: rest =>
    if isHex a && isHex b then skip allowed (index + 3) rest else .error (.octet index)
  | index, c :: rest =>
    if c = '%' then .error (.octet index)
    else if allowed c then skip allowed (index + 1) rest
    else .ok (index, c :: rest)

/-- A part of an IPv4 address: at most 255, without leading zeros. -/
def isOctet (cs : List Char) : Bool :=
  cs ≠ [] && cs.length ≤ 3 && cs.all isDecimal && (cs.length = 1 || cs.head? ≠ some '0')
    && (String.ofList cs).toNat?.getD 256 < 256

def isIpv4 (cs : List Char) : Bool :=
  let parts := cs.splitOn '.'
  parts.length = 4 && parts.all isOctet

def isGroup (cs : List Char) : Bool := cs ≠ [] && cs.length ≤ 4 && cs.all isHex

/-- How many 16-bit groups a list of parts makes up; an IPv4 address may stand last. -/
def groupCount? : List (List Char) → Option Nat
  | [] => some 0
  | [part] => if isGroup part then some 1 else if isIpv4 part then some 2 else none
  | part :: rest => if isGroup part then (groupCount? rest).map (· + 1) else none

/-- The parts before and behind the first empty part, which a double colon leaves. -/
def splitDouble : List Char → List Char → Option (List Char × List Char)
  | _, [] => none
  | before, ':' :: ':' :: rest => some (before.reverse, rest)
  | before, c :: rest => splitDouble (c :: before) rest

def groupsOf (cs : List Char) : List (List Char) := if cs = [] then [] else cs.splitOn ':'

def isIpv6 (cs : List Char) : Bool :=
  match splitDouble [] cs with
  | none => groupCount? (cs.splitOn ':') = some 8
  | some (before, behind) =>
    let left := groupsOf before
    left.all isGroup &&
      match groupCount? (groupsOf behind) with
      | some n => left.length + n ≤ 7
      | none => false

def isBracketed (cs : List Char) : Bool :=
  match cs with
  | '[' :: rest =>
    let inner := rest.dropLast
    rest.getLast? = some ']' && isIpv6 inner
  | _ => false

/-- Checks a host, with its port if it has one, from `index` on. -/
def checkHostPort (index : Nat) (cs : List Char) : Except UriError Unit := do
  let (behind, rest) ←
    if cs.head? = some '[' then
      let address := cs.takeWhile (· ≠ ']')
      if isBracketed (address ++ [']']) && address.length < cs.length then
        pure (index + address.length + 1, cs.drop (address.length + 1))
      else throw (.ipv6 index)
    else skip inRegisteredName index cs
  match rest with
  | [] => pure ()
  | ':' :: port =>
    let digits := port.takeWhile isDecimal
    if digits.length = port.length then pure () else throw (.character (behind + 1 + digits.length))
  | _ => throw (.character behind)

/-- Checks what stands between the two slashes and the path. -/
def checkAuthority (index : Nat) (cs : List Char) : Except UriError Unit := do
  let user := cs.takeWhile (· ≠ '@')
  if user.length < cs.length then
    let (behind, rest) ← skip inUserInfo index user
    if rest ≠ [] then throw (.character behind)
    checkHostPort (index + user.length + 1) (cs.drop (user.length + 1))
  else checkHostPort index cs

/-- Checks path, query and fragment, and gives the path. -/
def checkTail (index : Nat) (cs : List Char) : Except UriError (List Char) := do
  let (behind, rest) ← skip inPath index cs
  let path := cs.take (behind - index)
  let (behind, rest) ←
    match rest with
    | '?' :: query => skip inQuery (behind + 1) query
    | _ => pure (behind, rest)
  let (behind, rest) ←
    match rest with
    | '#' :: fragment => skip inQuery (behind + 1) fragment
    | _ => pure (behind, rest)
  if rest = [] then pure path else throw (.character behind)

/-- Takes apart what follows the scheme, if there is one. -/
def parseHierarchy (text : String) (scheme : Option (List Char)) (index : Nat) (cs : List Char) :
    Except UriError Uri := do
  match cs with
  | '/' :: '/' :: rest =>
    let authority := rest.takeWhile fun c => c ≠ '/' && c ≠ '?' && c ≠ '#'
    checkAuthority (index + 2) authority
    let path ← checkTail (index + 2 + authority.length) (rest.drop authority.length)
    pure ⟨text, scheme, some authority, path⟩
  | _ =>
    let path ← checkTail index cs
    pure ⟨text, scheme, none, path⟩

/-- Takes a URI or a relative reference apart. The first part of a relative path has no colon. -/
def parse (text : String) : Except UriError Uri := do
  let cs := text.toList
  let scheme := cs.takeWhile inScheme
  match cs.drop scheme.length with
  | ':' :: rest =>
    if scheme.head?.any isLetter then parseHierarchy text (some scheme) (scheme.length + 1) rest
    else throw (.character 0)
  | _ =>
    if cs.head? = some '/' then parseHierarchy text none 0 cs
    else
      let (behind, rest) ← skip inSegmentNoColon 0 cs
      if rest.head? = some ':' then throw (.character behind)
      let path ← checkTail 0 cs
      pure ⟨text, none, none, path⟩

end Uri

end CodeIntel
