import CodeIntel.Json.Token

namespace CodeIntel.Json

/-- An array or object that is still open, its parts last first. -/
inductive Frame
  | array (items : List Json)
  | object (members : List (String × Json)) (key : String)
  /-- An object with a key that has no value. -/
  | nameless
deriving Inhabited

/-- What may come next while a text is read. -/
inductive Expecting
  | value
  | valueOrClose
  | keyOrClose
  | key
  | colon (key : String)
  | commaOrClose
  | nothing (value : Json)

structure Reader where
  expecting : Expecting
  frames : List Frame
  /-- Arrays and objects may stand inside each other this deep. -/
  depth : Nat
  /-- What is read in the stead of something without a value. -/
  standIn : Json

namespace Reader

def start (depth : Nat) (standIn : Json) : Reader := ⟨.value, [], depth, standIn⟩

/-- Puts a finished value into the innermost open array or object. -/
def finish (r : Reader) (value : Json) : List Frame → Reader
  | [] => { r with expecting := .nothing value, frames := [] }
  | .array items :: frames =>
    { r with expecting := .commaOrClose, frames := .array (value :: items) :: frames }
  | .object members key :: frames =>
    { r with
      expecting := .commaOrClose
      frames := .object ((key, value) :: members) "" :: frames }
  | .nameless :: frames => { r with expecting := .commaOrClose, frames := .nameless :: frames }

def push (r : Reader) (frame : Frame) (expecting : Expecting) : Option Reader :=
  if r.frames.length < r.depth then
    some { r with expecting := expecting, frames := frame :: r.frames }
  else none

/-- Closes the innermost array. -/
def closeArray (r : Reader) : Option Reader :=
  match r.frames with
  | .array items :: frames => some (r.finish (.array items.reverse) frames)
  | _ => none

/-- Closes the innermost object; its members keep the order of the text. -/
def closeObject (r : Reader) : Option Reader :=
  match r.frames with
  | .object members _ :: frames => some (r.finish (.object members.reverse) frames)
  | .nameless :: frames => some (r.finish r.standIn frames)
  | _ => none

def readValue (r : Reader) : Token → Option Reader
  | .openObject => r.push (.object [] "") .keyOrClose
  | .openArray => r.push (.array []) .valueOrClose
  | .string s => some (r.finish (.string s) r.frames)
  | .number n => some (r.finish (.number n) r.frames)
  | .bool b => some (r.finish (.bool b) r.frames)
  | .null => some (r.finish .null r.frames)
  | .valueless => some (r.finish r.standIn r.frames)
  | _ => none

/-- Takes the key of a member. -/
def readColon (r : Reader) (key : String) : Option Reader :=
  match r.frames with
  | .object members _ :: frames =>
    some { r with expecting := .value, frames := .object members key :: frames }
  | .nameless :: _ => some { r with expecting := .value }
  | _ => none

def readComma (r : Reader) : Option Reader :=
  match r.frames with
  | .array _ :: _ => some { r with expecting := .value }
  | [] => none
  | _ => some { r with expecting := .key }

/-- Takes a key without a value: the whole object has none then. -/
def readNameless (r : Reader) : Reader :=
  { r with expecting := .colon "", frames := .nameless :: r.frames.drop 1 }

def step (r : Reader) (token : Token) : Option Reader :=
  match r.expecting, token with
  | .value, token => r.readValue token
  | .valueOrClose, .closeArray => r.closeArray
  | .valueOrClose, token => r.readValue token
  | .keyOrClose, .closeObject => r.closeObject
  | .keyOrClose, .string key => some { r with expecting := .colon key }
  | .keyOrClose, .valueless => some r.readNameless
  | .key, .string key => some { r with expecting := .colon key }
  | .key, .valueless => some r.readNameless
  | .colon key, .colon => r.readColon key
  | .commaOrClose, .comma => r.readComma
  | .commaOrClose, .closeArray => r.closeArray
  | .commaOrClose, .closeObject => r.closeObject
  | _, _ => none

def run (r : Reader) : List Token → Option Reader
  | [] => some r
  | token :: rest =>
    match r.step token with
    | none => none
    | some next => next.run rest

/-- The value that is read, if nothing is missing from it. -/
def value? (r : Reader) : Option Json :=
  match r.expecting with
  | .nothing value => some value
  | _ => none

end Reader

/-- The value of some tokens, with `standIn` for what has none. The members of objects stand in the
order of the text, repeated keys kept. -/
def ofTokens? (depth : Nat) (standIn : Json) (tokens : List Token) : Option Json :=
  ((Reader.start depth standIn).run tokens).bind Reader.value?

mutual

/-- Brings the members of every object into ascending order; of several with one key the last
stays. -/
def normalize : Json → Json
  | .array items => .array (normalizeItems items)
  | .object members => .object (sortMembers (normalizeMembers members))
  | value => value

def normalizeItems : List Json → List Json
  | [] => []
  | item :: rest => normalize item :: normalizeItems rest

def normalizeMembers : List (String × Json) → List (String × Json)
  | [] => []
  | (key, value) :: rest => (key, normalize value) :: normalizeMembers rest

end

/-- Arrays and objects stand inside each other at most this deep. -/
def greatestDepth : Nat := 127

/-- The value that some characters denote, or `none` if they are not JSON. -/
def ofChars? (cs : List Char) : Option Json :=
  ((tokens? cs).bind (ofTokens? greatestDepth .null)).map normalize

/-- The value that a text denotes, or `none` if it is not JSON. -/
def parse? (text : String) : Option Json := ofChars? text.toList

end CodeIntel.Json

namespace CodeIntel.Json.Loose

/-- Passes over a string from behind its opening quote. An escape by a code need not stand for a
character. -/
def skipString : List Char → Option (List Char)
  | [] => none
  | '"' :: rest => some rest
  | '\\' :: 'u' :: a :: b :: c :: d :: rest =>
    if (Token.hex4? a b c d).isSome then skipString rest else none
  | '\\' :: c :: rest => if (Token.escaped? c).isSome then skipString rest else none
  | c :: rest => if c = '\\' || c.toNat < 0x20 then none else skipString rest

/-- Passes over digits, of which there must be one. -/
def skipDigits : List Char → Option (List Char)
  | [] => none
  | c :: rest => if isDigit c then some (rest.dropWhile isDigit) else none

/-- Passes over the exponent of a number, if there is one. -/
def skipExponent : List Char → Option (List Char)
  | c :: rest =>
    if c = 'e' || c = 'E' then
      match rest with
      | sign :: digits => if sign = '+' || sign = '-' then skipDigits digits else skipDigits rest
      | [] => none
    else some (c :: rest)
  | [] => some []

/-- Passes over a number from behind its whole part. -/
def skipFraction : List Char → Option (List Char)
  | '.' :: rest => (skipDigits rest).bind skipExponent
  | rest => skipExponent rest

def skipUnsigned : List Char → Option (List Char)
  | '0' :: rest => if rest.head?.any isDigit then none else skipFraction rest
  | rest => (skipDigits rest).bind skipFraction

/-- Passes over a number, however great it is. -/
def skipNumber : List Char → Option (List Char)
  | '-' :: rest => skipUnsigned rest
  | rest => skipUnsigned rest

/-- The token that a text starts with. A string or number that has the form of one, but no value,
is a token without a value. -/
def readToken : List Char → Option (Token × List Char)
  | '"' :: rest => (Token.read ('"' :: rest)).or ((skipString rest).map (Token.valueless, ·))
  | cs => (Token.read cs).or ((skipNumber cs).map (Token.valueless, ·))

/-- The value that some characters denote, at any depth, with `standIn` for strings, numbers and
objects that have none. The members of objects stand in the order of the text. -/
def ofChars? (standIn : Json) (cs : List Char) : Option Json :=
  (tokensFrom readToken cs.length [] cs).bind (ofTokens? cs.length standIn)

end CodeIntel.Json.Loose
