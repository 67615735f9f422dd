import CodeIntel.Json.Number

namespace CodeIntel.Json

/-- The lexical parts of a JSON text. -/
inductive Token
  | openObject
  | closeObject
  | openArray
  | closeArray
  | colon
  | comma
  | string (s : String)
  | number (n : Number)
  | bool (b : Bool)
  | null
  /-- What has the form of a string or number, but no value. -/
  | valueless
deriving Repr, Inhabited

namespace Token

def hexValue? (c : Char) : Option Nat :=
  if '0' ≤ c && c ≤ '9' then some (c.toNat - '0'.toNat)
  else if 'a' ≤ c && c ≤ 'f' then some (c.toNat - 'a'.toNat + 10)
  else if 'A' ≤ c && c ≤ 'F' then some (c.toNat - 'A'.toNat + 10)
  else none

/-- Four hexadecimal digits as a number. -/
def hex4? (a b c d : Char) : Option Nat := do
  let a ← hexValue? a
  let b ← hexValue? b
  let c ← hexValue? c
  let d ← hexValue? d
  some (((a * 16 + b) * 16 + c) * 16 + d)

/-- The character that a one-letter escape stands for. -/
def escaped? : Char → Option Char
  | '"' => some '"'
  | '\\' => some '\\'
  | '/' => some '/'
  | 'b' => some '\x08'
  | 'f' => some '\x0c'
  | 'n' => some '\n'
  | 'r' => some '\r'
  | 't' => some '\t'
  | _ => none

def isHighSurrogate (n : Nat) : Bool := 0xD800 ≤ n && n < 0xDC00

def isLowSurrogate (n : Nat) : Bool := 0xDC00 ≤ n && n < 0xE000

/-- Reads a string from behind its opening quote; `acc` holds the characters read, last first.
Control characters must be escaped, and surrogates must come in pairs. -/
def readString (acc : List Char) : List Char → Option (String × List Char)
  | [] => none
  | '"' :: rest => some (String.ofList acc.reverse, rest)
  | '\\' :: 'u' :: a :: b :: c :: d :: rest =>
    match hex4? a b c d with
    | none => none
    | some high =>
      if isLowSurrogate high then none
      else if isHighSurrogate high then
        match rest with
        | '\\' :: 'u' :: a :: b :: c :: d :: rest =>
          match hex4? a b c d with
          | none => none
          | some low =>
            if isLowSurrogate low then
              readString (Char.ofNat (0x10000 + (high - 0xD800) * 0x400 + (low - 0xDC00)) :: acc) rest
            else none
        | _ => none
      else readString (Char.ofNat high :: acc) rest
  | '\\' :: c :: rest =>
    match escaped? c with
    | none => none
    | some c => readString (c :: acc) rest
  | c :: rest => if c = '\\' || c.toNat < 0x20 then none else readString (c :: acc) rest

def isSpace (c : Char) : Bool := c = ' ' || c = '\t' || c = '\n' || c = '\r'

/-- The token that a text starts with, and the text behind it. -/
def read : List Char → Option (Token × List Char)
  | '\x7b' :: rest => some (openObject, rest)
  | '\x7d' :: rest => some (closeObject, rest)
  | '[' :: rest => some (openArray, rest)
  | ']' :: rest => some (closeArray, rest)
  | ':' :: rest => some (colon, rest)
  | ',' :: rest => some (comma, rest)
  | '"' :: rest => (readString [] rest).map fun (s, rest) => (string s, rest)
  | 'n' :: 'u' :: 'l' :: 'l' :: rest => some (null, rest)
  | 't' :: 'r' :: 'u' :: 'e' :: rest => some (bool true, rest)
  | 'f' :: 'a' :: 'l' :: 's' :: 'e' :: rest => some (bool false, rest)
  | cs => (Number.read cs).map fun (n, rest) => (number n, rest)

end Token

/-- The tokens of a text by a reader of single tokens; `acc` holds those read, last first. One step
of fuel per character is always enough. -/
def tokensFrom (readToken : List Char → Option (Token × List Char)) :
    Nat → List Token → List Char → Option (List Token)
  | _, acc, [] => some acc.reverse
  | 0, _, _ :: _ => none
  | fuel + 1, acc, c :: cs =>
    if Token.isSpace c then tokensFrom readToken fuel acc cs
    else
      match readToken (c :: cs) with
      | none => none
      | some (token, rest) => tokensFrom readToken fuel (token :: acc) rest

/-- The tokens of a text, or `none` where some part is no token. -/
def tokens? (cs : List Char) : Option (List Token) := tokensFrom Token.read cs.length [] cs

end CodeIntel.Json
