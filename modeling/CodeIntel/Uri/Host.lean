import CodeIntel.Domain.Name
import CodeIntel.Uri.Syntax

namespace CodeIntel.Uri

/-- Why an absolute URI cannot be resolved. -/
inductive ResolveError
  | relative
  | emptyHost
  | invalidDomain
  | invalidIpv4
  | invalidIpv6
  | invalidPort
deriving DecidableEq, Repr

def ResolveError.message : ResolveError → String
  | relative => "relative URL without a base"
  | emptyHost => "empty host"
  | invalidDomain => "invalid international domain name"
  | invalidIpv4 => "invalid IPv4 address"
  | invalidIpv6 => "invalid IPv6 address"
  | invalidPort => "invalid port number"

/-- Whose address a URI bears: nobody's, this machine's by name, or another's. -/
inductive Host
  | absent
  | localhost
  | remote
deriving DecidableEq, Repr

def hexDigit (c : Char) : Nat :=
  if isDecimal c then c.toNat - '0'.toNat
  else if 'a' ≤ c then c.toNat - 'a'.toNat + 10
  else c.toNat - 'A'.toNat + 10

/-- The bytes that a text with percent-encoded octets stands for. -/
def percentDecode : List Char → List UInt8
  | [] => []
  | '%' :: a :: b :: rest =>
    if isHex a && isHex b then
      UInt8.ofNat (hexDigit a * 16 + hexDigit b) :: percentDecode rest
    else 0x25 :: percentDecode (a :: b :: rest)
  | c :: rest => String.utf8EncodeChar c ++ percentDecode rest

def lower (c : Char) : Char := if 'A' ≤ c && c ≤ 'Z' then Char.ofNat (c.toNat + 32) else c

/-- The value of a part of a numeric address: decimal, octal after a zero, hexadecimal after
`0x`. -/
def addressPart? (cs : List Char) : Option Nat :=
  let number (base : Nat) (digits : List Char) : Option Nat :=
    if digits.all fun c => isHex c && hexDigit c < base then
      some (digits.foldl (fun n c => n * base + hexDigit c) 0)
    else none
  match cs with
  | [] => none
  | '0' :: 'x' :: rest => number 16 rest
  | '0' :: rest => number 8 rest
  | _ => number 10 cs

/-- The parts of a domain name; a dot at its end opens no further part. -/
def domainParts (domain : List Char) : List (List Char) :=
  let parts := domain.splitOn '.'
  if 1 < parts.length ∧ parts.getLast? = some [] then parts.dropLast else parts

/-- Whether a domain name has to be a numeric address: its last part is a number. -/
def endsInNumber (domain : List Char) : Bool :=
  match (domainParts domain).getLast? with
  | none => false
  | some last =>
    (last ≠ [] && last.all isDecimal) ||
      match last with
      | '0' :: 'x' :: rest => rest.all isHex
      | _ => false

/-- A numeric address: at most four parts, all but the last below 256. -/
def isNumericAddress (domain : List Char) : Bool :=
  let parts := domainParts domain
  match parts.mapM addressPart? with
  | none => false
  | some numbers =>
    let last := numbers.getLast?.getD 0
    numbers.length ≤ 4 && numbers.dropLast.all (· < 256) && last < Nat.pow 256 (5 - numbers.length)

/-- The host that a domain name or bracketed address stands for, where names are registered. -/
def hostOfName (name : List Char) : Except ResolveError Host :=
  if name.head? = some '[' then
    if isIpv6 ((name.drop 1).dropLast) then .ok .remote else .error .invalidIpv6
  else
    match (ofUtf8? (percentDecode name)).bind fun text => Domain.properName? text.toList with
    | none => .error .invalidDomain
    | some domain =>
      if domain = [] then .error .emptyHost
      else if endsInNumber domain then
        if isNumericAddress domain then .ok .remote else .error .invalidIpv4
      else if domain = "localhost".toList then .ok .localhost
      else .ok .remote

/-- The host of a scheme that registers no names: any text. -/
def hostOfText (name : List Char) : Except ResolveError Host :=
  if name = [] then .ok .absent
  else if name.head? = some '[' then
    if isIpv6 ((name.drop 1).dropLast) then .ok .remote else .error .invalidIpv6
  else if name = "localhost".toList then .ok .localhost
  else .ok .remote

def checkPort (digits : List Char) : Except ResolveError Unit :=
  if digits.all isDecimal ∧ digits.foldl (fun n c => n * 10 + hexDigit c) 0 < 65536 then .ok ()
  else .error .invalidPort

/-- Host and port of an authority; the port stands behind the last colon outside brackets. -/
def splitPort (authority : List Char) : List Char × Option (List Char) :=
  if authority.head? = some '[' then
    let address := authority.takeWhile (· ≠ ']') ++ [']']
    match authority.drop address.length with
    | ':' :: port => (address, some port)
    | _ => (address, none)
  else
    let name := authority.takeWhile (· ≠ ':')
    match authority.drop name.length with
    | ':' :: port => (name, some port)
    | _ => (name, none)

/-- The host of an authority with user, host and port. A port and a user need a host; a lone colon
is no user. -/
def hostOfAuthority (registered : Bool) (authority : List Char) : Except ResolveError Host := do
  let behindUser := (authority.reverse.takeWhile (· ≠ '@')).reverse
  let user := authority.take (authority.length - behindUser.length)
  let (name, port?) := splitPort behindUser
  if name = [] ∧ (registered ∨ port?.isSome ∨ (user ≠ [] ∧ user ≠ [':', '@'])) then throw .emptyHost
  let host ← if registered then hostOfName name else hostOfText name
  match port? with
  | some port => checkPort port
  | none => pure ()
  pure host

end CodeIntel.Uri
