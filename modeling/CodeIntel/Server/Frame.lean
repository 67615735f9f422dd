import CodeIntel.Json.Reader
import CodeIntel.Server.Error
import CodeIntel.Text.Basic
import CodeIntel.Text.Utf8

namespace CodeIntel.Frame

def lineFeed : UInt8 := 0x0A

def carriageReturn : UInt8 := 0x0D

/-- A message with the header that tells its length in bytes. -/
def encode (content : List UInt8) : List UInt8 :=
  utf8Bytes s!"Content-Length: {content.length}\r\n\r\n" ++ content

/-- What the header lines read so far have told. -/
structure Header where
  length : Option Nat
  started : Bool

/-- A line without the line feeds and carriage returns at its end. -/
def trimLine (line : List Char) : List Char :=
  (line.reverse.dropWhile fun c => c = '\r' || c = '\n').reverse

def lengthName : List Char := "Content-Length:".toList

/-- A length as headers write it: digits, perhaps behind a plus sign, below `2 ^ 64`. -/
def parseLength? (cs : List Char) : Option Nat :=
  let digits := if cs.head? = some '+' then cs.drop 1 else cs
  if digits ≠ [] ∧ digits.all isDigit then
    let n := digits.foldl (fun n c => n * 10 + digitValue c) 0
    if n < UInt64.size then some n else none
  else none

/-- What is to be done after a header line. -/
inductive LineResult
  | more (header : Header)
  | body (length : Nat)
  | failed (error : ServerError)

def notText (line : List UInt8) : ServerError :=
  .io (((utf8Fault? line).map Utf8Fault.message).getD "")

/-- Reads one line of a header. An empty line ends it; lines of other names are passed over. -/
def readHeaderLine (header : Header) (line : List UInt8) : LineResult :=
  match ofUtf8? line with
  | none => .failed (notText line)
  | some text =>
    let line := trimLine text.toList
    if line = [] then
      match header.length with
      | some n => .body n
      | none => .failed (.protocol "Missing Content-Length header")
    else if lengthName.isPrefixOf line then
      match parseLength? (trimBlank (line.drop lengthName.length)) with
      | some n => .more ⟨some n, true⟩
      | none => .failed (.protocol "Invalid Content-Length")
    else .more ⟨header.length, true⟩

def readContent (content : List UInt8) : Except ServerError Json :=
  match (ofUtf8? content).bind Json.parse? with
  | some value => .ok value
  | none => .error (.json .malformed)

/-- How reading one message from a stream ends. -/
inductive Outcome
  | message (value : Json) (rest : List UInt8)
  | failed (error : ServerError)
  | ended
  | waiting

/-- What comes of a stream that stops inside a frame. -/
def earlyEnd : ServerError := .io "early eof"

/-- The greatest length of a content. One that claims to be longer is waited for without end. -/
def greatestLength : Nat := Nat.pow 2 63 - 1

def bodyOutcome (closed : Bool) (length : Nat) (bytes : List UInt8) : Outcome :=
  let content := bytes.take length
  if content.length = length then
    match readContent content with
    | .ok value => .message value (bytes.drop length)
    | .error e => .failed e
  else if closed && length ≤ greatestLength then .failed earlyEnd
  else .waiting

/-- What comes of the last bytes of a stream, which end no line. -/
def lastLineOutcome (header : Header) (bytes : List UInt8) : Outcome :=
  match bytes with
  | [] =>
    if header.started then .failed (.connectionLost "Server closed connection") else .ended
  | _ =>
    match readHeaderLine header bytes with
    | .more _ => .failed (.connectionLost "Server closed connection")
    | .body length => bodyOutcome true length []
    | .failed e => .failed e

/-- Reads one message from the bytes that have come; `closed` says that no more will come. The bytes
of the header line at hand stand last first. -/
def readFrom (closed : Bool) : Header → List UInt8 → List UInt8 → Outcome
  | header, line, [] => if closed then lastLineOutcome header line.reverse else .waiting
  | header, line, b :: rest =>
    if b = lineFeed then
      match readHeaderLine header (b :: line).reverse with
      | .more header => readFrom closed header [] rest
      | .body length => bodyOutcome closed length rest
      | .failed e => .failed e
    else readFrom closed header (b :: line) rest

def read (closed : Bool) (bytes : List UInt8) : Outcome := readFrom closed ⟨none, false⟩ [] bytes

/-- All messages of a finished stream, and the error that stops the reading, if one does. -/
def readAllFrom : Nat → List UInt8 → List Json → List Json × Option ServerError
  | 0, _, acc => (acc.reverse, none)
  | fuel + 1, bytes, acc =>
    match read true bytes with
    | .message value rest => readAllFrom fuel rest (value :: acc)
    | .failed e => (acc.reverse, some e)
    | .ended | .waiting => (acc.reverse, none)

def readAll (bytes : List UInt8) : List Json × Option ServerError :=
  readAllFrom (bytes.length + 1) bytes []

end CodeIntel.Frame
