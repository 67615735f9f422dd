import CodeIntel.Agent.Protocol
import CodeIntel.Json.Reader
import CodeIntel.Text.Basic
import CodeIntel.Text.Utf8

namespace CodeIntel.Agent

/-- What a line of an agent asks for. -/
inductive LineMeaning
  | nothing
  | refused (response : Response)
  | request (id : RequestId) (method : String) (params : Option Json)
  | cancellation (id : RequestId)

/-- The identifier of a value that is no request, as far as it has one. -/
def idOf? (value : Json) : Option RequestId :=
  (value.member? "id").bind fun id => (RequestId.decode id).toOption

/-- The meaning of a notification: only cancellations have one. -/
def notificationMeaning (method : String) (params : Option Json) : LineMeaning :=
  if method = "notifications/cancelled" then
    match params.bind fun p => (Cancellation.decode p).toOption with
    | some c => .cancellation c.requestId
    | none => .nothing
  else .nothing

def requestMeaning (r : Request) : LineMeaning :=
  match r.id with
  | some id => .request id r.method r.params
  | none => notificationMeaning r.method r.params

/-- The meaning of a line. Blank lines have none; one that is no JSON or no request is refused. -/
def lineMeaning (line : String) : LineMeaning :=
  let cs := line.toList
  if isBlankText cs then .nothing
  else
    match Json.ofChars? cs with
    | none => .refused (.failure none ErrorObject.parse "Parse error: ...")
    | some value =>
      match Request.decode value with
      | .ok r => requestMeaning r
      | .error e =>
        .refused (.failure (idOf? value) ErrorObject.invalidRequest s!"Invalid request: {e.message}")

/-- A line may hold this many bytes, its line feed not counted. -/
def greatestLine : Nat := 16 * 1024 * 1024

/-- A line whose characters stand last first, without a carriage return at its end. -/
def finishLine : List UInt8 → List UInt8
  | 0x0D :: before => before.reverse
  | line => line.reverse

/-- What comes of looking for a line in the bytes at hand. -/
inductive LineSearch
  | found (line rest : List UInt8)
  | tooLong
  | unfinished
deriving Repr

/-- Looks for the end of a line of at most `room` more bytes; `acc` holds those before, last
first. -/
def searchLine (acc : List UInt8) : Nat → List UInt8 → LineSearch
  | _, [] => .unfinished
  | room, b :: rest =>
    if b = 0x0A then .found (finishLine acc) rest
    else
      match room with
      | 0 => .tooLong
      | room + 1 => searchLine (b :: acc) room rest

/-- The next thing that a stream of lines holds. -/
inductive LineResult
  | line (text : String) (rest : List UInt8)
  | tooLong
  | notText
  | waiting
  | ended
deriving Repr

def lineResult (line rest : List UInt8) : LineResult :=
  match ofUtf8? line with
  | some text => .line text rest
  | none => .notText

/-- Reads one line from the bytes that have come; `closed` says that no more will come. What then
stands behind the last line feed is a line too, unless it is empty or a carriage return alone. -/
def readLine (closed : Bool) (bytes : List UInt8) : LineResult :=
  match searchLine [] greatestLine bytes with
  | .found line rest => lineResult line rest
  | .tooLong => .tooLong
  | .unfinished =>
    if !closed then .waiting
    else if bytes.isEmpty || bytes == [0x0D] then .ended
    else lineResult (finishLine bytes.reverse) []

end CodeIntel.Agent
