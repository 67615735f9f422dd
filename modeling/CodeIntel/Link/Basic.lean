import CodeIntel.Client.Deed
import CodeIntel.Session.Lock

namespace CodeIntel

/-- A message of a server, told apart by its members. -/
inductive Incoming
  | answer (id : Json) (answer : Answer)
  | request (id : Json) (method : String) (params : Option Json)
  | notification (method : String) (params : Option Json)

namespace Incoming

def failure : Decoder RemoteError :=
  Fields.decode "JsonRpcError" <|
    (fun code message _ => ⟨code, message⟩) <$> .required "code" .i64
      <*> .required "message" .string
      <*> .optional "data" .json

def answerOf : Decoder Incoming :=
  Fields.decode "JsonRpcResponse" <|
    (fun _ id result error => answer id ⟨result, error⟩) <$> .required "jsonrpc" .string
      <*> .required "id" .json
      <*> .optional "result" .json
      <*> .optional "error" failure

def notificationOf : Decoder Incoming :=
  Fields.decode "JsonRpcNotification" <|
    (fun _ method params => notification method params) <$> .required "jsonrpc" .string
      <*> .required "method" .string
      <*> .optional "params" .json

/-- A request has a method and an identifier, a notification only a method, and an answer only an
identifier. Anything else is no message, and so is one whose members are not as they should be. -/
def ofJson? (value : Json) : Option Incoming :=
  let id? := (value.member? "id").filter fun id => !id.isNull
  match value.member? "method", id? with
  | some method, some id => some (request id (method.string?.getD "") (value.member? "params"))
  | some _, none => (notificationOf value).toOption
  | none, some _ => (answerOf value).toOption
  | none, none => none

end Incoming

inductive Reader
  | reading
  /-- It answers a request of the server. -/
  | replying (work : Work (Except ServerError Unit))
  | ended

/-- The state of a connection to a server. -/
structure Link where
  /-- Bytes that were written and that the server has not taken yet. -/
  outgoing : List UInt8
  /-- How many such bytes there may be. -/
  room : Nat
  /-- Whether the server still takes bytes. -/
  taken : Bool
  /-- Bytes of the server that were not read yet. -/
  incoming : List UInt8
  /-- Whether the server sends no more bytes. -/
  finished : Bool
  /-- Whether the stream to the server is open on this side. -/
  writable : Bool
  writer : Lock
  /-- The bytes that whoever holds the stream has yet to write. -/
  unwritten : Option (List UInt8)
  lastId : Nat
  /-- The requests whose answers are expected, with those who expect them. -/
  pending : List (Nat × Holder)
  /-- The answers that were delivered and not looked at yet. -/
  mail : List (Nat × Holder × Answer)
  reader : Reader
  /-- The notifications that were read and not looked at yet. -/
  notices : List (String × Json)
  publications : Publications
  documentsLock : Lock
  documents : PathTable Document

namespace Link

/-- A new connection with room for so many bytes under way. -/
def fresh (room : Nat) : Link where
  outgoing := []
  room := room
  taken := true
  incoming := []
  finished := false
  writable := true
  writer := .free
  unwritten := none
  lastId := 0
  pending := []
  mail := []
  reader := .reading
  notices := []
  publications := .none
  documentsLock := .free
  documents := .empty

/-- The reader of a connection, as one who may hold locks. -/
def readerHolder : Holder := 0

def expect (link : Link) (self : Holder) : Link :=
  { link with lastId := link.lastId + 1, pending := (link.lastId + 1, self) :: link.pending }

def mailFor? (link : Link) (id : Nat) : Option Answer :=
  (link.mail.find? fun m => m.1 = id).map (·.2.2)

def isPending (link : Link) (id : Nat) : Bool := link.pending.any fun p => p.1 = id

/-- Delivers an answer to the request that expects it; other answers change nothing. -/
def deliver (link : Link) (id : Nat) (answer : Answer) : Link :=
  match link.pending.find? fun p => p.1 = id with
  | none => link
  | some (_, holder) =>
    { link with
      pending := link.pending.filter fun p => p.1 ≠ id
      mail := link.mail ++ [(id, holder, answer)] }

def forget (link : Link) (id : Nat) : Link :=
  { link with
    pending := link.pending.filter fun p => p.1 ≠ id
    mail := link.mail.filter fun m => m.1 ≠ id }

/-- Moves as many of the bytes at hand on their way as there is room for. -/
def push (link : Link) (bytes : List UInt8) : Link :=
  let free := link.room - link.outgoing.length
  { link with
    outgoing := link.outgoing ++ bytes.take free
    unwritten := if bytes.length ≤ free then none else some (bytes.drop free) }

def brokenPipe : ServerError := .io "broken pipe"

/-- Writes bytes, or goes on with the writing; it ends when all are on their way. -/
def write (link : Link) (bytes : List UInt8) : Link × Option (Except ServerError Unit) :=
  if !link.taken then ({ link with unwritten := none }, some (.error brokenPipe))
  else
    let link := link.push (link.unwritten.getD bytes)
    (link, if link.unwritten.isNone then some (.ok ()) else none)

def leaveWriter (link : Link) (self : Holder) : Link :=
  { link with
    writer := link.writer.withdraw self
    unwritten := if link.writer.holder = some self then none else link.unwritten }

/-- Ends all that someone has to do with the connection, wherever the work stands. -/
def abandon (link : Link) (self : Holder) : Link :=
  let link := link.leaveWriter self
  { link with
    documentsLock := link.documentsLock.withdraw self
    pending := link.pending.filter fun p => p.2 ≠ self
    mail := link.mail.filter fun m => m.2.1 ≠ self }

end Link

end CodeIntel
