import CodeIntel.Client.Deed
import CodeIntel.Json.Writer
import CodeIntel.Server.Frame

namespace CodeIntel

/-- The messages that go to a server. -/
inductive Outgoing
  | request (id : Nat) (method : String) (params : Option Json)
  | notification (method : String) (params : Option Json)
  | result (id : Json) (value : Json)
  | failure (id : Json) (error : RemoteError)

namespace Outgoing

def toJson (message : Outgoing) : Json :=
  .ofOptionalMembers <| ("jsonrpc", some (.string "2.0")) ::
    match message with
    | request id method params =>
      [("id", some (.nat id)), ("method", some (.string method)), ("params", params)]
    | notification method params => [("method", some (.string method)), ("params", params)]
    | result id value => [("id", some id), ("result", some value)]
    | failure id error => [("id", some id), ("error", some error.toJson)]

def bytes (message : Outgoing) : List UInt8 := Frame.encode (utf8Bytes message.toJson.text)

end Outgoing

namespace Attempt

def send (message : Outgoing) : Attempt Unit := writeWhole message.bytes

def notify (method : String) (params : Option Json) : Attempt Unit :=
  send (.notification method params)

def readAnswer (method : String) (timeout : Nat) : Awaited → Except ServerError Json
  | .late => .error (.timeout method timeout)
  | .lost => .error (.connectionLost s!"Server closed connection during {method}")
  | .answered ⟨result, none⟩ => .ok (.ofOption result)
  | .answered ⟨_, some e⟩ => .error (.requestFailed s!"{method}: {e.message} (code {e.code})")

/-- Sends a request under a number and waits for its answer. -/
def exchange (id : Nat) (method : String) (params : Option Json) (timeout : Nat) :
    Attempt Json := do
  send (.request id method params)
  let start ← ask .now
  let awaited ← ask (.await id (start + timeout))
  liftM (readAnswer method timeout awaited)

/-- Makes a request and waits for its result for `timeout` milliseconds after it is sent. -/
def request (method : String) (params : Option Json) (timeout : Nat) : Attempt Json := do
  let id ← ask .register
  let result ← liftM (m := Work) (exchange id method params timeout).run
  ask (.forget id)
  liftM result

end Attempt

end CodeIntel
