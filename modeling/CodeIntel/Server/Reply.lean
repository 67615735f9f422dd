import CodeIntel.Json.Basic

namespace CodeIntel

/-- An error of a remote call: a number and a text. -/
structure RemoteError where
  code : Int
  message : String

namespace RemoteError

def methodNotFoundCode : Int := -32601

def methodNotFound (method : String) : RemoteError :=
  ⟨methodNotFoundCode, s!"Method not found: {method}"⟩

def toJson (e : RemoteError) : Json :=
  .ofMembers [("code", .int e.code), ("message", .string e.message)]

end RemoteError

/-- The answer to a request of the server. There is no user to ask, and edits are refused; asked
for settings, it has none for each item. -/
def replyToServer (method : String) (params : Option Json) : Except RemoteError Json :=
  match method with
  | "workspace/configuration" =>
    let items := ((params.bind fun p => p.member? "items").bind Json.array?).getD []
    .ok (.array (items.map fun _ => .null))
  | "client/registerCapability" | "client/unregisterCapability" | "window/workDoneProgress/create"
  | "window/showMessageRequest" | "workspace/workspaceFolders" => .ok .null
  | "workspace/applyEdit" =>
    .ok <| .ofMembers
      [("applied", .bool false),
        ("failureReason", .string "Server-initiated edits are not supported")]
  | _ => .error (.methodNotFound method)

end CodeIntel
