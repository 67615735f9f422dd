import CodeIntel.Shape.Fields

namespace CodeIntel.Agent

/-- What a caller names a request by: a number or a text. -/
inductive RequestId
  | number (n : Int)
  | text (s : String)
deriving DecidableEq, Repr, Inhabited

namespace RequestId

def display : RequestId → String
  | number n => n.repr
  | text s => s

def decode : Decoder RequestId :=
  .firstOf "RequestId" [.map number .i64, .map text .string]

def toJson : RequestId → Json
  | number n => .int n
  | text s => .string s

end RequestId

/-- A call, or a notification if it has no identifier. -/
structure Request where
  version : String
  id : Option RequestId
  method : String
  params : Option Json

namespace Request

def decode : Decoder Request :=
  Fields.decode "JsonRpcRequest" <|
    Request.mk <$> .required "jsonrpc" .string
      <*> .omittable "id" RequestId.decode
      <*> .required "method" .string
      <*> .omittable "params" .json

def toJson (r : Request) : Json :=
  .ofOptionalMembers
    [("jsonrpc", some (.string r.version)), ("id", r.id.map RequestId.toJson),
      ("method", some (.string r.method)), ("params", r.params)]

def isNotification (r : Request) : Bool := r.id.isNone

end Request

/-- Why a call failed. -/
structure ErrorObject where
  code : Int
  message : String
  data : Option Json

namespace ErrorObject

def decode : Decoder ErrorObject :=
  Fields.decode "JsonRpcError" <|
    ErrorObject.mk <$> .required "code" .i64
      <*> .required "message" .string
      <*> .optional "data" .json

def toJson (e : ErrorObject) : Json :=
  .ofOptionalMembers
    [("code", some (.int e.code)), ("message", some (.string e.message)), ("data", e.data)]

def parse : Int := -32700
def invalidRequest : Int := -32600
def methodNotFound : Int := -32601
def invalidParams : Int := -32602

end ErrorObject

/-- The answer to a call. Its identifier is null only where that of the call could not be read. -/
structure Response where
  version : String
  id : Option RequestId
  result : Option Json
  error : Option ErrorObject

namespace Response

def success (id : Option RequestId) (result : Json) : Response := ⟨"2.0", id, some result, none⟩

def failure (id : Option RequestId) (code : Int) (message : String) : Response :=
  ⟨"2.0", id, none, some ⟨code, message, none⟩⟩

def decode : Decoder Response :=
  Fields.decode "JsonRpcResponse" <|
    Response.mk <$> .required "jsonrpc" .string
      <*> .optional "id" RequestId.decode
      <*> .optional "result" .json
      <*> .optional "error" ErrorObject.decode

def toJson (r : Response) : Json :=
  .ofOptionalMembers
    [("jsonrpc", some (.string r.version)), ("id", some (.ofOption (r.id.map RequestId.toJson))),
      ("result", r.result), ("error", r.error.map ErrorObject.toJson)]

end Response

end CodeIntel.Agent
