import CodeIntel.Agent.Protocol
import CodeIntel.Proofs.Shape.Reading

namespace CodeIntel.Agent

open Decoder (Undoes IsLong undoes_bool undoes_i64 yields_true json_apart)
open Fields

variable {value : Json}

/-- Whether a value that may be missing is not null where it is there. -/
def IsGiven (payload : Option Json) : Prop := ∀ value ∈ payload, value ≠ .null

namespace RequestId

/-- Whether a number that names a request has 64 bits. -/
def Fits : RequestId → Prop
  | number n => IsLong n
  | text _ => True

/-- A number is read off that number only, and a text off that text. -/
theorem decode_eq_ok_iff {id : RequestId} :
    decode value = .ok id ↔ value = id.toJson ∧ id.Fits := by
  have texts (s : String) : decode (.string s) = .ok (text s) := rfl
  have numbers (n : Number) :
      decode (.number n) = match (number <$> Decoder.i64 (.number n)).toOption with
        | some id => .ok id
        | none => .error (.noVariant "RequestId") := by
    simp only [decode, Decoder.firstOf, Decoder.map, List.findSome?]
    cases Decoder.i64 (.number n) <;> rfl
  constructor
  · intro read
    cases value with
    | string s =>
      rw [texts] at read
      cases read
      exact ⟨rfl, trivial⟩
    | number n =>
      rw [numbers] at read
      cases long : Decoder.i64 (.number n) with
      | ok m =>
        rw [long] at read
        cases read
        exact Decoder.integer_eq_ok_iff.mp long
      | error e =>
        rw [long] at read
        cases read
    | _ => cases read
  · rintro ⟨rfl, fits⟩
    cases id with
    | text s => rfl
    | number n =>
      have long : Decoder.i64 (.number (.int n)) = .ok n := undoes_i64.back n fits
      rw [toJson, Json.int, numbers, long]
      rfl

theorem undoes : Undoes decode toJson Fits where
  back _ fits := decode_eq_ok_iff.mpr ⟨rfl, fits⟩
  yields _ _ read := (decode_eq_ok_iff.mp read).2

theorem toJson_ne_null (id : RequestId) : id.toJson ≠ .null := by
  cases id <;> nofun

end RequestId

namespace Request

/-- Whether nothing of a request is lost when it is written. -/
def Plain (r : Request) : Prop := (∀ id ∈ r.id, id.Fits) ∧ IsGiven r.params

theorem undoes : Undoes decode toJson Plain where
  back r plain := by
    refine decode_ofOptionalMembers (by simp) (fun entries found => ?_) _
    have identified : (omittable "id" RequestId.decode).Reads entries r.id :=
      reads_omittable_map (by simp [found, findEntry]) fun id mem =>
        ⟨RequestId.undoes.back id (plain.1 id mem), id.toJson_ne_null⟩
    exact ((((reads_text (by simp [found, findEntry])).map Request.mk).seq identified).seq
      (reads_text (by simp [found, findEntry]))).seq
        (reads_omittable_json (by simp [found, findEntry]) plain.2)
  yields := by
    refine Fields.Yields.decode ?_ _
    refine ((((yields_required (yields_true _)).map ?_).seq
      (yields_omittable RequestId.undoes.yields.apart)).seq (yields_required (yields_true _))).seq
        (yields_omittable json_apart)
    exact fun _ _ _ fits _ _ _ given => ⟨fits, given⟩

/-- The identifier of a request stands in it as it was given. -/
theorem member?_id (r : Request) : r.toJson.member? "id" = r.id.map RequestId.toJson := by
  have once : (([("jsonrpc", some (.string r.version)), ("id", r.id.map RequestId.toJson),
      ("method", some (.string r.method)), ("params", r.params)] : List (String × Option Json)).map
      Prod.fst).Nodup := by simp
  obtain ⟨entries, same, found⟩ := Json.exists_ofOptionalMembers once
  rw [toJson, same]
  simp [Json.member?, found, findEntry]

/-- What a caller gives as the identifier of a request is what stands in it; null is none. -/
theorem member?_id_of_decode {r : Request} (read : decode value = .ok r) :
    r.toJson.member? "id" = (value.fieldAt? "id" 1).filter fun id => !id.isNull := by
  have taken : ∀ r, decode value = .ok r → Taken RequestId.decode (value.fieldAt? "id" 1) r.id := by
    refine holds_of_decode fun source given => ?_
    simp only [← given]
    refine (((sees_true _ _ _).map ?_).seq (sees_omittable "id" _)).skip.skip
    exact fun _ _ _ taken _ _ => taken
  replace taken := taken r read
  rw [member?_id]
  cases identified : r.id with
  | none =>
    rw [identified] at taken
    refine (Option.filter_eq_none_iff.mpr fun value here => ?_).symm
    simp [taken value here, Json.isNull]
  | some id =>
    rw [identified] at taken
    obtain ⟨value, here, some, read⟩ := taken
    rw [here, (RequestId.decode_eq_ok_iff.mp read).1]
    cases id <;> rfl

end Request

namespace ErrorObject

def Plain (e : ErrorObject) : Prop := IsLong e.code ∧ IsGiven e.data

theorem undoes : Undoes decode toJson Plain where
  back e plain := by
    refine decode_ofOptionalMembers (by simp) (fun entries found => ?_) _
    exact (((reads_written undoes_i64 plain.1 (by simp [found, findEntry])).map ErrorObject.mk).seq
      (reads_text (by simp [found, findEntry]))).seq
        (reads_optional_json (by simp [found, findEntry]) plain.2)
  yields := by
    refine Fields.Yields.decode ?_ _
    refine (((yields_required undoes_i64.yields).map ?_).seq (yields_required (yields_true _))).seq
      (yields_optional json_apart)
    exact fun _ long _ _ _ given => ⟨long, given⟩

theorem toJson_ne_null (e : ErrorObject) : e.toJson ≠ .null := nofun

end ErrorObject

namespace Response

def Plain (r : Response) : Prop :=
  (∀ id ∈ r.id, id.Fits) ∧ IsGiven r.result ∧ ∀ e ∈ r.error, e.Plain

theorem undoes : Undoes decode toJson Plain where
  back r plain := by
    refine decode_ofOptionalMembers (by simp) (fun entries found => ?_) _
    -- A missing identifier is written as null, not left out.
    have identified : (optional "id" RequestId.decode).Reads entries r.id :=
      reads_optional (by simp [found, findEntry]) <| Decoder.nullable_ofOption fun id mem =>
        ⟨RequestId.undoes.back id (plain.1 id mem), id.toJson_ne_null⟩
    have failed : (optional "error" ErrorObject.decode).Reads entries r.error :=
      reads_optional_map (by simp [found, findEntry]) fun e mem =>
        ⟨ErrorObject.undoes.back e (plain.2.2 e mem), e.toJson_ne_null⟩
    exact ((((reads_text (by simp [found, findEntry])).map Response.mk).seq identified).seq
      (reads_optional_json (by simp [found, findEntry]) plain.2.1)).seq failed
  yields := by
    refine Fields.Yields.decode ?_ _
    refine ((((yields_required (yields_true _)).map ?_).seq
      (yields_optional RequestId.undoes.yields.apart)).seq
        (yields_optional json_apart)).seq
          (yields_optional ErrorObject.undoes.yields.apart)
    exact fun _ _ _ fits _ given _ plain => ⟨fits, given, plain⟩

end Response

namespace ListCapability

theorem undoes (name : String) : Undoes (decode name) toJson fun _ => True where
  back c _ := by
    refine decode_ofMembers (by simp) (fun entries found => ?_) _
    exact (reads_defaulted (by simp [found, findEntry])
      (undoes_bool.back c.listChanged trivial)).map ListCapability.mk
  yields := yields_true _

theorem toJson_ne_null (c : ListCapability) : c.toJson ≠ .null := nofun

end ListCapability

namespace Capabilities

theorem undoes : Undoes decode toJson fun _ => True where
  back c _ := by
    refine decode_ofOptionalMembers (by simp) (fun entries found => ?_) _
    have tools : (optional "tools" (ListCapability.decode "ToolsCapability")).Reads entries c.tools :=
      reads_optional_map (by simp [found, findEntry]) fun a _ =>
        ⟨(ListCapability.undoes _).back a trivial, a.toJson_ne_null⟩
    have prompts : (optional "prompts" (ListCapability.decode "PromptsCapability")).Reads entries
        c.prompts :=
      reads_optional_map (by simp [found, findEntry]) fun a _ =>
        ⟨(ListCapability.undoes _).back a trivial, a.toJson_ne_null⟩
    exact (tools.map Capabilities.mk).seq prompts
  yields := yields_true _

end Capabilities

namespace ProgramInfo

theorem undoes : Undoes decode toJson fun _ => True where
  back i _ := by
    refine decode_ofOptionalMembers (by simp) (fun entries found => ?_) _
    exact ((reads_text (by simp [found, findEntry])).map ProgramInfo.mk).seq
      (reads_optional_text (by simp [found, findEntry]))
  yields := yields_true _

end ProgramInfo

namespace InitializeResult

theorem undoes : Undoes decode toJson fun _ => True where
  back r _ := by
    refine decode_ofMembers (by simp) (fun entries found => ?_) _
    exact (((reads_text (by simp [found, findEntry])).map InitializeResult.mk).seq
      (reads_written Capabilities.undoes trivial (by simp [found, findEntry]))).seq
        (reads_written ProgramInfo.undoes trivial (by simp [found, findEntry]))
  yields := yields_true _

end InitializeResult

namespace ToolInfo

def Plain (t : ToolInfo) : Prop := IsGiven t.inputSchema

theorem undoes : Undoes decode toJson Plain where
  back t plain := by
    refine decode_ofOptionalMembers (by simp) (fun entries found => ?_) _
    exact (((reads_text (by simp [found, findEntry])).map ToolInfo.mk).seq
      (reads_optional_text (by simp [found, findEntry]))).seq
        (reads_optional_json (by simp [found, findEntry]) plain)
  yields := by
    refine Fields.Yields.decode ?_ _
    refine (((yields_required (yields_true _)).map ?_).seq (yields_true _)).seq
      (yields_optional json_apart)
    exact fun _ _ _ _ _ given => given

end ToolInfo

namespace ToolList

def Plain (l : ToolList) : Prop := ∀ t ∈ l.tools, t.Plain

theorem undoes : Undoes decode toJson Plain where
  back l plain := by
    refine decode_ofMembers (by simp) (fun entries found => ?_) _
    exact (reads_written ToolInfo.undoes.list plain (by simp [found, findEntry])).map ToolList.mk
  yields := by
    refine Fields.Yields.decode ?_ _
    exact (yields_required ToolInfo.undoes.list.yields).map fun _ plain => plain

end ToolList

namespace CallParams

def Plain (p : CallParams) : Prop := IsGiven p.arguments

theorem undoes (typeName : String) : Undoes (decode typeName) toJson Plain where
  back p plain := by
    refine decode_ofOptionalMembers (by simp) (fun entries found => ?_) _
    exact ((reads_text (by simp [found, findEntry])).map CallParams.mk).seq
      (reads_optional_json (by simp [found, findEntry]) plain)
  yields := by
    refine Fields.Yields.decode ?_ _
    refine ((yields_required (yields_true _)).map ?_).seq (yields_optional json_apart)
    exact fun _ _ _ given => given

end CallParams

namespace Content

theorem undoes : Undoes decode toJson fun _ => True where
  back c _ := by
    obtain ⟨s⟩ := c
    have once : (([("type", .string "text"), ("text", .string s)] : List (String × Json)).map
        Prod.fst).Nodup := by simp
    obtain ⟨entries, same, found⟩ := Json.exists_ofMembers once
    have tagged : findEntry "type" entries = some (.string "text") := by simp [found, findEntry]
    have fields : textFields.ofMembers entries = .ok (text s) :=
      ((reads_text (by simp [found, findEntry])).map text).decode "ToolContent"
    rw [toJson, same, decode, tagged]
    exact fields
  yields := yields_true _

end Content

namespace ToolResult

theorem undoes : Undoes decode toJson fun _ => True where
  back r _ := by
    refine decode_ofMembers (by simp) (fun entries found => ?_) _
    exact ((reads_written Content.undoes.list (fun _ _ => trivial)
      (by simp [found, findEntry])).map ToolResult.mk).seq
        (reads_defaulted (by simp [found, findEntry]) (undoes_bool.back r.isError trivial))
  yields := yields_true _

end ToolResult

namespace PromptArgument

theorem undoes : Undoes decode toJson fun _ => True where
  back a _ := by
    refine decode_ofOptionalMembers (by simp) (fun entries found => ?_) _
    exact (((reads_text (by simp [found, findEntry])).map PromptArgument.mk).seq
      (reads_optional_text (by simp [found, findEntry]))).seq
        (reads_defaulted (by simp [found, findEntry]) (undoes_bool.back a.required trivial))
  yields := yields_true _

end PromptArgument

namespace PromptInfo

theorem undoes : Undoes decode toJson fun _ => True where
  back p _ := by
    refine decode_ofOptionalMembers (by simp) (fun entries found => ?_) _
    exact (((reads_text (by simp [found, findEntry])).map PromptInfo.mk).seq
      (reads_optional_text (by simp [found, findEntry]))).seq
        (reads_defaulted (by simp [found, findEntry])
          (PromptArgument.undoes.list.back p.arguments fun _ _ => trivial))
  yields := yields_true _

end PromptInfo

namespace PromptList

theorem undoes : Undoes decode toJson fun _ => True where
  back l _ := by
    refine decode_ofMembers (by simp) (fun entries found => ?_) _
    exact (reads_written PromptInfo.undoes.list (fun _ _ => trivial)
      (by simp [found, findEntry])).map PromptList.mk
  yields := yields_true _

end PromptList

namespace Role

theorem undoes : Undoes decode (fun role => .string role.name) fun _ => True where
  back role _ := by cases role <;> rfl
  yields := yields_true _

end Role

namespace Message

theorem undoes : Undoes decode toJson fun _ => True where
  back m _ := by
    refine decode_ofMembers (by simp) (fun entries found => ?_) _
    exact ((reads_written Role.undoes trivial (by simp [found, findEntry])).map Message.mk).seq
      (reads_written Content.undoes trivial (by simp [found, findEntry]))
  yields := yields_true _

end Message

namespace PromptResult

theorem undoes : Undoes decode toJson fun _ => True where
  back r _ := by
    refine decode_ofOptionalMembers (by simp) (fun entries found => ?_) _
    exact ((reads_optional_text (by simp [found, findEntry])).map PromptResult.mk).seq
      (reads_written Message.undoes.list (fun _ _ => trivial) (by simp [found, findEntry]))
  yields := yields_true _

end PromptResult

namespace Cancellation

def Plain (c : Cancellation) : Prop := c.requestId.Fits

theorem undoes : Undoes decode toJson Plain where
  back c plain := by
    refine decode_ofOptionalMembers (by simp) (fun entries found => ?_) _
    exact ((reads_written RequestId.undoes plain (by simp [found, findEntry])).map
      Cancellation.mk).seq (reads_omittable_text (by simp [found, findEntry]))
  yields := by
    refine Fields.Yields.decode ?_ _
    refine ((yields_required RequestId.undoes.yields).map ?_).seq (yields_true _)
    exact fun _ fits _ _ => fits

end Cancellation

/-- The types of the values that are exchanged with a caller. -/
inductive MessageType
  | requestId
  | request
  | response
  | errorObject
  | initializeResult
  | capabilities
  | toolsCapability
  | promptsCapability
  | programInfo
  | toolInfo
  | toolList
  | toolCall
  | toolResult
  | content
  | promptArgument
  | promptInfo
  | promptList
  | promptCall
  | role
  | message
  | promptResult
  | cancellation

namespace MessageType

abbrev Value : MessageType → Type
  | requestId => RequestId
  | request => Request
  | response => Response
  | errorObject => ErrorObject
  | initializeResult => InitializeResult
  | capabilities => Capabilities
  | toolsCapability | promptsCapability => ListCapability
  | programInfo => ProgramInfo
  | toolInfo => ToolInfo
  | toolList => ToolList
  | toolCall | promptCall => CallParams
  | toolResult => ToolResult
  | content => Content
  | promptArgument => PromptArgument
  | promptInfo => PromptInfo
  | promptList => PromptList
  | role => Role
  | message => Message
  | promptResult => PromptResult
  | cancellation => Cancellation

def decode : (type : MessageType) → Decoder type.Value
  | requestId => RequestId.decode
  | request => Request.decode
  | response => Response.decode
  | errorObject => ErrorObject.decode
  | initializeResult => InitializeResult.decode
  | capabilities => Capabilities.decode
  | toolsCapability => ListCapability.decode "ToolsCapability"
  | promptsCapability => ListCapability.decode "PromptsCapability"
  | programInfo => ProgramInfo.decode
  | toolInfo => ToolInfo.decode
  | toolList => ToolList.decode
  | toolCall => CallParams.decodeTool
  | toolResult => ToolResult.decode
  | content => Content.decode
  | promptArgument => PromptArgument.decode
  | promptInfo => PromptInfo.decode
  | promptList => PromptList.decode
  | promptCall => CallParams.decodePrompt
  | role => Role.decode
  | message => Message.decode
  | promptResult => PromptResult.decode
  | cancellation => Cancellation.decode

def toJson : (type : MessageType) → type.Value → Json
  | requestId => RequestId.toJson
  | request => Request.toJson
  | response => Response.toJson
  | errorObject => ErrorObject.toJson
  | initializeResult => InitializeResult.toJson
  | capabilities => Capabilities.toJson
  | toolsCapability | promptsCapability => ListCapability.toJson
  | programInfo => ProgramInfo.toJson
  | toolInfo => ToolInfo.toJson
  | toolList => ToolList.toJson
  | toolCall | promptCall => CallParams.toJson
  | toolResult => ToolResult.toJson
  | content => Content.toJson
  | promptArgument => PromptArgument.toJson
  | promptInfo => PromptInfo.toJson
  | promptList => PromptList.toJson
  | role => fun role => .string role.name
  | message => Message.toJson
  | promptResult => PromptResult.toJson
  | cancellation => Cancellation.toJson

/-- Whether the numbers of a value have the bits that they have in its type, and no value of any
shape that it holds is null where it could be missing. -/
def Plain : (type : MessageType) → type.Value → Prop
  | requestId => RequestId.Fits
  | request => Request.Plain
  | response => Response.Plain
  | errorObject => ErrorObject.Plain
  | toolInfo => ToolInfo.Plain
  | toolList => ToolList.Plain
  | toolCall | promptCall => CallParams.Plain
  | cancellation => Cancellation.Plain
  | _ => fun _ => True

theorem undoes (type : MessageType) : Undoes type.decode type.toJson type.Plain := by
  cases type with
  | requestId => exact RequestId.undoes
  | request => exact Request.undoes
  | response => exact Response.undoes
  | errorObject => exact ErrorObject.undoes
  | initializeResult => exact InitializeResult.undoes
  | capabilities => exact Capabilities.undoes
  | toolsCapability | promptsCapability => exact ListCapability.undoes _
  | programInfo => exact ProgramInfo.undoes
  | toolInfo => exact ToolInfo.undoes
  | toolList => exact ToolList.undoes
  | toolCall | promptCall => exact CallParams.undoes _
  | toolResult => exact ToolResult.undoes
  | content => exact Content.undoes
  | promptArgument => exact PromptArgument.undoes
  | promptInfo => exact PromptInfo.undoes
  | promptList => exact PromptList.undoes
  | role => exact Role.undoes
  | message => exact Message.undoes
  | promptResult => exact PromptResult.undoes
  | cancellation => exact Cancellation.undoes

end MessageType

/-- What is written of a value of the protocol is read back as that value, and what was read once
comes back unchanged. An identifier stays the number or the text that it is, and a request, which
has one, stays a request. -/
theorem messages_come_back :
    (∀ (type : MessageType) a, type.Plain a → type.decode (type.toJson a) = .ok a) ∧
    (∀ (type : MessageType) value a,
      type.decode value = .ok a → type.decode (type.toJson a) = .ok a) ∧
    (∀ value id, RequestId.decode value = .ok id → id.toJson = value) ∧
    ∀ value r, Request.decode value = .ok r →
      r.toJson.member? "id" = (value.fieldAt? "id" 1).filter fun id => !id.isNull :=
  ⟨fun type => type.undoes.back, fun type _ _ => type.undoes.again,
    fun _ _ read => (RequestId.decode_eq_ok_iff.mp read).1.symm,
    fun _ _ => Request.member?_id_of_decode⟩

/-- A call that is named by a number comes back as that call. -/
theorem numbered_call_comes_back :
    let call : Request := ⟨"2.0", some (.number 7), "tools/call", some (.object [])⟩
    MessageType.request.Plain call ∧ Request.decode call.toJson = .ok call := by
  have plain : MessageType.request.Plain
      ⟨"2.0", some (.number 7), "tools/call", some (.object [])⟩ := by
    refine ⟨?_, ?_⟩
    · rintro _ ⟨⟩
      exact ⟨by decide, by decide⟩
    · rintro _ ⟨⟩
      nofun
  exact ⟨plain, messages_come_back.1 .request _ plain⟩

end CodeIntel.Agent
