import CodeIntel.Proofs.Link.Table

namespace CodeIntel

namespace Json

/-- The identifier, the method and the parameters of a request: it has a method and an identifier
that is not null. A method that is no text stands for the empty one. -/
def request? (value : Json) : Option (Json × String × Option Json) :=
  match value.member? "method", value.member? "id" with
  | some method, some id =>
    if id.isNull then none else some (id, method.string?.getD "", value.member? "params")
  | _, _ => none

/-- The method and the parameters of a notification: version and method are texts, and there is no
identifier but null. -/
def notification? (value : Json) : Option (String × Json) :=
  match value.member? "jsonrpc", value.member? "method", (value.member? "id").all isNull with
  | some (.string _), some (.string method), true =>
    some (method, (value.member? "params").getD .null)
  | _, _, _ => none

/-- A value that is an answer: it has no method, but an identifier that is not null, its version is
a text, and if it tells of an error, then of one that can be read. -/
structure IsAnswer (value : Json) : Prop where
  method : value.member? "method" = none
  id : ∃ id, value.member? "id" = some id ∧ id.isNull = false
  version : ∃ version, value.member? "jsonrpc" = some (.string version)
  error : ∀ error, value.member? "error" = some error →
    error = .null ∨ ∃ e, Incoming.failure error = .ok e

/-- Nothing is both a request and a notification. -/
theorem notification?_of_request? {value : Json} {request : Json × String × Option Json}
    (isRequest : value.request? = some request) : value.notification? = none := by
  unfold request? at isRequest
  split at isRequest
  next method id _ named =>
    split at isRequest
    next => cases isRequest
    next notNull =>
      unfold notification?
      rw [named]
      split
      next isNull => exact absurd isNull notNull
      next => rfl
  next => cases isRequest

end Json

theorem Decoder.ok_of_nullable {α : Type} {decode : Decoder α} {value : Json} {a? : Option α}
    (read : (nullable decode value).toOption = some a?) :
    value = .null ∨ ∃ a, decode value = .ok a := by
  unfold nullable at read
  split at read
  next => exact .inl rfl
  next =>
    cases decoded : decode value with
    | ok a => exact .inr ⟨a, rfl⟩
    | error e =>
      rw [decoded] at read
      cases read

namespace Incoming

theorem notificationOf_object (members : List (String × Json)) :
    (notificationOf (.object members)).toOption =
      match findEntry "jsonrpc" members, findEntry "method" members with
      | some (.string _), some (.string method) =>
        some (.notification method ((findEntry "params" members).filter fun params => !params.isNull))
      | _, _ => none := by
  unfold notificationOf
  rw [Fields.toOption_decode, Fields.read_seq, Fields.read_seq, Fields.read_map,
    Fields.read_required, Fields.read_required, Fields.read_optional]
  cases findEntry "jsonrpc" members with
  | none => rfl
  | some version =>
    cases version with
    | string version =>
      cases findEntry "method" members with
      | none => rfl
      | some method =>
        cases method with
        | string method =>
          cases findEntry "params" members with
          | none => rfl
          | some params => cases params <;> rfl
        | _ => rfl
    | _ => rfl

theorem ofOption_filter (params : Option Json) :
    Json.ofOption (params.filter fun params => !params.isNull) = params.getD .null := by
  cases params with
  | none => rfl
  | some params => cases params <;> rfl

/-- Whatever is read as an answer is one, with a version, and with an error that can be read, if
with any. -/
theorem answerOf_eq_some {members : List (String × Json)} {message : Incoming}
    (h : (answerOf (.object members)).toOption = some message) :
    (∃ id content, message = .answer id content) ∧
      (∃ version, findEntry "jsonrpc" members = some (.string version)) ∧
      ∀ error, findEntry "error" members = some error →
        error = .null ∨ ∃ e, failure error = .ok e := by
  unfold answerOf at h
  rw [Fields.toOption_decode, Fields.read_seq, Fields.read_seq, Fields.read_seq, Fields.read_map,
    Fields.read_required] at h
  simp only [Option.bind_eq_some_iff, Option.map_eq_some_iff] at h
  obtain ⟨_, ⟨_, ⟨_, ⟨_, ⟨version, found, isText⟩, rfl⟩, id, _, rfl⟩, result, _, rfl⟩, error,
    read, rfl⟩ := h
  refine ⟨⟨id, ⟨result, error⟩, rfl⟩, ?_, fun told there => ?_⟩
  · cases version with
    | string version => exact ⟨version, found⟩
    | _ => cases isText
  · rw [Fields.read_optional, there] at read
    exact Decoder.ok_of_nullable read

/-- A value with a method and without an identifier is a notification if it is well-formed, and else
nothing. -/
theorem notificationOf_spec {value : Json} (free : (value.member? "id").all Json.isNull = true)
    {method : Json} (found : value.member? "method" = some method) :
    match value.notification? with
    | some (method, params) => ∃ params?,
      (notificationOf value).toOption = some (.notification method params?) ∧
        .ofOption params? = params
    | none => (notificationOf value).toOption = none := by
  cases value with
  | object members =>
    rw [notificationOf_object]
    unfold Json.notification?
    rw [free]
    simp only [Json.member?] at found ⊢
    rw [found]
    cases findEntry "jsonrpc" members with
    | none => rfl
    | some version =>
      cases version with
      | string version =>
        cases method with
        | string method => exact ⟨_, rfl, ofOption_filter _⟩
        | _ => rfl
      | _ => rfl
  | _ => cases found

/-- What a value is taken for is told by its members alone. -/
theorem ofJson?_spec (value : Json) :
    match value.request?, value.notification? with
    | some (id, method, params), _ => ofJson? value = some (.request id method params)
    | none, some (method, params) =>
      ∃ params?, ofJson? value = some (.notification method params?) ∧ .ofOption params? = params
    | none, none =>
      ofJson? value = none ∨
        value.IsAnswer ∧ ∃ id content, ofJson? value = some (.answer id content) := by
  cases found : value.member? "method" with
  | none =>
    have noRequest : value.request? = none := by simp [Json.request?, found]
    have noNotification : value.notification? = none := by
      unfold Json.notification?
      rw [found]
      split
      next isSome _ => cases isSome
      next => rfl
    rw [noRequest, noNotification]
    unfold ofJson?
    rw [found]
    cases named : value.member? "id" with
    | none => exact .inl rfl
    | some id =>
      cases isNull : id.isNull with
      | true => exact .inl (by simp [Option.filter, isNull])
      | false =>
        have kept : (some id).filter (fun id => !id.isNull) = some id := by
          simp [Option.filter, isNull]
        simp only [kept]
        cases read : (answerOf value).toOption with
        | none => exact .inl rfl
        | some message =>
          cases value with
          | object members =>
            obtain ⟨⟨id', content, rfl⟩, version, error⟩ := answerOf_eq_some read
            exact .inr ⟨⟨found, ⟨id, named, isNull⟩, version, error⟩, id', content, rfl⟩
          | _ => cases named
  | some method =>
    cases free : (value.member? "id").all Json.isNull with
    | true =>
      have noRequest : value.request? = none := by
        cases named : value.member? "id" with
        | none => simp [Json.request?, found, named]
        | some id => simpa [Json.request?, found, named] using free
      have unnamed : ((value.member? "id").filter fun id => !id.isNull) = none := by
        cases named : value.member? "id" with
        | none => rfl
        | some id =>
          rw [named] at free
          simpa [Option.filter] using free
      have is : ofJson? value = (notificationOf value).toOption := by
        simp only [ofJson?, found, unnamed]
      have spec := notificationOf_spec free found
      rw [noRequest, is]
      split at spec
      next read =>
        rw [read]
        exact spec
      next read =>
        rw [read]
        exact .inl spec
    | false =>
      cases named : value.member? "id" with
      | none => simp [named] at free
      | some id =>
        have isNull : id.isNull = false := by simpa [named] using free
        simp [Json.request?, ofJson?, found, named, isNull, Option.filter]

end Incoming

/-- The methods of requests of a server that are answered with a result. -/
def knownMethods : List String :=
  ["workspace/configuration", "client/registerCapability", "client/unregisterCapability",
    "window/workDoneProgress/create", "window/showMessageRequest", "workspace/workspaceFolders",
    "workspace/applyEdit"]

/-- How many items the parameters of a request ask for. -/
def itemCount (params : Option Json) : Nat :=
  match params.bind fun p => p.member? "items" with
  | some (.array items) => items.length
  | _ => 0

/-- What is to be found in the reply to a request with this identifier, method and parameters. -/
structure Json.Replies (request : Json × String × Option Json) (reply : Json) : Prop where
  id : reply.member? "id" = some request.1
  method : reply.member? "method" = none
  one : (reply.member? "result").isSome ≠ (reply.member? "error").isSome
  configuration : request.2.1 = "workspace/configuration" →
    reply.member? "result" = some (.array (List.replicate (itemCount request.2.2) .null))
  unknown : request.2.1 ∉ knownMethods →
    ∃ error, reply.member? "error" = some error ∧ error.member? "code" = some (.int (-32601))

/-- The reply to a request. -/
def replyTo (request : Json × String × Option Json) : Outgoing :=
  match replyToServer request.2.1 request.2.2 with
  | .ok value => .result request.1 value
  | .error e => .failure request.1 e

namespace Link

/-- What the reader does with a value. -/
def hear (link : Link) (value : Json) : Link :=
  match Incoming.ofJson? value with
  | some message => link.receive message
  | none => link

/-- What comes of a value that is read: a request is replied to next, a notification is kept, and only
an answer is looked up in the table of those that are expected. -/
structure Heeds (link link' : Link) (value : Json) : Prop where
  reader : link'.reader =
    match value.request? with
    | some request => .replying (Attempt.send (replyTo request)).run
    | none => .reading
  notices : link'.notices = link.notices ++ value.notification?.toList
  table : value.IsAnswer ∨ SameTable link link'
  incoming : link'.incoming = link.incoming
  finished : link'.finished = link.finished
  taken : link'.taken = link.taken
  writable : link'.writable = link.writable

variable {link : Link}

theorem heeds_answer {value : Json} (reading : link.reader = .reading) (isAnswer : value.IsAnswer)
    (request : value.request? = none) (notification : value.notification? = none) (id : Json)
    (answer : Answer) : Heeds link (link.receive (.answer id answer)) value := by
  by_cases isNumber : ∃ n : Nat, id = .nat n
  · obtain ⟨n, rfl⟩ := isNumber
    rw [receive_answer_nat, deliver]
    split
    all_goals exact ⟨by rw [request]; exact reading, by simp [notification], .inl isAnswer,
      rfl, rfl, rfl, rfl⟩
  · rw [receive_answer_other link answer fun n same => isNumber ⟨n, same⟩]
    exact ⟨by rw [request]; exact reading, by simp [notification], .inl isAnswer,
      rfl, rfl, rfl, rfl⟩

/-- The reader tells the kinds of messages apart as said. -/
theorem heeds_hear (reading : link.reader = .reading) (value : Json) :
    Heeds link (link.hear value) value := by
  have spec := Incoming.ofJson?_spec value
  unfold hear
  cases request : value.request? with
  | some request =>
    rw [request] at spec
    rw [spec]
    exact ⟨by rw [request]; rfl, by simp [Json.notification?_of_request? request]; rfl,
      .inr ⟨rfl, rfl, rfl⟩, rfl, rfl, rfl, rfl⟩
  | none =>
    cases notification : value.notification? with
    | some pair =>
      obtain ⟨method, params⟩ := pair
      rw [request, notification] at spec
      obtain ⟨params?, is, rfl⟩ := spec
      rw [is]
      exact ⟨by rw [request]; exact reading, by rw [notification]; rfl, .inr ⟨rfl, rfl, rfl⟩,
        rfl, rfl, rfl, rfl⟩
    | none =>
      rw [request, notification] at spec
      rcases spec with is | ⟨isAnswer, id, answer, is⟩
      · rw [is]
        exact ⟨by rw [request]; exact reading, by simp [notification], .inr (.refl link),
          rfl, rfl, rfl, rfl⟩
      · rw [is]
        exact heeds_answer reading isAnswer request notification id answer

theorem readerStep_of_message {link : Link} {value : Json} {rest : List UInt8}
    (reading : link.reader = .reading)
    (found : Frame.read link.finished link.incoming = .message value rest) (m : Moment) :
    link.readerStep m = (({ link with incoming := rest } : Link).hear value, true) := by
  unfold readerStep hear
  rw [reading]
  simp only
  rw [found]
  cases is : Incoming.ofJson? value <;> simp only [is]

theorem heeds_readerStep {value : Json} {rest : List UInt8} (reading : link.reader = .reading)
    (found : Frame.read link.finished link.incoming = .message value rest) (m : Moment) :
    Heeds { link with incoming := rest } (link.readerStep m).1 value := by
  have still : ({ link with incoming := rest } : Link).reader = .reading := reading
  rw [readerStep_of_message reading found]
  exact heeds_hear still value

end Link

namespace Outgoing

theorem member?_result (id value : Json) :
    (result id value).toJson.member? "id" = some id ∧
      (result id value).toJson.member? "method" = none ∧
      (result id value).toJson.member? "result" = some value ∧
      (result id value).toJson.member? "error" = none := by
  simp [toJson, Json.ofOptionalMembers, Json.ofMembers, Json.sortMembers, Json.member?,
    findEntry_insertEntry_self, findEntry_insertEntry_of_ne, findEntry]

theorem member?_failure (id : Json) (error : RemoteError) :
    (failure id error).toJson.member? "id" = some id ∧
      (failure id error).toJson.member? "method" = none ∧
      (failure id error).toJson.member? "result" = none ∧
      (failure id error).toJson.member? "error" = some error.toJson := by
  simp [toJson, Json.ofOptionalMembers, Json.ofMembers, Json.sortMembers, Json.member?,
    findEntry_insertEntry_self, findEntry_insertEntry_of_ne, findEntry]

end Outgoing

theorem RemoteError.member?_code (e : RemoteError) :
    e.toJson.member? "code" = some (.int e.code) := by
  simp [toJson, Json.ofMembers, Json.sortMembers, Json.member?, findEntry_insertEntry_self,
    findEntry_insertEntry_of_ne]

theorem replyToServer_configuration (params : Option Json) :
    replyToServer "workspace/configuration" params =
      .ok (.array (List.replicate (itemCount params) .null)) := by
  have items : ∀ value : Option Json, ((value.bind Json.array?).getD []).map (fun _ => Json.null) =
      List.replicate (match value with | some (.array items) => items.length | _ => 0) .null := by
    rintro (_ | value)
    · rfl
    · cases value with
      | array items => exact List.map_const' ..
      | _ => rfl
  exact congrArg (fun nulls => Except.ok (Json.array nulls)) (items _)

theorem replyToServer_unknown {method : String} (unknown : method ∉ knownMethods)
    (params : Option Json) : replyToServer method params = .error (.methodNotFound method) := by
  unfold replyToServer
  split <;> first | rfl | exact absurd (by simp [knownMethods]) unknown

theorem replies_replyTo (request : Json × String × Option Json) :
    Json.Replies request (replyTo request).toJson := by
  obtain ⟨id, method, params⟩ := request
  have configuration : method = "workspace/configuration" →
      replyTo (id, method, params) = .result id (.array (List.replicate (itemCount params) .null)) := by
    rintro rfl
    rw [replyTo, replyToServer_configuration]
  have unknown : method ∉ knownMethods →
      replyTo (id, method, params) = .failure id (.methodNotFound method) := by
    intro unknown
    rw [replyTo, replyToServer_unknown unknown]
  have either : (∃ value, replyTo (id, method, params) = .result id value) ∨
      ∃ e, replyTo (id, method, params) = .failure id e := by
    unfold replyTo
    split
    next value _ => exact .inl ⟨value, rfl⟩
    next e _ => exact .inr ⟨e, rfl⟩
  refine ⟨?_, ?_, ?_, ?_, ?_⟩
  · rcases either with ⟨value, eq⟩ | ⟨e, eq⟩
    · exact eq ▸ (Outgoing.member?_result id value).1
    · exact eq ▸ (Outgoing.member?_failure id e).1
  · rcases either with ⟨value, eq⟩ | ⟨e, eq⟩
    · exact eq ▸ (Outgoing.member?_result id value).2.1
    · exact eq ▸ (Outgoing.member?_failure id e).2.1
  · rcases either with ⟨value, eq⟩ | ⟨e, eq⟩
    · simp [eq, Outgoing.member?_result id value]
    · simp [eq, Outgoing.member?_failure id e]
  · intro isConfiguration
    rw [configuration isConfiguration]
    exact (Outgoing.member?_result id _).2.2.1
  · intro isUnknown
    rw [unknown isUnknown]
    exact ⟨_, (Outgoing.member?_failure id _).2.2.2, RemoteError.member?_code _⟩

end CodeIntel
