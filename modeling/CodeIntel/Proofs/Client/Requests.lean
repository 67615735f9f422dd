import CodeIntel.Proofs.Client.Telling
import CodeIntel.Proofs.Frame.Decoding
import CodeIntel.Proofs.Sync.Queries

namespace CodeIntel

namespace Outgoing

theorem chars_request (id : Nat) (method : String) (params : Json) :
    (request id method (some params)).toJson.chars =
      '\x7b' :: (Json.stringChars "id" ++ ':' :: (id.repr.toList ++
        ',' :: (Json.stringChars "jsonrpc" ++ ':' :: (Json.stringChars "2.0" ++
          ',' :: (Json.stringChars "method" ++ ':' :: (Json.stringChars method ++
            ',' :: (Json.stringChars "params" ++ ':' :: (params.chars ++ ['\x7d'])))))))) := by
  have members : (request id method (some params)).toJson =
      .object [("id", .nat id), ("jsonrpc", .string "2.0"), ("method", .string method),
        ("params", params)] := by cbv
  have number : (Json.nat id).chars = id.repr.toList := rfl
  rw [members]
  simp only [Json.chars, Json.membersChars, number, List.cons_append, List.append_assoc]

/-- The number of a request ends at the first comma behind it. -/
theorem rest_eq_of_digits {m n : Nat} {rest rest' : List Char}
    (h : m.repr.toList ++ ',' :: rest = n.repr.toList ++ ',' :: rest') : rest = rest' := by
  have plain (n : Nat) : ∀ c ∈ n.repr.toList, ¬ c = ',' := by
    rintro _ mem rfl
    exact absurd (isDigit_of_mem_repr mem) (by decide)
  exact (append_cons_unique_of_first (P := (· = ',')) h rfl rfl (plain m) (plain n)).2.2

theorem method_eq_of_request {id id' : Nat} {method method' : String} {params params' : Json}
    (h : (request id method (some params)).bytes = (request id' method' (some params')).bytes) :
    method = method' := by
  have chars := chars_eq_of_bytes_eq h
  rw [chars_request, chars_request] at chars
  simp only [List.cons.injEq, true_and, List.append_cancel_left_eq] at chars
  have rest := rest_eq_of_digits chars
  simp only [List.append_cancel_left_eq, List.cons.injEq, true_and] at rest
  exact (Json.stringChars_append_inj rest).1

end Outgoing

/-- Whether a deed writes a request for a method. -/
def Deed.Requests (method : String) : Deed → Prop
  | .write bytes => ∃ id params, bytes = (Outgoing.request id method (some params)).bytes
  | _ => False

/-- These are the parameters of the requests for a method that are written, in their order. -/
inductive Requests (method : String) : Deeds → List Json → Prop
  | nothing : Requests method [] []
  | asked {talk : Deeds} {params : List Json} {turn : (d : Deed) × d.Reply} (id : Nat) {ask : Json}
      (wrote : turn.1 = .write (Outgoing.request id method (some ask)).bytes)
      (rest : Requests method talk params) : Requests method (turn :: talk) (ask :: params)
  | other {talk : Deeds} {params : List Json} {turn : (d : Deed) × d.Reply}
      (quiet : ¬ turn.1.Requests method) (rest : Requests method talk params) :
      Requests method (turn :: talk) params

namespace Requests

variable {method : String} {talk talk' : Deeds} {params params' : List Json}

theorem of_quiet (quiet : ∀ turn ∈ talk, ¬ turn.1.Requests method) : Requests method talk [] := by
  induction talk with
  | nil => exact .nothing
  | cons turn talk ih =>
    obtain ⟨here, later⟩ := List.forall_mem_cons.mp quiet
    exact .other here (ih later)

theorem append (first : Requests method talk params) (second : Requests method talk' params') :
    Requests method (talk ++ talk') (params ++ params') := by
  induction first with
  | nothing => exact second
  | asked id wrote _ ih => exact .asked id wrote ih
  | other quiet _ ih => exact .other quiet ih

theorem requests_of_eq {d : Deed} {id : Nat} {ask : Json}
    (wrote : d = .write (Outgoing.request id method (some ask)).bytes) : d.Requests method := by
  rw [wrote]
  exact ⟨id, ask, rfl⟩

/-- It is certain how many requests are written. -/
theorem length_unique (first : Requests method talk params)
    (second : Requests method talk params') :
    params.length = params'.length := by
  induction first generalizing params' with
  | nothing =>
    cases second
    rfl
  | asked id wrote _ ih =>
    cases second with
    | asked _ _ rest => exact congrArg (· + 1) (ih rest)
    | other quiet => exact absurd (requests_of_eq wrote) quiet
  | other quiet _ ih =>
    cases second with
    | asked id wrote => exact absurd (requests_of_eq wrote) quiet
    | other _ rest => exact ih rest

/-- What is written first is asked first. -/
theorem prefix_of_append (both : Requests method (talk ++ talk') params) :
    ∃ params', params' <+: params ∧ Requests method talk params' := by
  induction talk generalizing params with
  | nil => exact ⟨[], List.nil_prefix, .nothing⟩
  | cons turn talk ih =>
    cases both with
    | @asked _ _ _ id ask wrote rest =>
      obtain ⟨asked, le, here⟩ := ih rest
      exact ⟨ask :: asked, (List.prefix_cons_inj ask).mpr le, .asked id wrote here⟩
    | other quiet rest =>
      obtain ⟨asked, le, here⟩ := ih rest
      exact ⟨asked, le, .other quiet here⟩

end Requests

theorem not_requests_of_ne {id : Nat} {method method' : String} {params : Json}
    (ne : method ≠ method') :
    ¬ Deed.Requests method' (.write (Outgoing.request id method (some params)).bytes) :=
  fun ⟨_, _, same⟩ => ne (Outgoing.method_eq_of_request same)

theorem mayTell_notRequests (method : String) (p cwd : Path) :
    MayTell (fun d => ¬ d.Requests method) p cwd where
  reads := nofun
  counts := nofun
  enters := nofun
  leaves := nofun
  looks := nofun
  keeps := nofun
  entersWriter := nofun
  looksAtWriter := nofun
  leavesWriter := nofun
  opens := fun _ _ _ ⟨_, _, same⟩ =>
    Outgoing.bytes_ne_notification (fun _ _ eq => Outgoing.noConfusion eq) _ _ same.symm
  changes := fun _ _ _ ⟨_, _, same⟩ =>
    Outgoing.bytes_ne_notification (fun _ _ eq => Outgoing.noConfusion eq) _ _ same.symm

namespace Attempt.Requesting

variable {method method' : String} {params : Json} {timeout : Nat} {talk : Deeds}
  {result : Except ServerError Json}

theorem quiet (asks : Requesting method params timeout talk result) (ne : method ≠ method') :
    ∀ turn ∈ talk, ¬ turn.1.Requests method' := by
  have other (number : Nat) : ¬ Deed.Requests method' (.write
      (Outgoing.request number method (some params)).bytes) := not_requests_of_ne ne
  cases asks <;> simp only [List.forall_mem_cons]
  case closed => exact ⟨id, id, id, id, id, nofun⟩
  case unwritten number e => exact ⟨id, id, id, other number, id, id, nofun⟩
  case awaited number start awaited =>
    exact ⟨id, id, id, other number, id, id, id, id, nofun⟩

/-- A request is written once, unless the stream is found closed. -/
theorem requests (asks : Requesting method params timeout talk result) :
    Requests method talk [params] ∨
      (Requests method talk [] ∧ ⟨.writerOpen, false⟩ ∈ talk ∧
        result = .error (.connectionLost "Transport closed")) := by
  cases asks with
  | closed =>
    refine .inr ⟨.of_quiet ?_, by simp, rfl⟩
    simp only [List.forall_mem_cons]
    exact ⟨id, id, id, id, id, nofun⟩
  | unwritten number e =>
    refine .inl (.other id (.other id (.other id (.asked number rfl ?_))))
    exact .other id (.other id .nothing)
  | awaited number start awaited =>
    refine .inl (.other id (.other id (.other id (.asked number rfl ?_))))
    exact .other id (.other id (.other id (.other id .nothing)))

end Attempt.Requesting

end CodeIntel

namespace CodeIntel.Client

-- How a path becomes a URI and how replies are read does not matter to what is asked.
attribute [local irreducible] Path.uri readLenses CodeLens.decode

/-- The list of lenses that the server has for a document, as it comes. -/
def listLenses (client : Client) (path : Path) : Attempt (List CodeLens) := do
  client.ensureOpen path
  let result ← client.requestAbout path "textDocument/codeLens" []
  liftM (readLenses result)

/-- What becomes of a lens that the server is asked for the rest of. -/
def withAnswer (lens : CodeLens) : Except ServerError Json → CodeLens
  | .ok value => (CodeLens.decode value).toOption.getD lens
  | .error _ => lens

/-- The server is asked for the rest of the lenses one after the other, if it can tell: of each that
has no command, and of no other one. -/
inductive Resolves (client : Client) (canResolve : Bool) :
    List CodeLens → Deeds → List CodeLens → Prop
  | nothing : Resolves client canResolve [] [] []
  | kept {lens : CodeLens} {rest resolved : List CodeLens} {talk : Deeds}
      (whole : (lens.command.isNone && canResolve) = false)
      (later : Resolves client canResolve rest talk resolved) :
      Resolves client canResolve (lens :: rest) talk (lens :: resolved)
  | asked {lens : CodeLens} {rest resolved : List CodeLens} {asking talk : Deeds}
      {answer : Except ServerError Json} (bare : (lens.command.isNone && canResolve) = true)
      (asks : client.Requesting "codeLens/resolve" lens.toJson asking answer)
      (later : Resolves client canResolve rest talk resolved) :
      Resolves client canResolve (lens :: rest) (asking ++ talk)
        (withAnswer lens answer :: resolved)

variable {client : Client} {canResolve : Bool} {lenses resolved : List CodeLens} {talk : Deeds}

/-- The lenses that the server is asked for the rest of. -/
def bareLenses (canResolve : Bool) (lenses : List CodeLens) : List CodeLens :=
  lenses.filter fun lens => lens.command.isNone && canResolve

namespace Resolves

theorem length_eq (resolves : client.Resolves canResolve lenses talk resolved) :
    resolved.length = lenses.length := by
  induction resolves with
  | nothing => rfl
  | kept _ _ ih | asked _ _ _ ih => exact congrArg (· + 1) ih

theorem quiet (resolves : client.Resolves canResolve lenses talk resolved) {method : String}
    (ne : "codeLens/resolve" ≠ method) : ∀ turn ∈ talk, ¬ turn.1.Requests method := by
  induction resolves with
  | nothing => exact nofun
  | kept _ _ ih => exact ih
  | asked _ asks _ ih => exact List.forall_mem_append.mpr ⟨asks.quiet ne, ih⟩

/-- What is asked is the rest of lenses without a command, and of all of them if the stream to the
server stays open. -/
theorem requests (resolves : client.Resolves canResolve lenses talk resolved) :
    ∃ asked, Requests "codeLens/resolve" talk asked ∧
      asked.Sublist ((bareLenses canResolve lenses).map CodeLens.toJson) ∧
      (⟨.writerOpen, false⟩ ∉ talk →
        asked = (bareLenses canResolve lenses).map CodeLens.toJson) := by
  induction resolves with
  | nothing => exact ⟨[], .nothing, .slnil, fun _ => rfl⟩
  | @kept lens rest _ _ whole _ ih =>
    have skipped : bareLenses canResolve (lens :: rest) = bareLenses canResolve rest :=
      List.filter_cons_of_neg (by simp [whole])
    rwa [skipped]
  | @asked lens rest _ _ _ _ bare asks _ ih =>
    have counted : bareLenses canResolve (lens :: rest) = lens :: bareLenses canResolve rest :=
      List.filter_cons_of_pos bare
    obtain ⟨asked, wrote, le, all⟩ := ih
    rw [counted, List.map_cons]
    rcases asks.requests with here | ⟨here, shut, _⟩
    · refine ⟨lens.toJson :: asked, here.append wrote, le.cons_cons _, fun isOpen => ?_⟩
      rw [all fun mem => isOpen (List.mem_append_right _ mem)]
    · refine ⟨asked, here.append wrote, le.cons _, fun isOpen => ?_⟩
      exact absurd (List.mem_append_left _ shut) isOpen

end Resolves

theorem asks_of_resolveLens {lens : CodeLens} {result : Except ServerError CodeLens}
    (talks : (client.resolveLens lens).run.Converses talk result) :
    ∃ answer, result = .ok (withAnswer lens answer) ∧
      client.Requesting "codeLens/resolve" lens.toJson talk answer := by
  obtain ⟨asking, answer, _, rfl, asks, ends⟩ := Plan.converses_work_bind_iff.mp talks
  have asks := Attempt.converses_request_iff.mp asks
  cases answer with
  | ok value =>
    obtain ⟨rfl, rfl⟩ := ends
    exact ⟨.ok value, rfl, by rwa [List.append_nil]⟩
  | error e =>
    obtain ⟨rfl, rfl⟩ := ends
    exact ⟨.error e, rfl, by rwa [List.append_nil]⟩

/-- Whatever becomes of resolving them, the lenses are there. -/
theorem resolves_of_converses {result : Except ServerError (List CodeLens)}
    (talks : (client.resolveLenses canResolve lenses).run.Converses talk result) :
    ∃ resolved, result = .ok resolved ∧ client.Resolves canResolve lenses talk resolved := by
  induction lenses generalizing talk result with
  | nil =>
    obtain ⟨rfl, rfl⟩ := talks
    exact ⟨[], rfl, .nothing⟩
  | cons lens rest ih =>
    have resolvesRest {told : CodeLens} {talk : Deeds} {result : Except ServerError (List CodeLens)}
        (talks : (do
          let more ← client.resolveLenses canResolve rest
          pure (told :: more)).run.Converses talk result) :
        ∃ more, result = .ok (told :: more) ∧ client.Resolves canResolve rest talk more := by
      rcases Plan.converses_run_bind_iff.mp talks with
        ⟨e, first, _⟩ | ⟨before, more, _, rfl, first, rfl, rfl⟩
      · obtain ⟨_, ⟨⟩, _⟩ := ih first
      · obtain ⟨_, ⟨⟩, resolves⟩ := ih first
        exact ⟨more, rfl, by rwa [List.append_nil]⟩
    unfold resolveLenses at talks
    cases bare : lens.command.isNone && canResolve with
    | false =>
      rw [bare] at talks
      obtain ⟨more, rfl, resolves⟩ := resolvesRest talks
      exact ⟨_, rfl, .kept bare resolves⟩
    | true =>
      rw [bare] at talks
      rcases Plan.converses_run_bind_iff.mp talks with
        ⟨e, asks, _⟩ | ⟨asking, _, _, rfl, asks, talks⟩
      · obtain ⟨_, ⟨⟩, _⟩ := asks_of_resolveLens asks
      · obtain ⟨answer, ⟨⟩, requests⟩ := asks_of_resolveLens asks
        obtain ⟨more, rfl, resolves⟩ := resolvesRest talks
        exact ⟨_, rfl, .asked bare requests resolves⟩

theorem codeLenses_eq {path : Path} (offered : client.features.lenses = some canResolve) :
    client.codeLenses path = client.listLenses path >>= client.resolveLenses canResolve := by
  simp only [codeLenses, offered, listLenses, bind_assoc]

theorem quiet_requestAbout {path : Path} {method other : String} {more : List (String × Json)}
    (ne : method ≠ other) {result : Except ServerError Json}
    (talks : (client.requestAbout path method more).run.Converses talk result) :
    ∀ turn ∈ talk, ¬ turn.1.Requests other := by
  rcases Plan.converses_except_bind_iff.mp talks with ⟨_, _, rfl, _⟩ | ⟨_, _, asks⟩
  · exact nofun
  · exact (Attempt.converses_request_iff.mp asks).quiet ne

/-- Nothing but the list is asked for to list the lenses of a document. -/
theorem quiet_listLenses {path : Path} {other : String} (ne : "textDocument/codeLens" ≠ other)
    {result : Except ServerError (List CodeLens)}
    (talks : (client.listLenses path).run.Converses talk result) :
    ∀ turn ∈ talk, ¬ turn.1.Requests other := by
  have opens : (client.ensureOpen path).run.Asks fun d => ¬ d.Requests other :=
    (mayTell_notRequests other path client.cwd).ensureOpen
  rcases Plan.converses_run_bind_iff.mp talks with
    ⟨_, first, _⟩ | ⟨opening, _, _, rfl, first, rest⟩
  · exact opens.of_converses first
  · refine List.forall_mem_append.mpr ⟨opens.of_converses first, ?_⟩
    rcases Plan.converses_run_bind_iff.mp rest with ⟨_, asks, _⟩ | ⟨_, _, _, rfl, asks, rfl, _⟩
    · exact quiet_requestAbout ne asks
    · rw [List.append_nil]
      exact quiet_requestAbout ne asks

theorem lists_of_asked {path : Path} {uri : Uri} {asking : Deeds} {value : Json} (known : Document)
    (named : path.uri client.cwd = .ok uri)
    (asks : client.Requesting "textDocument/codeLens"
      (.ofMembers [("textDocument", .ofMembers [("uri", .string uri.text)])]) asking (.ok value))
    (reads : readLenses value = .ok lenses) :
    (client.listLenses path).run.Converses
      ([⟨.enterDocuments, ()⟩, ⟨.document path, some known⟩, ⟨.leaveDocuments, ()⟩] ++ asking)
      (.ok lenses) := by
  refine Plan.converses_run_bind_iff.mpr
    (.inr ⟨_, _, _, rfl, client.converses_ensureOpen_of_known path known, ?_⟩)
  refine Plan.converses_run_bind_iff.mpr (.inr ⟨_, value, [], (List.append_nil _).symm, ?_, ?_⟩)
  · exact Plan.converses_except_bind_iff.mpr
      (.inr ⟨_, documentMember_of_named named, Attempt.converses_request_iff.mpr asks⟩)
  · rw [reads]
    exact ⟨rfl, rfl⟩

/-- How the lenses of a document are told, and of which the rest is asked for: not at all, if the
server has none to offer or they cannot be listed, or all that are listed, whatever becomes of
resolving them. -/
inductive Lists (client : Client) (path : Path) :
    Deeds → List Json → Except ServerError (List CodeLens) → Prop
  | unsupported (none : client.features.lenses = none) :
      Lists client path [] [] (.error (.unsupported "textDocument/codeLens"))
  | unlisted {canResolve : Bool} {talk : Deeds} {e : ServerError}
      (offered : client.features.lenses = some canResolve)
      (lists : (client.listLenses path).run.Converses talk (.error e)) :
      Lists client path talk [] (.error e)
  | listed {canResolve : Bool} {listing resolving : Deeds} {asked : List Json}
      {lenses resolved : List CodeLens} (offered : client.features.lenses = some canResolve)
      (lists : (client.listLenses path).run.Converses listing (.ok lenses))
      (resolves : client.Resolves canResolve lenses resolving resolved)
      (length : resolved.length = lenses.length)
      (sublist : asked.Sublist ((bareLenses canResolve lenses).map CodeLens.toJson))
      (all : ⟨.writerOpen, false⟩ ∉ resolving →
        asked = (bareLenses canResolve lenses).map CodeLens.toJson) :
      Lists client path (listing ++ resolving) asked (.ok resolved)

variable {path : Path} {result : Except ServerError (List CodeLens)}

theorem lists_of_converses (talks : (client.codeLenses path).run.Converses talk result) :
    ∃ asked, Requests "codeLens/resolve" talk asked ∧ client.Lists path talk asked result := by
  cases offered : client.features.lenses with
  | none =>
    unfold codeLenses at talks
    rw [offered] at talks
    obtain ⟨rfl, rfl⟩ := talks
    exact ⟨[], .nothing, .unsupported offered⟩
  | some canResolve =>
    rw [codeLenses_eq offered] at talks
    rcases Plan.converses_run_bind_iff.mp talks with
      ⟨e, lists, rfl⟩ | ⟨listing, lenses, resolving, rfl, lists, talks⟩
    · exact ⟨[], .of_quiet (quiet_listLenses (by decide) lists), .unlisted offered lists⟩
    · obtain ⟨resolved, rfl, resolves⟩ := resolves_of_converses talks
      obtain ⟨asked, wrote, sublist, all⟩ := resolves.requests
      have listed : Requests "codeLens/resolve" listing [] :=
        .of_quiet (quiet_listLenses (by decide) lists)
      exact ⟨asked, listed.append wrote,
        .listed offered lists resolves resolves.length_eq sublist all⟩

/-- Nothing is asked for but the list and the rest of lenses in it. -/
theorem quiet_codeLenses {other : String} (list : "textDocument/codeLens" ≠ other)
    (rest : "codeLens/resolve" ≠ other)
    (talks : (client.codeLenses path).run.Converses talk result) :
    ∀ turn ∈ talk, ¬ turn.1.Requests other := by
  obtain ⟨asked, _, lists⟩ := lists_of_converses talks
  cases lists with
  | unsupported => exact nofun
  | unlisted _ lists => exact quiet_listLenses list lists
  | listed _ lists resolves =>
    exact List.forall_mem_append.mpr ⟨quiet_listLenses list lists, resolves.quiet rest⟩

end CodeIntel.Client
