import CodeIntel.Proofs.Client.Requests
import CodeIntel.Proofs.Tool.Interview

namespace CodeIntel

/-- How the queries of a call are answered over a connection: each by all the work on it, or the
work is given up when the call is cancelled. -/
inductive Served (client : Client) : Interview → Deeds → Prop
  | nothing : Served client [] []
  | aside {a : Ask} {reply : a.Reply} {talk : Interview} {deeds : Deeds}
      (own : ∀ q, a ≠ .query q) (later : Served client talk deeds) :
      Served client (⟨a, reply⟩ :: talk) deeds
  | answered {q : Query} {work deeds : Deeds} {outcome : Except ServerError q.Reply}
      {talk : Interview} (works : (client.answer q).run.Converses work outcome)
      (later : Served client talk deeds) :
      Served client (⟨.query q, outcome.mapError .server⟩ :: talk) (work ++ deeds)
  | givenUp {q : Query} {work undone deeds : Deeds} {outcome : Except ServerError q.Reply}
      {talk : Interview} (works : (client.answer q).run.Converses (work ++ undone) outcome)
      (later : Served client talk deeds) :
      Served client (⟨.query q, .error .cancelled⟩ :: talk) (work ++ deeds)

namespace Served

variable {client : Client} {before after : Interview} {deeds : Deeds}

theorem of_append (served : Served client (before ++ after) deeds) :
    ∃ first rest, deeds = first ++ rest ∧ Served client before first ∧
      Served client after rest := by
  induction before generalizing deeds with
  | nil => exact ⟨[], deeds, rfl, .nothing, served⟩
  | cons turn before ih =>
    generalize eq : turn :: before ++ after = talk at served
    cases served with
    | nothing => cases eq
    | aside own later =>
      cases eq
      obtain ⟨first, rest, rfl, here, there⟩ := ih later
      exact ⟨first, rest, rfl, .aside own here, there⟩
    | answered works later =>
      cases eq
      obtain ⟨first, rest, rfl, here, there⟩ := ih later
      exact ⟨_, rest, (List.append_assoc ..).symm, .answered works here, there⟩
    | givenUp works later =>
      cases eq
      obtain ⟨first, rest, rfl, here, there⟩ := ih later
      exact ⟨_, rest, (List.append_assoc ..).symm, .givenUp works here, there⟩

theorem append {first rest : Deeds} (served : Served client before first)
    (later : Served client after rest) : Served client (before ++ after) (first ++ rest) := by
  induction served with
  | nothing => exact later
  | aside own _ ih => exact .aside own ih
  | answered works _ ih =>
    rw [List.append_assoc]
    exact .answered works ih
  | givenUp works _ ih =>
    rw [List.append_assoc]
    exact .givenUp works ih

theorem of_singleton {q : Query} {reply : Except QueryFailure q.Reply}
    (served : Served client [⟨.query q, reply⟩] deeds) :
    (∃ outcome, (client.answer q).run.Converses deeds outcome ∧ reply = outcome.mapError .server) ∨
      ∃ undone outcome, (client.answer q).run.Converses (deeds ++ undone) outcome ∧
        reply = .error .cancelled := by
  cases served with
  | aside own => exact absurd rfl (own q)
  | answered works later =>
    cases later
    exact .inl ⟨_, by rwa [List.append_nil], rfl⟩
  | @givenUp _ _ undone _ outcome _ works later =>
    cases later
    exact .inr ⟨undone, outcome, by rwa [List.append_nil], rfl⟩

/-- If no query of a call has a deed of a kind done, then nothing of the kind is done. -/
theorem quiet (may : Deed → Prop) (served : Served client before deeds)
    (each : ∀ turn ∈ before, ∀ q, turn.1 = .query q → ∀ work outcome,
      (client.answer q).run.Converses work outcome → ∀ turn ∈ work, may turn.1) :
    ∀ turn ∈ deeds, may turn.1 := by
  induction served with
  | nothing => exact nofun
  | aside _ _ ih => exact ih (List.forall_mem_cons.mp each).2
  | answered works _ ih =>
    obtain ⟨here, later⟩ := List.forall_mem_cons.mp each
    exact List.forall_mem_append.mpr ⟨here _ rfl _ _ works, ih later⟩
  | givenUp works _ ih =>
    obtain ⟨here, later⟩ := List.forall_mem_cons.mp each
    have whole := here _ rfl _ _ works
    exact List.forall_mem_append.mpr ⟨(List.forall_mem_append.mp whole).1, ih later⟩

end Served

/-- The parameters of the request to run a command. -/
def Command.parameters (c : Command) : Json :=
  .ofMembers [("command", .string c.command), ("arguments", .array (c.arguments.getD []))]

namespace Client

variable {client : Client} {command : Command} {work : Deeds}

theorem converses_execute_of_offered {outcome : Except ServerError (Option Json)}
    (offered : client.features.execution = true) :
    (client.execute command).run.Converses work outcome ↔ ∃ answer,
      client.Requesting "workspace/executeCommand" command.parameters work answer ∧
      outcome = answer.map fun result => if result.isNull then none else some result := by
  have run : client.execute command = (do
      let result ← client.request "workspace/executeCommand" command.parameters
      pure (if result.isNull then none else some result)) := by
    rw [execute, require, offered]
    rfl
  rw [run]
  constructor
  · intro works
    rcases Plan.converses_run_bind_iff.mp works with
      ⟨e, asks, rfl⟩ | ⟨_, value, _, rfl, asks, rfl, rfl⟩
    · exact ⟨.error e, Attempt.converses_request_iff.mp asks, rfl⟩
    · rw [List.append_nil]
      exact ⟨.ok value, Attempt.converses_request_iff.mp asks, rfl⟩
  · rintro ⟨answer, asks, rfl⟩
    have asks := Attempt.converses_request_iff.mpr asks
    cases answer with
    | error e => exact Plan.converses_run_bind_iff.mpr (.inl ⟨e, asks, rfl⟩)
    | ok value =>
      exact Plan.converses_run_bind_iff.mpr
        (.inr ⟨work, value, [], (List.append_nil _).symm, asks, rfl, rfl⟩)

/-- A command is asked for once, if the server runs commands. -/
theorem converses_execute {outcome : Except ServerError (Option Json)}
    (works : (client.execute command).run.Converses work outcome) :
    (client.features.execution = false ∧ work = [] ∧
      outcome = .error (.unsupported "workspace/executeCommand")) ∨
    (client.features.execution = true ∧ ∃ answer,
      client.Requesting "workspace/executeCommand" command.parameters work answer ∧
      outcome = answer.map fun result => if result.isNull then none else some result) := by
  cases offered : client.features.execution with
  | false =>
    rw [execute, require, offered] at works
    exact .inl ⟨rfl, works.1, works.2⟩
  | true => exact .inr ⟨rfl, (converses_execute_of_offered offered).mp works⟩

end Client

end CodeIntel
