import CodeIntel.Proofs.EditFile.Stages
import CodeIntel.Proofs.Tool.Interview
import CodeIntel.Tool.Catalog

namespace CodeIntel.LockOrder

open CodeIntel.Action Plan

/-- Whether a question leaves the locks of files as they are. -/
def Keeps : Ask → Prop
  | .enterFile _ | .leaveFile _ => False
  | _ => True

/-- A call asks for the lock of a file only while it has none, and gives back the one that it has.
The state is the file whose lock the call has. -/
def rule : Rule Ask Ask.Reply (Option Path)
  | .enterFile p, goal, held => held = none ∧ goal true (some p) ∧ goal false none
  | .leaveFile p, goal, held => held = some p ∧ goal () none
  | _, goal, held => ∀ reply, goal reply held

/-- The steps of a call follow the rule, and the call has no lock at the end. -/
abbrev Follows {α : Type} (held : Option Path) (plan : CallPlan α) : Prop :=
  plan.Meets rule (fun _ held => held = none) held

variable {α β : Type}

theorem rule_of_keeps {q : Ask} (keeps : Keeps q) {goal : q.Reply → Option Path → Prop}
    {held : Option Path} : rule q goal held ↔ ∀ reply, goal reply held := by
  cases q with
  | enterFile | leaveFile => cases keeps
  | _ => exact .rfl

theorem rule_monotone : Rule.Monotone rule := by
  intro q goal goal' weaker held h
  cases q with
  | enterFile p => exact ⟨h.1, weaker _ _ h.2.1, weaker _ _ h.2.2⟩
  | leaveFile p => exact ⟨h.1, weaker _ _ h.2⟩
  | _ => exact fun reply => weaker _ _ (h reply)

theorem meets_of_asks {plan : CallPlan α} {held : Option Path} {goal : α → Option Path → Prop}
    (asks : plan.Asks Keeps) (h : ∀ a, goal a held) : plan.Meets rule goal held := by
  induction plan with
  | done a => exact h a
  | ask q next ih => exact (rule_of_keeps asks.1).mpr fun reply => ih reply (asks.2 reply)

theorem follows_of_asks {plan : CallPlan α} (asks : plan.Asks Keeps) : Follows none plan :=
  meets_of_asks asks fun _ => rfl

theorem follows_bind {plan : CallPlan α} {f : α → CallPlan β} (h : Follows none plan)
    (rest : ∀ a, Follows none (f a)) : Follows none (plan.bind f) := by
  refine (congrFun (meets_bind ..) none).mpr (h.mono rule_monotone ?_)
  rintro a _ rfl
  exact rest a

theorem follows_map (f : α → β) {plan : CallPlan α} (h : Follows none plan) :
    Follows none (f <$> plan) :=
  follows_bind h fun _ => rfl

theorem follows_run_bind {x : Action α} {f : α → Action β} (h : Follows none x.run)
    (rest : ∀ a, Follows none (f a).run) : Follows none (x >>= f).run := by
  rw [ExceptT.run_bind]
  refine follows_bind h fun result => ?_
  cases result with
  | ok a => exact rest a
  | error e => exact rfl

/-- Whatever is done with a file, its lock is given back. -/
theorem follows_exclusively (p : Path) {action : Action α} (asks : action.run.Asks Keeps) :
    Follows none (Action.exclusively p action).run := by
  rw [EditFile.run_exclusively]
  refine ⟨rfl, ?_, rfl⟩
  exact (congrFun (meets_bind ..) _).mpr (meets_of_asks asks fun result => ⟨rfl, rfl⟩)

theorem asks_fetch (p : Path) : (Lenses.fetch p).run.Asks Keeps :=
  asks_run_bind (asks_request trivial) fun _ => asks_request trivial

theorem asks_definition (caller : Caller) (args : Json) :
    (Definition.run caller args).run.Asks Keeps := by
  refine asks_run_bind (asks_arguments ..) fun args => ?_
  refine asks_run_bind (asks_resolveSymbol (fun _ => trivial) ..) fun s => ?_
  refine asks_run_bind (asks_declaration (fun _ _ => trivial) s) fun declared => ?_
  refine asks_run_bind (asks_request trivial) fun symbols => ?_
  exact asks_run_bind (asks_readText trivial) fun text => trivial

theorem asks_references (caller : Caller) (args : Json) :
    (References.run caller args).run.Asks Keeps := by
  refine asks_run_bind (asks_arguments ..) fun args => ?_
  refine asks_run_bind (asks_resolveSymbol (fun _ => trivial) ..) fun s => ?_
  refine asks_run_bind (asks_declaration (fun _ _ => trivial) s) fun declared => ?_
  refine asks_run_bind (asks_request trivial) fun found => ?_
  dsimp only
  split
  · trivial
  · exact asks_run_bind (References.asks_reports trivial (fun _ => trivial) ..) fun text => trivial

theorem asks_diagnostics (caller : Caller) (args : Json) :
    (Diagnostics.run caller args).run.Asks Keeps := by
  refine asks_run_bind (asks_arguments ..) fun args => ?_
  refine asks_run_bind (asks_resolvePath (fun _ => trivial) ..) fun path => ?_
  refine asks_run_bind (asks_request trivial) fun _ => ?_
  refine asks_run_bind (asks_request trivial) fun found => ?_
  split
  · trivial
  · trivial
  · exact asks_run_bind (asks_readText trivial) fun text => trivial

theorem asks_listing (caller : Caller) (args : Json) :
    (Lenses.Listing.run caller args).run.Asks Keeps := by
  refine asks_run_bind (asks_arguments ..) fun raw => ?_
  refine asks_run_bind (asks_resolvePath (fun _ => trivial) ..) fun path => ?_
  refine asks_run_bind (asks_fetch path) fun lenses => ?_
  split <;> trivial

theorem asks_execution (caller : Caller) (args : Json) :
    (Lenses.Execution.run caller args).run.Asks Keeps := by
  refine asks_run_bind (asks_arguments ..) fun args => ?_
  refine asks_run_bind (asks_resolvePath (fun _ => trivial) ..) fun path => ?_
  refine asks_run_bind (asks_fetch path) fun lenses => ?_
  refine asks_run_bind (asks_run_except _) fun command => ?_
  exact asks_run_bind (asks_request trivial) fun _ => trivial

theorem asks_giveUp (temporary : Path) (cause : ToolError) :
    (Action.giveUp temporary cause).run.Asks Keeps :=
  ⟨trivial, fun _ => trivial⟩

theorem asks_replace (p : Path) (text : String) :
    (Action.replace p text).run.Asks Keeps := by
  refine asks_run_bind (asks_ask trivial) fun fresh => ?_
  refine asks_run_bind (asks_run_lift ?_) fun filled => ?_
  · refine ⟨trivial, fun written => ?_⟩
    cases written with
    | error => trivial
    | ok =>
      refine ⟨trivial, fun mode => ?_⟩
      cases mode with
      | error => trivial
      | ok => exact ⟨trivial, fun _ => trivial⟩
  · split
    · exact asks_giveUp ..
    · refine asks_run_bind (asks_ask trivial) fun tripped => ?_
      split
      · exact asks_giveUp ..
      · refine asks_run_bind (asks_ask trivial) fun moved => ?_
        split
        · exact asks_giveUp ..
        · trivial

theorem asks_editReal (p : Path) (requests : List EditRequest) (file : String) :
    (EditFile.editReal p requests file).run.Asks Keeps := by
  refine asks_run_bind (asks_readText trivial) fun before => ?_
  refine asks_run_bind (asks_run_except _) fun after => ?_
  refine asks_run_bind (asks_checkCancelled trivial) fun _ => ?_
  split
  · trivial
  · refine asks_run_bind (asks_replace ..) fun _ => ?_
    exact asks_run_bind (asks_ask trivial) fun told => trivial

theorem follows_editFile (caller : Caller) (args : Json) :
    Follows none (EditFile.run caller args).run := by
  refine follows_run_bind (follows_of_asks (asks_arguments ..)) fun args => ?_
  refine follows_run_bind (follows_of_asks (asks_resolvePath (fun _ => trivial) ..)) fun requested => ?_
  dsimp only
  split
  · exact rfl
  · refine follows_run_bind (follows_of_asks (asks_run_except _)) fun requests => ?_
    refine follows_run_bind (follows_of_asks (asks_ask trivial)) fun real => ?_
    split
    · exact rfl
    · exact follows_exclusively _ (asks_editReal ..)

theorem follows_call {tool : Tool} (mem : tool ∈ tools) (caller : Caller) (args : Json) :
    Follows none (tool.call caller args).run := by
  unfold Tool.call
  split
  next members _ =>
    simp only [tools, List.mem_cons, List.not_mem_nil, or_false] at mem
    obtain rfl | rfl | rfl | rfl | rfl | rfl := mem
    · exact follows_of_asks (asks_definition ..)
    · exact follows_of_asks (asks_references ..)
    · exact follows_of_asks (asks_diagnostics ..)
    · exact follows_of_asks (asks_listing ..)
    · exact follows_of_asks (asks_execution ..)
    · exact follows_editFile ..
  next => exact rfl

/-- Whichever tool is called, and whatever it is answered, it asks for locks by the rule. -/
theorem follows_callTool (name : String) (caller : Caller) (args : Json) :
    Follows none (callTool name caller args) := by
  refine follows_map _ ?_
  split
  next tool found => exact follows_call (List.mem_of_find?_eq_some found) caller args
  next => exact rfl

theorem tool_mem_of_prompt {prompt : Prompt} (mem : prompt ∈ prompts) : prompt.tool ∈ tools := by
  simp only [prompts, List.mem_cons, List.not_mem_nil, or_false] at mem
  obtain rfl | rfl | rfl | rfl := mem <;>
    simp [tools, Prompt.definition, Prompt.references, Prompt.lenses, Prompt.diagnostics]

theorem follows_renderPrompt (name : String) (caller : Caller) (args : Json) :
    Follows none (renderPrompt name caller args) := by
  unfold renderPrompt
  split
  next prompt found =>
    refine follows_map _ (follows_bind ?_ fun result => ?_)
    · unfold Prompt.run
      split
      · exact follows_call (tool_mem_of_prompt (List.mem_of_find?_eq_some found)) caller _
      · exact rfl
    · cases result <;> exact rfl
  next => exact rfl

end CodeIntel.LockOrder
