import CodeIntel.Proofs.Basic
import CodeIntel.Proofs.Plan
import CodeIntel.Tool.References

namespace CodeIntel

/-- What is asked and answered in the course of a call. -/
abbrev Interview := List ((a : Ask) × a.Reply)

namespace Action

variable {α β : Type} {talk before after : Interview} {x : Action α} {f : α → Action β}
  {result : Except ToolError β}

theorem converses_request_bind_iff {q : Query} {f : q.Reply → Action β} :
    (request q >>= f).run.Converses talk result ↔
      (∃ failure, talk = [⟨.query q, .error failure⟩] ∧ result = .error failure.toolError) ∨
        ∃ reply after, talk = ⟨.query q, .ok reply⟩ :: after ∧
          (f reply).run.Converses after result := by
  constructor
  · rintro ⟨reply, after, rfl, rest⟩
    cases reply with
    | error failure =>
      obtain ⟨rfl, rfl⟩ := rest
      exact .inl ⟨failure, rfl, rfl⟩
    | ok reply => exact .inr ⟨reply, after, rfl, rest⟩
  · rintro (⟨failure, rfl, rfl⟩ | ⟨reply, after, rfl, rest⟩)
    · exact ⟨.error failure, [], rfl, rfl, rfl⟩
    · exact ⟨.ok reply, after, rfl, rest⟩

theorem converses_readText_bind_iff {path : Path} {f : String → Action β} :
    (readText path >>= f).run.Converses talk result ↔
      (∃ e, talk = [⟨.readText path, .error e⟩] ∧ result = .error (.fileIo path e.message)) ∨
        ∃ text after, talk = ⟨.readText path, .ok text⟩ :: after ∧
          (f text).run.Converses after result := by
  constructor
  · rintro ⟨reply, after, rfl, rest⟩
    cases reply with
    | error e =>
      obtain ⟨rfl, rfl⟩ := rest
      exact .inl ⟨e, rfl, rfl⟩
    | ok text => exact .inr ⟨text, after, rfl, rest⟩
  · rintro (⟨e, rfl, rfl⟩ | ⟨text, after, rfl, rest⟩)
    · exact ⟨.error e, [], rfl, rfl, rfl⟩
    · exact ⟨.ok text, after, rfl, rest⟩

/-- A query that is answered, as a part of a conversation. -/
def answered (told : (q : Query) × q.Reply) : (a : Ask) × a.Reply := ⟨.query told.1, .ok told.2⟩

theorem eq_ok_of_answered {told : (q : Query) × q.Reply} {q : Query}
    {reply : Except QueryFailure q.Reply} (h : answered told = ⟨.query q, reply⟩) :
    ∃ r, reply = .ok r ∧ told = ⟨q, r⟩ := by
  cases h
  exact ⟨told.2, rfl, rfl⟩

/-- Where only one query of a call is of a kind, what comes before it and after it are the parts of
the call before and after. -/
theorem converses_around_iff {P : Ask → Prop} {q : α → Query} {f : (a : α) → (q a).Reply → Action β}
    (quiet : x.run.Asks fun q => ¬ P q) (quiet' : ∀ a reply, (f a reply).run.Asks fun q => ¬ P q)
    {told : (q : Query) × q.Reply} (here : P (.query told.1)) :
    (x >>= fun a => request (q a) >>= f a).run.Converses (before ++ answered told :: after) result ↔
      ∃ a reply, told = ⟨q a, reply⟩ ∧ x.run.Converses before (.ok a) ∧
        (f a reply).run.Converses after result := by
  rw [Plan.converses_run_bind_iff]
  constructor
  · rintro (⟨e, first, _⟩ | ⟨before', a, after', same, first, rest⟩)
    · exact absurd here (quiet.of_converses first (answered told) (by simp))
    · have before_quiet := quiet.of_converses first
      rcases converses_request_bind_iff.mp rest with
        ⟨failure, rfl, _⟩ | ⟨reply, later, rfl, later_rest⟩
      · obtain ⟨_, turn, _⟩ := append_cons_unique (P := fun turn => P turn.1) same here before_quiet
          (by simp)
        obtain ⟨_, bad, _⟩ := eq_ok_of_answered turn
        cases bad
      · obtain ⟨rfl, turn, rfl⟩ := append_cons_unique (P := fun turn => P turn.1) same here
          before_quiet ((quiet' a reply).of_converses later_rest)
        obtain ⟨_, ⟨⟩, told_eq⟩ := eq_ok_of_answered turn
        exact ⟨a, reply, told_eq, first, later_rest⟩
  · rintro ⟨a, reply, rfl, first, rest⟩
    exact .inr ⟨before, a, _, rfl, first, converses_request_bind_iff.mpr (.inr ⟨_, _, rfl, rest⟩)⟩

section Asks

open Plan

variable {P : Ask → Prop}

theorem asks_ask {q : Ask} (may : P q) : (ask q).run.Asks P := ⟨may, fun _ => trivial⟩

theorem asks_request {q : Query} (may : P (.query q)) : (request q).run.Asks P :=
  ⟨may, fun reply => by cases reply <;> trivial⟩

theorem asks_readText {path : Path} (may : P (.readText path)) : (readText path).run.Asks P :=
  ⟨may, fun reply => by cases reply <;> trivial⟩

theorem asks_checkCancelled (may : P .cancelled) : checkCancelled.run.Asks P :=
  ⟨may, fun tripped => by cases tripped <;> trivial⟩

theorem asks_arguments (name : String) (fields : Fields α) (args : Json) :
    (Tool.arguments name fields args).run.Asks P := by
  unfold Tool.arguments
  split <;> trivial

theorem asks_resolvePath (may : ∀ path, P (.present path)) (raw : String) (s : Surroundings) :
    (resolvePath raw s).run.Asks P := by
  unfold resolvePath
  refine asks_run_bind (asks_run_except _) fun readings => ?_
  split
  · trivial
  · refine asks_run_bind (asks_ask (may _)) fun there => ?_
    split
    · trivial
    · refine asks_run_bind (asks_ask (may _)) fun there => ?_
      split <;> trivial

theorem asks_resolveSymbol (may : ∀ text, P (.query (.workspaceSymbols text))) (name : String)
    (root : Path) : (resolveSymbol name root).run.Asks P := by
  unfold resolveSymbol
  split
  · unfold SymbolQuery.resolve
    refine asks_run_bind (asks_request (may _)) fun found => ?_
    dsimp only
    split
    · exact asks_run_bind (asks_request (may _)) fun candidates => asks_run_except _
    · exact asks_run_except _
  · trivial

theorem asks_declaration (may : ∀ path place, P (.query (.definition path place)))
    (s : WorkspaceSymbol) : s.declaration.run.Asks P := by
  refine asks_run_bind (asks_request (may _ _)) fun places => ?_
  split <;> trivial

end Asks

/-- A call that comes to an output has read its arguments. -/
theorem converses_arguments_bind_ok_iff {name : String} {fields : Fields α} {args : Json} {b : β} :
    (Tool.arguments name fields args >>= f).run.Converses talk (.ok b) ↔
      ∃ a, fields.decode name args = .ok a ∧ (f a).run.Converses talk (.ok b) := by
  unfold Tool.arguments
  split
  next a decoded => simp [decoded]
  next e decoded =>
    constructor
    · rintro ⟨_, failed⟩
      cases failed
    · rintro ⟨_, read, _⟩
      cases decoded.symm.trans read

end Action

theorem References.asks_reports {P : Ask → Prop} (cancels : P .cancelled)
    (reads : ∀ path, P (.readText path)) (caller : Caller) (numbers : Bool) (groups : List Group) :
    (reports caller numbers groups).run.Asks P := by
  induction groups with
  | nil => trivial
  | cons group rest ih =>
    refine Plan.asks_run_bind (Action.asks_checkCancelled cancels) fun _ => ?_
    refine Plan.asks_run_bind (Action.asks_ask (reads _)) fun text => ?_
    exact Plan.asks_run_bind ih fun more => trivial

end CodeIntel
