import CodeIntel.Proofs.Session.Deadlock

namespace CodeIntel

/-- Whether a query has the server run a command. -/
def Query.runsCommand : Query → Bool
  | .execute _ => true
  | _ => false

namespace World

variable {ρ : Type} {w w' : World ρ} {id : Holder} {c : Call ρ}

/-- The query that a move hands to the server, with the call that asks it. -/
def beginning? (w : World ρ) : Move ρ → Option (Holder × Query)
  | .step id abortFirst =>
    match w.call? id with
    | some c =>
      match c.activity with
      | .calling (.ask (.query q) _) =>
        if (w.stepActivity abortFirst c).2.1.gated?.isSome then some (id, q) else none
      | _ => none
    | none => none
  | _ => none

/-- The queries that moves hand to the server, in their order. -/
def beginnings (w : World ρ) : List (Move ρ) → List (Holder × Query)
  | [] => []
  | move :: rest => (w.beginning? move).toList ++ (w.move move).beginnings rest

/-- Only a step of a call that asks a query hands it to the server. -/
theorem step_of_beginning? {move : Move ρ} {q : Query} (begins : w.beginning? move = some (id, q)) :
    ∃ abortFirst c next, move = .step id abortFirst ∧ c ∈ w.calls ∧ c.id = id ∧
      c.activity = .calling (.ask (.query q) next) ∧ (w.stepActivity abortFirst c).2.1.InFlight := by
  unfold beginning? at begins
  split at begins
  next other abortFirst =>
    split at begins
    next c found =>
      obtain ⟨mem, own⟩ := mem_of_call? found
      split at begins
      next asked next activity =>
        split at begins
        next flight =>
          cases begins
          exact ⟨abortFirst, c, next, rfl, mem, own, activity, flight⟩
        next => cases begins
      next => cases begins
    next => cases begins
  next => cases begins

/-- If the call with this number is under way, it is cancelled. -/
structure Tripped (id : Holder) (w : World ρ) : Prop where
  given : id ≤ w.lastCall
  cancelled : ∀ c ∈ w.calls, c.id = id → c.cancelled = true

theorem lastCall_settleCall (w : World ρ) (c : Call ρ) :
    (w.settleCall c).lastCall = w.lastCall := by
  obtain ⟨_, _, eq⟩ | ⟨_, eq⟩ := settleCall_cases w c <;> rw [eq] <;> rfl

namespace Tripped

theorem start (tripped : Tripped id w) (activity : Activity ρ) (cancelled : Bool) :
    Tripped id (w.start activity cancelled).1 := by
  refine ⟨Nat.le_succ_of_le tripped.given, fun c h same => ?_⟩
  rcases List.mem_append.mp h with h | h
  · exact tripped.cancelled c h same
  · cases List.mem_singleton.mp h
    exact absurd (same ▸ tripped.given) (Nat.not_succ_le_self _)

theorem step (tripped : Tripped id w) (numbered : Numbered w) (abortFirst : Bool) (other : Holder) :
    Tripped id (w.step abortFirst other).1 := by
  cases found : w.call? other with
  | none => exact (step_of_none found abortFirst).symm ▸ tripped
  | some c =>
    have frame := frame_stepActivity w abortFirst c
    have mem := (mem_of_call? found).1
    rw [step_of_call? found]
    refine ⟨?_, fun c' h same => ?_⟩
    · rw [lastCall_settleCall, frame.lastCall]
      exact tripped.given
    · rcases (mem_settleCall_iff (frame.calls ▸ numbered.ids) (frame.calls ▸ mem)).mp h with
        ⟨h, _⟩ | ⟨rfl, _⟩
      · exact tripped.cancelled c' (frame.calls ▸ h) same
      · exact tripped.cancelled c mem same

theorem cancel (tripped : Tripped id w) (other : Holder) : Tripped id (w.cancel other) := by
  refine ⟨tripped.given, fun c h same => ?_⟩
  obtain ⟨old, mem, rfl⟩ := List.mem_map.mp h
  by_cases its : old.id = other
  · rw [if_pos its]
  · rw [if_neg its] at same ⊢
    exact tripped.cancelled old mem same

/-- Nothing takes a cancellation back. -/
theorem move (tripped : Tripped id w) (numbered : Numbered w) (move : Move ρ) :
    Tripped id (w.move move) := by
  cases move with
  | tool | prompt => exact tripped.start _ _
  | step other abortFirst => exact tripped.step numbered abortFirst other
  | cancel other => exact tripped.cancel other
  | pass => exact ⟨tripped.given, tripped.cancelled⟩

theorem play (tripped : Tripped id w) (ordered : Ordered w) (moves : List (Move ρ)) :
    Tripped id (w.play moves) := by
  induction moves generalizing w with
  | nil => exact tripped
  | cons move rest ih => exact ih (tripped.move ordered.toNumbered move) (ordered.move move)

/-- A cancelled call that asks a query is told so at its next step, or it has found the gate free
before it has looked whether it is cancelled, and the query is under way. -/
theorem refused (tripped : Tripped id w) (mem : c ∈ w.calls) (same : c.id = id) {q : Query}
    {next : Except QueryFailure q.Reply → CallPlan ρ}
    (activity : c.activity = .calling (.ask (.query q) next)) (abortFirst : Bool) :
    w.stepActivity abortFirst c =
        ({ w with gate := w.gate.withdraw id }, .calling (next (.error .cancelled)), .moved) ∨
      (abortFirst = false ∧ (w.gate.request id).holder = some id ∧
        (w.stepActivity abortFirst c).2.1.InFlight) := by
  have cancelled := tripped.cancelled c mem same
  have stride := stride_stepActivity w abortFirst c
  subst same
  generalize w.stepActivity abortFirst c = stepped at stride ⊢
  cases stride with
  | begins _ held late _ _ gated =>
    exact .inr ⟨late cancelled, held, Option.isSome_of_eq_some gated⟩
  | refused activity' =>
    cases activity.symm.trans activity'
    exact .inl rfl
  | awaitsGate _ going => cases cancelled.symm.trans going
  | rests free => exact (free _ _ activity).elim
  | replied activity' free =>
    cases activity.symm.trans activity'
    exact free.elim
  | getsFile activity' | awaitsFile activity' | forgoesFile activity' | leavesFile activity' =>
    cases activity.symm.trans activity'
  | works under | ends under =>
    rw [activity] at under
    cases under

/-- After a step of a cancelled call that looks first whether it is cancelled, no query of it is under
way: one that was is given up. -/
theorem gives_up (tripped : Tripped id w) (mem : c ∈ w.calls) (same : c.id = id) :
    ¬ (w.stepActivity true c).2.1.InFlight := by
  have cancelled := tripped.cancelled c mem same
  have stride := stride_stepActivity w true c
  obtain ⟨self, _, activity⟩ := c
  obtain rfl : _ = true := cancelled
  cases activity with
  | calling plan =>
    generalize w.stepActivity true _ = stepped at stride ⊢
    cases stride with
    | begins _ _ late => cases late rfl
    | works under => cases under
    | _ => exact Activity.not_inFlight_calling _
  | serving | standing => exact Activity.not_inFlight_calling _

theorem beginnings (tripped : Tripped id w) (ordered : Ordered w) {moves : List (Move ρ)}
    (first : ∀ abortFirst, .step id abortFirst ∈ moves → abortFirst = true) (q : Query) :
    (id, q) ∉ w.beginnings moves := by
  induction moves generalizing w with
  | nil => exact List.not_mem_nil
  | cons move rest ih =>
    have later := ih (tripped.move ordered.toNumbered move) (ordered.move move)
      fun abortFirst mem => first abortFirst (List.mem_cons_of_mem _ mem)
    simp only [World.beginnings, List.mem_append, not_or]
    refine ⟨fun begins => ?_, later⟩
    obtain ⟨abortFirst, c, next, rfl, mem, own, activity, flight⟩ :=
      step_of_beginning? (Option.mem_toList.mp begins)
    obtain rfl := first abortFirst List.mem_cons_self
    exact tripped.gives_up mem own flight

end Tripped

/-- A call that is cancelled hands no further query to the server if it always looks first whether
it is cancelled, and gives up the query under way. Whatever it looks at first, each query that it asks
is answered at once with the cancellation, unless the call finds the gate free before it looks whether
it is cancelled. -/
theorem cancelled_call_asks_no_more (files : Tree) (cwd : Path) (backend : Backend)
    (before later : List (Move ρ)) (id : Holder)
    (given : id ≤ ((World.new files cwd backend).play before).lastCall)
    (cancelled : ∀ c ∈ ((World.new files cwd backend).play before).calls, c.id = id →
      c.cancelled = true) :
    let w := (World.new files cwd backend).play before
    let w' := w.play later
    ((∀ abortFirst, .step id abortFirst ∈ later → abortFirst = true) →
        ∀ q, (id, q) ∉ w.beginnings later) ∧
      ∀ c ∈ w'.calls, c.id = id →
        ¬ (w'.stepActivity true c).2.1.InFlight ∧
        ∀ (q : Query) next, c.activity = .calling (.ask (.query q) next) → ∀ abortFirst,
          w'.stepActivity abortFirst c =
              ({ w' with gate := w'.gate.withdraw id }, .calling (next (.error .cancelled)),
                .moved) ∨
            (abortFirst = false ∧ (w'.gate.request id).holder = some id ∧
              (w'.stepActivity abortFirst c).2.1.InFlight) := by
  intro w w'
  have ordered : Ordered w := (Ordered.new files cwd backend).play before
  have tripped : Tripped id w := ⟨given, cancelled⟩
  have tripped' : Tripped id w' := tripped.play ordered later
  refine ⟨fun first q => tripped.beginnings ordered first q, fun c mem same => ?_⟩
  refine ⟨tripped'.gives_up mem same, fun q next activity => ?_⟩
  exact tripped'.refused mem same activity

/-- A server that has one lens for every file. -/
def oneLens : StandIn where
  delay := 0
  reply
    | .workspaceSymbols _ => .ok []
    | .definition .. => .ok []
    | .references .. => .ok []
    | .documentSymbols _ => .ok []
    | .sync _ => .ok ()
    | .changed .. => .ok ()
    | .diagnostics _ => .ok none
    | .codeLenses _ => .ok [⟨⟨⟨0, 0⟩, ⟨1, 0⟩⟩, some ⟨"run test", "test.run", none⟩, none⟩]
    | .execute _ => .ok none
  asked := []

/-- A call is to run the command of a lens, and is cancelled when it is about to ask for that. -/
def cancelledExecution : List (Move (Except CallError Output)) :=
  [.tool "execute_codelens" ⟨⟨.ofString "/r", .ofString "/r"⟩, 2⟩
      (.ofMembers [("filePath", .string "/r/a.go"), ("index", .nat 1)]) (fun result => result) false,
    .step 1 false, .step 1 false, .step 1 false, .step 1 false, .cancel 1]

/-- If it looks first whether it is cancelled, it runs no command and ends with the cancellation. -/
theorem cancelled_execution_runs_nothing :
    let w := (World.new default (.ofString "/r") (.standIn oneLens)).play cancelledExecution
    let later := [.step 1 true, .step 1 true]
    w.calls.map (fun c => (c.id, c.cancelled)) = [(1, true)] ∧
      (∀ q, (1, q) ∉ w.beginnings later) ∧
      (w.play later).finished.map (fun f => (f.id, f.result.toOption.isSome)) = [(1, false)] := by
  intro w later
  have given : 1 ≤ w.lastCall := by decide +kernel
  have cancelled : ∀ c ∈ w.calls, c.id = 1 → c.cancelled = true := by decide +kernel
  have looks : ∀ abortFirst, (.step 1 abortFirst : Move (Except CallError Output)) ∈ later →
      abortFirst = true := by
    intro abortFirst h
    simpa [later] using h
  have silent := cancelled_call_asks_no_more default (.ofString "/r") (.standIn oneLens)
    cancelledExecution later 1 given cancelled
  exact ⟨by decide +kernel, silent.1 looks, by decide +kernel⟩

/-- If it finds the gate free before it looks whether it is cancelled, it has the command run. -/
theorem cancelled_execution_runs_command :
    let w := (World.new default (.ofString "/r") (.standIn oneLens)).play cancelledExecution
    w.calls.map (fun c => (c.id, c.cancelled)) = [(1, true)] ∧
      ∃ q, (1, q) ∈ w.beginnings [.step 1 false] ∧ q.runsCommand = true := by
  intro w
  have begun : ((w.beginnings [.step 1 false]).any fun b => b.1 = 1 && b.2.runsCommand) = true := by
    decide +kernel
  obtain ⟨⟨self, q⟩, mem, runs⟩ := List.any_eq_true.mp begun
  obtain ⟨own, runs⟩ := Bool.and_eq_true_iff.mp runs
  obtain rfl : self = 1 := by simpa using own
  exact ⟨by decide +kernel, q, mem, runs⟩

end World

end CodeIntel
