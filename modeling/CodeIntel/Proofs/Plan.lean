import CodeIntel.Client.Connection

namespace CodeIntel

/-- What is said of the questions of a plan: when one may be asked in a state, and what holds of
its answers and of the states that follow. -/
abbrev Rule (Q : Type) (A : Q → Type) (σ : Type) := (q : Q) → (A q → σ → Prop) → σ → Prop

variable {Q : Type} {A : Q → Type} {σ α β : Type}

def Rule.Monotone (rule : Rule Q A σ) : Prop :=
  ∀ q (goal goal' : A q → σ → Prop), (∀ reply s, goal reply s → goal' reply s) →
    ∀ s, rule q goal s → rule q goal' s

namespace Plan

/-- From the state on, a plan asks only what the rule allows, and `goal` holds of its end. -/
def Meets (rule : Rule Q A σ) (goal : α → σ → Prop) : Plan Q A α → σ → Prop
  | .done a => goal a
  | .ask q next => rule q fun reply => (next reply).Meets rule goal

variable {rule : Rule Q A σ} {goal goal' : α → σ → Prop}

@[simp]
theorem meets_done (a : α) (s : σ) : (Plan.done a : Plan Q A α).Meets rule goal s ↔ goal a s :=
  .rfl

@[simp]
theorem meets_ask (q : Q) (next : A q → Plan Q A α) (s : σ) :
    (Plan.ask q next).Meets rule goal s ↔
      rule q (fun reply => (next reply).Meets rule goal) s := .rfl

theorem meets_bind (p : Plan Q A α) (f : α → Plan Q A β) (goal : β → σ → Prop) :
    (p.bind f).Meets rule goal = p.Meets rule fun a => (f a).Meets rule goal := by
  induction p with
  | done a => rfl
  | ask q next ih => exact congrArg (rule q) (funext ih)

theorem Meets.mono {p : Plan Q A α} {s : σ} (monotone : rule.Monotone)
    (h : p.Meets rule goal s) (weaker : ∀ a s, goal a s → goal' a s) : p.Meets rule goal' s := by
  induction p generalizing s with
  | done a => exact weaker a s h
  | ask q next ih => exact monotone q _ _ (fun reply s => ih reply) s h

/-- Whatever is answered on the way, the end of a plan is as said. -/
def Outcomes (P : α → Prop) : Plan Q A α → Prop
  | .done a => P a
  | .ask _ next => ∀ reply, (next reply).Outcomes P

theorem outcomes_bind_iff {P : β → Prop} {f : α → Plan Q A β} (p : Plan Q A α) :
    (p.bind f).Outcomes P ↔ p.Outcomes fun a => (f a).Outcomes P := by
  induction p with
  | done a => exact .rfl
  | ask q next ih => exact forall_congr' ih

theorem Outcomes.mono {P P' : α → Prop} {p : Plan Q A α} (h : p.Outcomes P)
    (weaker : ∀ a, P a → P' a) : p.Outcomes P' := by
  induction p with
  | done a => exact weaker a h
  | ask q next ih => exact fun reply => ih reply (h reply)

theorem outcomes_true (p : Plan Q A α) : p.Outcomes fun _ => True := by
  induction p with
  | done a => trivial
  | ask q next ih => exact ih

theorem outcomes_bind {P : β → Prop} {f : α → Plan Q A β} (h : ∀ a, (f a).Outcomes P)
    (p : Plan Q A α) : (p.bind f).Outcomes P :=
  (outcomes_bind_iff p).mpr (p.outcomes_true.mono fun a _ => h a)

/-- A whole run of a plan: what it asks, what it is answered, and its end. -/
def Converses : Plan Q A α → List ((q : Q) × A q) → α → Prop
  | .done a, talk, result => talk = [] ∧ result = a
  | .ask q next, talk, result =>
    ∃ reply later, talk = ⟨q, reply⟩ :: later ∧ (next reply).Converses later result

/-- Whatever is answered on the way, only such questions are asked. -/
def Asks (P : Q → Prop) : Plan Q A α → Prop
  | .done _ => True
  | .ask q next => P q ∧ ∀ reply, (next reply).Asks P

theorem Asks.bind {P : Q → Prop} {p : Plan Q A α} {f : α → Plan Q A β} (h : p.Asks P)
    (hf : ∀ a, (f a).Asks P) : (p.bind f).Asks P := by
  induction p with
  | done a => exact hf a
  | ask q next ih => exact ⟨h.1, fun reply => ih reply (h.2 reply)⟩

variable {talk : List ((q : Q) × A q)}

theorem converses_bind_iff {p : Plan Q A α} {f : α → Plan Q A β} {result : β} :
    (p.bind f).Converses talk result ↔ ∃ before a after,
      talk = before ++ after ∧ p.Converses before a ∧ (f a).Converses after result := by
  induction p generalizing talk with
  | done a =>
    constructor
    · exact fun h => ⟨[], a, talk, rfl, ⟨rfl, rfl⟩, h⟩
    · rintro ⟨_, _, _, rfl, ⟨rfl, rfl⟩, h⟩
      exact h
  | ask q next ih =>
    constructor
    · rintro ⟨reply, later, rfl, h⟩
      obtain ⟨before, a, after, rfl, first, rest⟩ := (ih reply).mp h
      exact ⟨_, a, after, rfl, ⟨reply, before, rfl, first⟩, rest⟩
    · rintro ⟨_, a, after, rfl, ⟨reply, before, rfl, first⟩, rest⟩
      exact ⟨reply, before ++ after, rfl, (ih reply).mpr ⟨before, a, after, rfl, first, rest⟩⟩

/-- What a plan never asks is not in its talk. -/
theorem Asks.of_converses {P : Q → Prop} {p : Plan Q A α} (h : p.Asks P) {a : α}
    (talks : p.Converses talk a) : ∀ turn ∈ talk, P turn.1 := by
  induction p generalizing talk with
  | done b => simp [talks.1]
  | ask q next ih =>
    obtain ⟨reply, later, rfl, talks⟩ := talks
    exact List.forall_mem_cons.mpr ⟨h.1, ih reply (h.2 reply) talks⟩

/-- What a plan comes to where each question has one answer. -/
def outcome (answer : (q : Q) → A q) : Plan Q A α → α
  | .done a => a
  | .ask q next => (next (answer q)).outcome answer

theorem outcome_bind (answer : (q : Q) → A q) (p : Plan Q A α) (f : α → Plan Q A β) :
    (p.bind f).outcome answer = (f (p.outcome answer)).outcome answer := by
  induction p with
  | done a => rfl
  | ask q next ih => exact ih (answer q)

variable {E : Type}

/-- A plan that may fail ends with its first failure, or as what follows it. -/
theorem outcome_run_bind (answer : (q : Q) → A q) (x : ExceptT E (Plan Q A) α)
    (f : α → ExceptT E (Plan Q A) β) :
    (x >>= f).run.outcome answer =
      x.run.outcome answer >>= fun a => (f a).run.outcome answer := by
  rw [ExceptT.run_bind]
  refine (outcome_bind answer x.run _).trans ?_
  cases x.run.outcome answer <;> rfl

section Failing

variable {x : ExceptT E (Plan Q A) α} {f : α → ExceptT E (Plan Q A) β}

theorem converses_run_bind_iff {result : Except E β} : (x >>= f).run.Converses talk result ↔
    (∃ e, x.run.Converses talk (.error e) ∧ result = .error e) ∨
      ∃ before a after, talk = before ++ after ∧ x.run.Converses before (.ok a) ∧
        (f a).run.Converses after result := by
  rw [ExceptT.run_bind]
  refine converses_bind_iff.trans ?_
  constructor
  · rintro ⟨before, outcome, after, rfl, first, rest⟩
    cases outcome with
    | error e =>
      obtain ⟨rfl, rfl⟩ := rest
      exact .inl ⟨e, by rwa [List.append_nil], rfl⟩
    | ok a => exact .inr ⟨before, a, after, rfl, first, rest⟩
  · rintro (⟨e, first, rfl⟩ | ⟨before, a, after, rfl, first, rest⟩)
    · exact ⟨talk, .error e, [], by rw [List.append_nil], first, rfl, rfl⟩
    · exact ⟨before, .ok a, after, rfl, first, rest⟩

theorem converses_run_bind_ok_iff {b : β} : (x >>= f).run.Converses talk (.ok b) ↔
    ∃ before a after, talk = before ++ after ∧ x.run.Converses before (.ok a) ∧
      (f a).run.Converses after (.ok b) := by
  rw [converses_run_bind_iff]
  exact or_iff_right fun ⟨_, _, failed⟩ => nomatch failed

/-- Work that cannot fail is done to its end. -/
theorem converses_work_bind_iff {p : Plan Q A α} {result : Except E β} :
    (liftM p >>= f : ExceptT E (Plan Q A) β).run.Converses talk result ↔
      ∃ before a after, talk = before ++ after ∧ p.Converses before a ∧
        (f a).run.Converses after result := by
  refine Iff.trans ?_ converses_bind_iff
  exact iff_of_eq (congrArg (Converses · talk result) (ExceptT.run_bind_lift p f))

/-- A result that is there already asks nothing. -/
theorem converses_except_bind_iff {outcome : Except E α} {result : Except E β} :
    (liftM outcome >>= f : ExceptT E (Plan Q A) β).run.Converses talk result ↔
      (∃ e, outcome = .error e ∧ talk = [] ∧ result = .error e) ∨
        ∃ a, outcome = .ok a ∧ (f a).run.Converses talk result := by
  cases outcome with
  | error e =>
    refine Iff.trans (b := talk = [] ∧ result = .error e) .rfl ?_
    simp
  | ok a =>
    refine Iff.trans (b := (f a).run.Converses talk result) .rfl ?_
    simp

end Failing

theorem asks_run_except {P : Q → Prop} (result : Except E α) :
    (liftM result : ExceptT E (Plan Q A) α).run.Asks P := by
  cases result <;> trivial

theorem asks_run_lift {P : Q → Prop} {p : Plan Q A α} (h : p.Asks P) :
    (liftM p : ExceptT E (Plan Q A) α).run.Asks P :=
  h.bind fun _ => trivial

theorem asks_run_bind {P : Q → Prop} {x : ExceptT E (Plan Q A) α}
    {f : α → ExceptT E (Plan Q A) β} (h : x.run.Asks P) (hf : ∀ a, (f a).run.Asks P) :
    (x >>= f).run.Asks P := by
  rw [ExceptT.run_bind]
  refine h.bind fun result => ?_
  cases result with
  | ok a => exact hf a
  | error e => trivial

theorem asks_run_except_bind {P : Q → Prop} {result : Except E α}
    {f : α → ExceptT E (Plan Q A) β} (hf : ∀ a, result = .ok a → (f a).run.Asks P) :
    (liftM result >>= f : ExceptT E (Plan Q A) β).run.Asks P := by
  cases result with
  | ok a => exact hf a rfl
  | error e => trivial

end Plan

namespace Attempt

variable {rule : Rule Deed Deed.Reply σ}

@[simp]
theorem meets_except (result : Except ServerError α) (goal : Except ServerError α → σ → Prop) :
    (liftM result : Attempt α).run.Meets rule goal = goal result := rfl

@[simp]
theorem meets_work (work : Work α) (goal : Except ServerError α → σ → Prop) :
    (liftM work : Attempt α).run.Meets rule goal = work.Meets rule fun a => goal (.ok a) :=
  Plan.meets_bind work (fun a => .done (.ok a)) goal

@[simp]
theorem meets_bind (x : Attempt α) (f : α → Attempt β) (goal : Except ServerError β → σ → Prop) :
    (x >>= f).run.Meets rule goal = x.run.Meets rule fun result =>
      match result with
      | .ok a => (f a).run.Meets rule goal
      | .error e => goal (.error e) := by
  rw [ExceptT.run_bind]
  refine (Plan.meets_bind x.run _ goal).trans (congrArg (x.run.Meets rule) (funext ?_))
  rintro (e | a) <;> rfl

theorem asks_send {may : Deed → Prop} {message : Outgoing} (enters : may .enterWriter)
    (looks : may .writerOpen) (writes : may (.write message.bytes)) (leaves : may .leaveWriter) :
    (send message).run.Asks may := by
  refine ⟨enters, fun _ => ⟨looks, fun isOpen => ?_⟩⟩
  cases isOpen with
  | true => exact ⟨writes, fun result => ⟨leaves, fun _ => trivial⟩⟩
  | false => exact ⟨leaves, fun _ => trivial⟩

theorem run_withDocuments (attempt : Attempt α) :
    (withDocuments attempt).run = .ask .enterDocuments fun _ =>
      attempt.run.bind fun result => .ask .leaveDocuments fun _ => .done result :=
  congrArg (Plan.ask Deed.enterDocuments) (funext fun _ => ExceptT.run_bind_lift attempt.run _)

theorem meets_withDocuments {attempt : Attempt α} {goal : Except ServerError α → σ → Prop} {s : σ}
    (monotone : rule.Monotone)
    (free : ∀ (goal : Unit → σ → Prop) s, goal () s →
      rule .enterDocuments goal s ∧ rule .leaveDocuments goal s)
    (h : attempt.run.Meets rule goal s) : (withDocuments attempt).run.Meets rule goal s := by
  rw [run_withDocuments, Plan.meets_ask]
  refine (free _ s ?_).1
  rw [Plan.meets_bind]
  exact h.mono monotone fun result s' meets => (free _ s' meets).2

theorem meets_ask_bind (d : Deed) (f : d.Reply → Attempt β)
    (goal : Except ServerError β → σ → Prop) :
    (ask d >>= f).run.Meets rule goal = rule d fun reply => (f reply).run.Meets rule goal := rfl

end Attempt

end CodeIntel
