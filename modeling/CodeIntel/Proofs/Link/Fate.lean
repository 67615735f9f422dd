import CodeIntel.Client.Connection
import CodeIntel.Proofs.Link.Table
import CodeIntel.Proofs.Plan
import Mathlib.Logic.Function.Basic
import Mathlib.Logic.Relation

namespace CodeIntel

section Request

/-- A request to be made of a server. -/
structure Inquiry where
  method : String
  params : Option Json
  timeout : Nat

abbrev Asking := Work (Except ServerError Json)

def Inquiry.steps (q : Inquiry) : Asking := (Attempt.request q.method q.params q.timeout).run

/-- Whether a request ends in what a server said. -/
def Told : Except ServerError Json → Prop
  | .ok _ => True
  | .error (.requestFailed _) => True
  | .error _ => False

def Awaited.answer? : Awaited → Option Answer
  | .answered answer => some answer
  | .lost | .late => none

/-- How far a request has come: it has a number once it is made, and keeps the answer it was given
last. -/
inductive Standing
  | unmade
  | waiting (id : Nat) (got : Option Answer)
  | past (id : Nat) (got : Option Answer)

namespace Standing

def id? : Standing → Option Nat
  | unmade => none
  | waiting id _ => some id
  | past id _ => some id

def IsOver : Standing → Prop
  | past .. => True
  | _ => False

/-- A request takes one number, waits for the answer to that number alone, and expects it no longer
when it is over. A failed write is no word of the server. -/
def rule : Rule Deed Deed.Reply Standing
  | .register, goal, s => s = unmade ∧ ∀ id, goal id (waiting id none)
  | .await id _, goal, s =>
    ∃ got, s = waiting id got ∧ ∀ awaited, goal awaited (waiting id awaited.answer?)
  | .forget id, goal, s => ∃ got, s = waiting id got ∧ goal () (past id got)
  | .write _, goal, s =>
    ¬ s.IsOver ∧ ∀ reply : Except ServerError Unit,
      (∀ text, reply ≠ .error (.requestFailed text)) → goal reply s
  | _, goal, s => ¬ s.IsOver ∧ ∀ reply, goal reply s

end Standing

open Standing

/-- A request that ends in what the server said ends in the answer that it was given. -/
def Inquiry.Ends (q : Inquiry) (result : Except ServerError Json) (s : Standing) : Prop :=
  ∃ id got, s = .past id got ∧
    (Told result → ∃ answer, got = some answer ∧
      result = Attempt.readAnswer q.method q.timeout (.answered answer))

theorem meets_send {message : Outgoing} {goal : Except ServerError Unit → Standing → Prop}
    {s : Standing} (running : ¬ s.IsOver)
    (h : ∀ result, (∀ text, result ≠ .error (.requestFailed text)) → goal result s) :
    (Attempt.send message).run.Meets rule goal s := by
  refine ⟨running, fun _ => ⟨running, fun isOpen => ?_⟩⟩
  cases isOpen with
  | true => exact ⟨running, fun result plain => ⟨running, fun _ => h result plain⟩⟩
  | false => exact ⟨running, fun _ => h _ nofun⟩

theorem told_readAnswer {method : String} {timeout : Nat} {awaited : Awaited}
    (told : Told (Attempt.readAnswer method timeout awaited)) :
    ∃ answer, awaited = .answered answer := by
  cases awaited with
  | answered answer => exact ⟨answer, rfl⟩
  | lost => exact told.elim
  | late => exact told.elim

theorem rule_monotone : Standing.rule.Monotone := by
  intro d goal goal' weaker s h
  cases d with
  | register => exact ⟨h.1, fun n => weaker n _ (h.2 n)⟩
  | await n deadline =>
    obtain ⟨got, eq, h⟩ := h
    exact ⟨got, eq, fun awaited => weaker awaited _ (h awaited)⟩
  | forget n =>
    obtain ⟨got, eq, h⟩ := h
    exact ⟨got, eq, weaker () _ h⟩
  | write bytes => exact ⟨h.1, fun reply plain => weaker reply s (h.2 reply plain)⟩
  | _ => exact ⟨h.1, fun reply => weaker reply s (h.2 reply)⟩

theorem Inquiry.meets_exchange (q : Inquiry) (n : Nat) :
    (Attempt.exchange n q.method q.params q.timeout).run.Meets rule
      (fun result s => ∃ got, s = .waiting n got ∧
        (Told result → ∃ answer, got = some answer ∧
          result = Attempt.readAnswer q.method q.timeout (.answered answer)))
      (.waiting n none) := by
  unfold Attempt.exchange
  rw [Attempt.meets_bind]
  refine meets_send (s := .waiting n none) (fun past => past) fun result plain => ?_
  cases result with
  | error e =>
    refine ⟨none, rfl, fun told => ?_⟩
    cases e with
    | requestFailed text => exact absurd rfl (plain text)
    | _ => exact told.elim
  | ok _ =>
    refine ⟨fun past => past, fun start => ⟨none, rfl, fun awaited => ⟨_, rfl, fun told => ?_⟩⟩⟩
    obtain ⟨answer, rfl⟩ := told_readAnswer told
    exact ⟨answer, rfl, rfl⟩

theorem Inquiry.meets_steps (q : Inquiry) : q.steps.Meets rule q.Ends .unmade := by
  unfold Inquiry.steps Attempt.request
  rw [Attempt.meets_ask_bind]
  refine ⟨rfl, fun n => ?_⟩
  dsimp only
  rw [Attempt.meets_bind, Attempt.meets_work]
  refine (q.meets_exchange n).mono rule_monotone ?_
  rintro result s ⟨got, rfl, told⟩
  exact ⟨got, rfl, n, got, rfl, told⟩

end Request

/-- Whether an error says that the connection is gone. -/
def ServerError.IsOfConnection : ServerError → Prop
  | connectionLost _ | io _ => True
  | _ => False

/-- How far a request has come, and what became of its answer if that is settled. -/
inductive Fate
  | unmade
  | made (n : Nat) (settled : Option Awaited)
  | past (n : Nat) (settled : Option Awaited)

namespace Fate

def id? : Fate → Option Nat
  | unmade => none
  | made n _ => some n
  | past n _ => some n

def settled? : Fate → Option Awaited
  | unmade => none
  | made _ settled => settled
  | past _ settled => settled

/-- A request waits for its answer once, and does nothing else after that than to expect it no
longer. A failed write says that the connection is gone. -/
def rule : Rule Deed Deed.Reply Fate
  | .register, goal, s => s = unmade ∧ ∀ n, goal n (made n none)
  | .await n _, goal, s => s = made n none ∧ ∀ awaited, goal awaited (made n (some awaited))
  | .forget n, goal, s => ∃ settled, s = made n settled ∧ goal () (past n settled)
  | .write _, goal, s =>
    ∃ n, s = made n none ∧ ∀ reply : Except ServerError Unit,
      (∀ e, reply = .error e → e.IsOfConnection) → goal reply s
  | _, goal, s => ∃ n, s = made n none ∧ ∀ reply, goal reply s

theorem rule_past {d : Deed} {goal : d.Reply → Fate → Prop} {n : Nat} {settled : Option Awaited} :
    ¬ rule d goal (past n settled) := by
  intro h
  cases d with
  | register => cases h.1
  | await n deadline => cases h.1
  | _ =>
    obtain ⟨_, eq, _⟩ := h
    cases eq

theorem rule_settled {d : Deed} {goal : d.Reply → Fate → Prop} {n : Nat} {awaited : Awaited}
    (h : rule d goal (made n (some awaited))) : ∀ reply, goal reply (past n (some awaited)) := by
  cases d with
  | register => cases h.1
  | await n deadline => cases h.1
  | forget n =>
    obtain ⟨_, eq, h⟩ := h
    cases eq
    exact fun _ => h
  | _ =>
    obtain ⟨_, eq, _⟩ := h
    cases eq

end Fate

namespace Inquiry

/-- A request ends in what became of its answer, or its message could not be sent. -/
def Follows (q : Inquiry) (settled : Option Awaited) (result : Except ServerError Json) : Prop :=
  match settled with
  | none => ∃ e, result = .error e ∧ e.IsOfConnection
  | some awaited => result = Attempt.readAnswer q.method q.timeout awaited

def EndsIn (q : Inquiry) (result : Except ServerError Json) (s : Fate) : Prop :=
  ∃ n settled, s = .past n settled ∧ q.Follows settled result

theorem meets_send_fate {message : Outgoing} {n : Nat}
    {goal : Except ServerError Unit → Fate → Prop}
    (h : ∀ result, (∀ e, result = .error e → e.IsOfConnection) → goal result (.made n none)) :
    (Attempt.send message).run.Meets Fate.rule goal (.made n none) := by
  refine ⟨n, rfl, fun _ => ⟨n, rfl, fun isOpen => ?_⟩⟩
  cases isOpen with
  | true => exact ⟨n, rfl, fun result ofConnection => ⟨n, rfl, fun _ => h result ofConnection⟩⟩
  | false =>
    refine ⟨n, rfl, fun _ => h _ fun e eq => ?_⟩
    cases eq
    trivial

theorem meets_fate (q : Inquiry) : q.steps.Meets Fate.rule q.EndsIn .unmade := by
  unfold steps Attempt.request
  rw [Attempt.meets_ask_bind]
  refine ⟨rfl, fun n => ?_⟩
  dsimp only
  rw [Attempt.meets_bind, Attempt.meets_work]
  unfold Attempt.exchange
  rw [Attempt.meets_bind]
  refine meets_send_fate fun result ofConnection => ?_
  cases result with
  | error e => exact ⟨none, rfl, n, none, rfl, e, rfl, ofConnection e rfl⟩
  | ok _ =>
    exact ⟨n, rfl, fun start => ⟨rfl, fun awaited => ⟨_, rfl, n, some awaited, rfl, rfl⟩⟩⟩

/-- Once it is settled what became of its answer, the end of a request is. -/
theorem outcomes_of_settled {q : Inquiry} {work : Asking} {s : Fate} {awaited : Awaited}
    (steps : work.Meets Fate.rule q.EndsIn s) (settled : s.settled? = some awaited) :
    work.Outcomes (· = Attempt.readAnswer q.method q.timeout awaited) := by
  have past : ∀ n (work : Asking), work.Meets Fate.rule q.EndsIn (.past n (some awaited)) →
      work.Outcomes (· = Attempt.readAnswer q.method q.timeout awaited) := by
    intro n work steps
    cases work with
    | done result =>
      obtain ⟨_, _, eq, ends⟩ := steps
      cases eq
      exact ends
    | ask d next => exact absurd steps Fate.rule_past
  cases s with
  | unmade => cases settled
  | past n told =>
    cases settled
    exact past n work steps
  | made n told =>
    cases settled
    cases work with
    | done result =>
      obtain ⟨_, _, eq, _⟩ := steps
      cases eq
    | ask d next => exact fun reply => past n (next reply) (Fate.rule_settled steps reply)

end Inquiry

open Link

/-- A write fails only when the connection is gone. -/
theorem Link.ofConnection_of_write {link : Link} {m : Moment} {self : Holder} {bytes : List UInt8}
    {reply : Except ServerError Unit}
    (replied : (link.perform m self (.write bytes)).2 = some reply) (e : ServerError)
    (failed : reply = .error e) : e.IsOfConnection := by
  subst failed
  change (link.write bytes).2 = _ at replied
  unfold write at replied
  split at replied
  · cases replied
    trivial
  · simp only at replied
    split at replied <;> cases replied

theorem Link.perform_await_fst (link : Link) (m : Moment) (self : Holder) (n deadline : Nat) :
    (link.perform m self (.await n deadline)).1 = link := by
  rw [perform_await]
  split
  · rfl
  · split <;> rfl

/-- What a step of a request makes of its fate and of the connection. -/
inductive Fate.Moves (link : Link) (m : Moment) (self : Holder) : Fate → Fate → Link → Prop
  | stay {s : Fate} {link' : Link} (same : SameTable link link')
      (reader : link'.reader = link.reader) : Moves link m self s s link'
  | register : Moves link m self .unmade (.made (link.lastId + 1) none) (link.expect self)
  | await {n deadline : Nat} {awaited : Awaited}
      (replied : (link.perform m self (.await n deadline)).2 = some awaited) :
      Moves link m self (.made n none) (.made n (some awaited)) link
  | forget {n : Nat} {settled : Option Awaited} :
      Moves link m self (.made n settled) (.past n settled) (link.forget n)

theorem Fate.Moves.lastId {link link' : Link} {m : Moment} {self : Holder} {s s' : Fate}
    (moves : Fate.Moves link m self s s' link') :
    (link'.lastId = link.lastId ∧ s'.id? = s.id?) ∨
      (s = .unmade ∧ s' = .made (link.lastId + 1) none ∧ link' = link.expect self) := by
  cases moves with
  | stay same reader => exact .inl ⟨same.lastId, rfl⟩
  | register => exact .inr ⟨rfl, rfl, rfl⟩
  | await replied => exact .inl ⟨rfl, rfl⟩
  | forget => exact .inl ⟨rfl, rfl⟩

/-- A request does what leaves the table alone, and goes on if there is a reply. -/
theorem Link.moves_of_leaves {link link' : Link} {m : Moment} {self : Holder} {q : Inquiry}
    {d : Deed} {next : d.Reply → Asking} {work' : Asking} {s : Fate} {moved : Bool}
    (leaves : d.LeavesTable) (steps : (Plan.ask d next : Asking).Meets Fate.rule q.EndsIn s)
    (goesOn : Fate.Moves link m self s s (link.perform m self d).1 →
      ∀ reply, (link.perform m self d).2 = some reply →
        ∃ s', Fate.Moves link m self s s' (link.perform m self d).1 ∧
          (next reply).Meets Fate.rule q.EndsIn s')
    (advanced : link.advance m self (.ask d next) = (link', work', moved)) :
    ∃ s', Fate.Moves link m self s s' link' ∧ work'.Meets Fate.rule q.EndsIn s' := by
  obtain ⟨same, reader⟩ := sameTable_perform link m self leaves
  cases performed : link.perform m self d with
  | mk after reply? =>
    simp only [advance, performed] at advanced
    rw [performed] at goesOn same reader
    cases reply? with
    | none =>
      cases advanced
      exact ⟨s, .stay same reader, steps⟩
    | some reply =>
      cases advanced
      exact goesOn (.stay same reader) reply rfl

theorem Link.moves_of_advance {link link' : Link} {m : Moment} {self : Holder} {q : Inquiry}
    {work work' : Asking} {s : Fate} {moved : Bool} (steps : work.Meets Fate.rule q.EndsIn s)
    (advanced : link.advance m self work = (link', work', moved)) :
    ∃ s', Fate.Moves link m self s s' link' ∧ work'.Meets Fate.rule q.EndsIn s' := by
  cases work with
  | done result =>
    cases advanced
    exact ⟨s, .stay (.refl link) rfl, steps⟩
  | ask d next =>
    cases d with
    | register =>
      cases advanced
      obtain ⟨rfl, steps⟩ := steps
      exact ⟨_, .register, steps _⟩
    | forget n =>
      cases advanced
      obtain ⟨settled, rfl, steps⟩ := steps
      exact ⟨_, .forget, steps⟩
    | await n deadline =>
      refine moves_of_leaves (by trivial) steps (fun _ reply replied => ?_) advanced
      obtain ⟨rfl, after⟩ := steps
      exact ⟨_, (perform_await_fst link m self n deadline).symm ▸ .await replied, after reply⟩
    | write bytes =>
      refine moves_of_leaves (by trivial) steps (fun stay reply replied => ?_) advanced
      obtain ⟨n, rfl, after⟩ := steps
      exact ⟨_, stay, after reply (ofConnection_of_write replied)⟩
    | _ =>
      refine moves_of_leaves (by trivial) steps (fun stay reply _ => ?_) advanced
      obtain ⟨n, rfl, after⟩ := steps
      exact ⟨_, stay, after reply⟩

end CodeIntel

namespace CodeIntel

/-- What happens to the requests that are made over a connection. -/
inductive Event
  /-- A request is given a number. -/
  | made (n : Nat)
  /-- The reader takes a message of the server. -/
  | heard (message : Incoming)
  | ended (inquiry : Inquiry) (n? : Option Nat) (result : Except ServerError Json)
  /-- A request is given up, wherever it stands. -/
  | dropped (n? : Option Nat)

namespace Event

def made? : Event → Option Nat
  | made n => some n
  | _ => none

def over? : Event → Option Nat
  | ended _ n? _ => n?
  | dropped n? => n?
  | _ => none

/-- Whether a request with this number waits no longer: it is over, or an answer to it has come. -/
def Closes (n : Nat) : Event → Prop
  | made _ => False
  | heard (.answer id _) => id = .nat n
  | heard _ => False
  | ended _ n? _ => n? = some n
  | dropped n? => n? = some n

/-- A request with this number was made, and nothing has closed it since. The latest event is the
first. -/
def Open (n : Nat) : List Event → Prop
  | [] => False
  | made m :: before => m = n ∨ Open n before
  | event :: before => ¬ event.Closes n ∧ Open n before

/-- This answer to the request with this number came while the request was open. -/
def Answered (n : Nat) (answer : Answer) (history : List Event) : Prop :=
  ∃ before, heard (.answer (.nat n) answer) :: before <:+ history ∧ Open n before

variable {n : Nat} {answer : Answer} {event : Event} {history : List Event}

theorem open_cons (stays : ¬ event.Closes n) (isOpen : Open n history) :
    Open n (event :: history) := by
  cases event with
  | made m => exact .inr isOpen
  | _ => exact ⟨stays, isOpen⟩

theorem closes_heard {message : Incoming} :
    (heard message).Closes n ↔ ∃ answer, message = .answer (.nat n) answer := by
  cases message with
  | answer id answer =>
    constructor
    · rintro rfl
      exact ⟨answer, rfl⟩
    · rintro ⟨_, eq⟩
      exact (Incoming.answer.inj eq).1
  | request id method params => exact ⟨False.elim, nofun⟩
  | notification method params => exact ⟨False.elim, nofun⟩

theorem mem_over_cons :
    n ∈ (event :: history).filterMap over? ↔
      event.over? = some n ∨ n ∈ history.filterMap over? := by
  simp [List.mem_filterMap]

theorem Answered.cons (answered : Answered n answer history) (event : Event) :
    Answered n answer (event :: history) := by
  obtain ⟨before, suffix, isOpen⟩ := answered
  exact ⟨before, suffix.trans (List.suffix_cons event history), isOpen⟩

end Event

/-- A request under way. -/
structure Exchange where
  inquiry : Inquiry
  number? : Option Nat
  work : Asking

namespace Exchange

def start (q : Inquiry) : Exchange := ⟨q, none, q.steps⟩

/-- Whether a request still has something to wait for. -/
def IsRunning (e : Exchange) : Prop := ∃ d next, e.work = .ask d next

end Exchange

/-- A connection with the requests that are made over it. -/
structure Traffic where
  link : Link
  /-- The requests under way, by those who make them. -/
  exchanges : Holder → Option Exchange
  /-- What has happened, the latest first. -/
  history : List Event

namespace Traffic

def fresh (room : Nat) : Traffic := ⟨.fresh room, fun _ => none, []⟩

def put (t : Traffic) (h : Holder) (e? : Option Exchange) : Traffic :=
  { t with exchanges := Function.update t.exchanges h e? }

def note (t : Traffic) (event : Event) : Traffic := { t with history := event :: t.history }

/-- A request takes a step; with it, it may have been given a number. -/
def advance (t : Traffic) (m : Moment) (h : Holder) (e : Exchange) : Traffic :=
  let (link, work, _) := t.link.advance m h e.work
  let t' : Traffic := { t with link := link }
  if link.lastId = t.link.lastId then t'.put h (some { e with work := work })
  else (t'.put h (some ⟨e.inquiry, some link.lastId, work⟩)).note (.made link.lastId)

/-- The reader takes a step; with it, it may have taken a message. -/
def read (t : Traffic) (m : Moment) : Traffic :=
  let t' : Traffic := { t with link := (t.link.readerStep m).1 }
  match t.link.heard? with
  | some (message, _) => t'.note (.heard message)
  | none => t'

/-- What may happen next: a request begins, takes a step, comes to its end or is given up, the
reader takes a step, or the connection is used for something else. -/
inductive Step : Traffic → Traffic → Prop
  | begin {t : Traffic} {h : Holder} (idle : t.exchanges h = none) (q : Inquiry) :
      Step t (t.put h (some (.start q)))
  | advance {t : Traffic} {h : Holder} {e : Exchange} (under : t.exchanges h = some e)
      (m : Moment) : Step t (t.advance m h e)
  | finish {t : Traffic} {h : Holder} {q : Inquiry} {n? : Option Nat}
      {result : Except ServerError Json} (under : t.exchanges h = some ⟨q, n?, .done result⟩) :
      Step t ((t.put h none).note (.ended q n? result))
  | drop {t : Traffic} {h : Holder} {e : Exchange} (under : t.exchanges h = some e) :
      Step t ((({ t with link := t.link.abandon h } : Traffic).put h none).note
        (.dropped e.number?))
  | read {t : Traffic} (m : Moment) : Step t (t.read m)
  | other {t : Traffic} {link : Link} (same : Link.SameTable t.link link)
      (reader : link.reader = t.link.reader) : Step t { t with link := link }

/-- What may come of a new connection that has room for so many bytes under way. -/
def Run (t : Traffic) (room : Nat) : Prop := Relation.ReflTransGen Step (fresh room) t

end Traffic

end CodeIntel
