import CodeIntel.Link.Step
import CodeIntel.Proofs.Plan

namespace CodeIntel

/-- Whether a deed leaves the table of the expected answers alone. -/
def Deed.LeavesTable : Deed → Prop
  | register | forget _ => False
  | _ => True

/-- Whether the reader does nothing to the table while it answers. -/
def Reader.Aside : Reader → Prop
  | replying work => work.Asks Deed.LeavesTable
  | reading | ended => True

namespace Link

variable {link link' : Link} {m : Moment} {self : Holder}

/-- The table of the expected answers is left as it is. -/
structure SameTable (link link' : Link) : Prop where
  lastId : link'.lastId = link.lastId
  pending : link'.pending = link.pending
  mail : link'.mail = link.mail

theorem SameTable.refl (link : Link) : SameTable link link := ⟨rfl, rfl, rfl⟩

theorem advance_ask {α : Type} (link : Link) (m : Moment) (self : Holder) (d : Deed)
    (next : d.Reply → Work α) :
    (link.advance m self (.ask d next)).1 = (link.perform m self d).1 ∧
      (link.advance m self (.ask d next)).2.1 =
        ((link.perform m self d).2.map next).getD (.ask d next) := by
  simp only [advance]
  split
  next after reply eq => simp [eq]
  next after eq => simp [eq]

/-- What is left to be done asks no more than before. -/
theorem asks_advance {α : Type} {P : Deed → Prop} (link : Link) (m : Moment) (self : Holder)
    {work : Work α} (asks : work.Asks P) : (link.advance m self work).2.1.Asks P := by
  cases work with
  | done a => trivial
  | ask d next =>
    rw [(link.advance_ask m self d next).2]
    cases (link.perform m self d).2 with
    | none => exact asks
    | some reply => exact asks.2 reply

theorem perform_await (link : Link) (m : Moment) (self : Holder) (n deadline : Nat) :
    link.perform m self (.await n deadline) =
      match link.mailFor? n with
      | some answer => (link, some (.answered answer))
      | none =>
        if !link.isPending n then (link, some .lost)
        else (link, if deadline ≤ m.now then some .late else none) := rfl

theorem perform_update (link : Link) (m : Moment) (self : Holder) (seen deadline : Nat) :
    link.perform m self (.update seen deadline) =
      if seen < link.publications.count then (link, some true)
      else (link, if deadline ≤ m.now then some false else none) := rfl

theorem sameTable_write (link : Link) (bytes : List UInt8) :
    SameTable link (link.write bytes).1 ∧ (link.write bytes).1.reader = link.reader := by
  unfold write
  split <;> exact ⟨⟨rfl, rfl, rfl⟩, rfl⟩

theorem sameTable_perform (link : Link) (m : Moment) (self : Holder) {d : Deed}
    (h : d.LeavesTable) :
    SameTable link (link.perform m self d).1 ∧ (link.perform m self d).1.reader = link.reader := by
  cases d with
  | register => exact h.elim
  | forget n => exact h.elim
  | write bytes => exact sameTable_write link bytes
  | await n deadline =>
    rw [perform_await]
    split
    · exact ⟨.refl link, rfl⟩
    · split <;> exact ⟨.refl link, rfl⟩
  | update seen deadline =>
    rw [perform_update]
    split <;> exact ⟨.refl link, rfl⟩
  | _ => exact ⟨⟨rfl, rfl, rfl⟩, rfl⟩

/-- A write that fails is no word of the server. -/
theorem reply_write {bytes : List UInt8} {reply : Except ServerError Unit}
    (h : (link.perform m self (.write bytes)).2 = some reply) (text : String) :
    reply ≠ .error (.requestFailed text) := by
  rintro rfl
  change (link.write bytes).2 = _ at h
  unfold write at h
  split at h
  · cases h
  · simp only at h
    split at h <;> cases h

theorem reply_await {n deadline : Nat} {answer : Answer}
    (h : (link.perform m self (.await n deadline)).2 = some (.answered answer)) :
    ∃ holder, (n, holder, answer) ∈ link.mail := by
  rw [perform_await] at h
  split at h
  next found =>
    cases h
    obtain ⟨⟨number, holder, a⟩, first, rfl⟩ := Option.map_eq_some_iff.mp found
    have same : number = n := by simpa using List.find?_some first
    exact ⟨holder, same ▸ List.mem_of_find?_eq_some first⟩
  next =>
    split at h
    · cases h
    · simp only at h
      split at h <;> cases h

/-- The messages that the next step of some work sends to the end. -/
def sends {α : Type} (link : Link) : Work α → List (List UInt8)
  | .ask (.write message) _ =>
    if (link.write message).2 matches some (.ok ()) then [message] else []
  | _ => []

def readerSends (link : Link) : List (List UInt8) :=
  match link.reader with
  | .replying work => link.sends work
  | _ => []

theorem sends_write {α : Type} (link : Link) (message : List UInt8)
    (next : Except ServerError Unit → Work α) :
    link.sends (.ask (.write message) next) =
      if (link.write message).2 matches some (.ok ()) then [message] else [] := rfl

/-- The message that the reader takes next, and the bytes behind it. -/
def heard? (link : Link) : Option (Incoming × List UInt8) :=
  match link.reader with
  | .reading =>
    match Frame.read link.finished link.incoming with
    | .message value rest => (Incoming.ofJson? value).map fun message => (message, rest)
    | _ => none
  | _ => none

theorem readerStep_of_heard {message : Incoming} {rest : List UInt8}
    (h : link.heard? = some (message, rest)) :
    link.readerStep m = (({ link with incoming := rest } : Link).receive message, true) := by
  unfold heard? at h
  split at h
  next reading =>
    split at h
    next value bytes eq =>
      obtain ⟨_, found, same⟩ := Option.map_eq_some_iff.mp h
      cases same
      unfold readerStep
      rw [reading]
      simp only
      rw [eq]
      simp only
      rw [found]
    next => cases h
  next => cases h

/-- A step of the reader that takes no message: no answer is delivered, and at the end of the stream
none is expected. -/
theorem readerStep_of_unheard (h : link.heard? = none) (aside : link.reader.Aside) :
    (link.readerStep m).1.lastId = link.lastId ∧ (link.readerStep m).1.mail = link.mail ∧
      (link.readerStep m).1.pending ⊆ link.pending ∧ (link.readerStep m).1.reader.Aside := by
  unfold heard? at h
  unfold readerStep
  cases reader : link.reader with
  | ended =>
    refine ⟨rfl, rfl, List.Subset.refl _, ?_⟩
    simp only [reader]
    trivial
  | replying work =>
    rw [reader] at aside
    cases work with
    | done result => exact ⟨rfl, rfl, List.Subset.refl _, trivial⟩
    | ask d next =>
      obtain ⟨same, -⟩ := sameTable_perform link m readerHolder aside.1
      simp only [advance]
      split
      next after reply eq =>
        rw [eq] at same
        exact ⟨same.lastId, same.mail, same.pending ▸ List.Subset.refl _, aside.2 reply⟩
      next after eq =>
        rw [eq] at same
        exact ⟨same.lastId, same.mail, same.pending ▸ List.Subset.refl _, aside⟩
  | reading =>
    rw [reader] at h
    simp only at h ⊢
    split
    next => exact ⟨rfl, rfl, List.Subset.refl _, reader ▸ trivial⟩
    next => exact ⟨rfl, rfl, List.nil_subset _, trivial⟩
    next => exact ⟨rfl, rfl, List.nil_subset _, trivial⟩
    next value rest eq =>
      rw [eq] at h
      have none := Option.map_eq_none_iff.mp h
      rw [none]
      refine ⟨rfl, rfl, List.Subset.refl _, ?_⟩
      simp only
      trivial

theorem receive_answer_nat (link : Link) (n : Nat) (answer : Answer) :
    link.receive (.answer (.nat n) answer) = link.deliver n answer := by
  have natural : (0 : Int) ≤ n := Int.natCast_nonneg n
  simp [receive, Json.nat, natural]

theorem receive_answer_other (link : Link) {id : Json} (answer : Answer)
    (h : ∀ n : Nat, id ≠ .nat n) : link.receive (.answer id answer) = link := by
  unfold receive
  split
  next n _ eq =>
    cases eq
    split
    next natural =>
      have same : Json.number (.int n) = .nat n.toNat := by rw [Json.nat, Int.toNat_of_nonneg natural]
      exact absurd same (h _)
    next => rfl
  next eq => cases eq; rfl
  next eq => cases eq
  next eq => cases eq

theorem receive_other (link : Link) (message : Incoming) (aside : link.reader.Aside)
    (h : ∀ id answer, message ≠ .answer id answer) :
    SameTable link (link.receive message) ∧ (link.receive message).reader.Aside := by
  cases message with
  | answer id answer => exact absurd rfl (h id answer)
  | request id method params =>
    exact ⟨⟨rfl, rfl, rfl⟩, Attempt.asks_send trivial trivial trivial trivial⟩
  | notification method params => exact ⟨⟨rfl, rfl, rfl⟩, aside⟩

theorem deliver_of_unexpected (link : Link) {n : Nat} (answer : Answer)
    (h : ∀ holder, (n, holder) ∉ link.pending) :
    link.deliver n answer = link := by
  unfold deliver
  split
  next => rfl
  next number holder first =>
    have same : number = n := by simpa using List.find?_some first
    exact absurd (same ▸ List.mem_of_find?_eq_some first) (h holder)

/-- An answer that is expected goes to who expects it, and is expected no longer. -/
theorem deliver_of_expected (link : Link) {n : Nat} {holder : Holder} (answer : Answer)
    (h : (n, holder) ∈ link.pending) :
    ∃ receiver, (n, receiver) ∈ link.pending ∧
      link.deliver n answer =
        { link with
          pending := link.pending.filter fun p => p.1 ≠ n
          mail := link.mail ++ [(n, receiver, answer)] } := by
  unfold deliver
  split
  next none =>
    have other := List.find?_eq_none.mp none _ h
    simp at other
  next number receiver first =>
    have same : number = n := by simpa using List.find?_some first
    exact ⟨receiver, same ▸ List.mem_of_find?_eq_some first, rfl⟩

end Link

end CodeIntel
