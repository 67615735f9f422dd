import CodeIntel.Proofs.Link.Messages
import CodeIntel.Proofs.Wire.Manning
import Mathlib.Data.List.Forall2

namespace CodeIntel

open CodeIntel.Frame (Packet)

/-- The value that the reader takes next. -/
def Link.reads? (link : Link) : Option Json :=
  match link.reader with
  | .reading =>
    match Frame.read link.finished link.incoming with
    | .message value _ => some value
    | _ => none
  | _ => none

theorem Link.sameStream_noticeStep (link : Link) : SameStream link link.noticeStep.1 := by
  unfold noticeStep
  split <;> exact ⟨rfl, rfl, rfl⟩

/-- A connection over which a server sends, and what came of it so far. -/
structure Feed where
  wire : Wire
  /-- The bytes that the server has yet to send. -/
  coming : List UInt8
  /-- The values that were read. -/
  heard : List Json
  /-- The messages that were written to their end, with those who wrote them. -/
  sent : List (Holder × List UInt8)
  /-- The notifications that were looked at. -/
  looked : List (String × Json)

namespace Feed

def fresh (room : Nat) (packets : List Packet) : Feed :=
  ⟨.fresh room, packets.flatMap Packet.bytes, [], [], []⟩

def link (f : Feed) : Link := f.wire.link

def relink (f : Feed) (link : Link) : Feed := { f with wire := { f.wire with link := link } }

def advance (f : Feed) (m : Moment) (h : Holder) (task : Task) : Feed :=
  { f with
    wire := f.wire.advance m h task
    sent := f.sent ++ (f.link.sends task).map (h, ·) }

def read (f : Feed) (m : Moment) : Feed :=
  { f with
    wire := f.wire.go (f.link.readerStep m).1
    heard := f.heard ++ f.link.reads?.toList
    sent := f.sent ++ f.link.readerSends.map (Link.readerHolder, ·) }

/-- What may happen next: a transaction begins, takes a step, comes to its end or is dropped, the
reader takes a step, the server sends or takes bytes or does so no more, or someone looks at a
notification. -/
inductive Step : Feed → Feed → Prop
  | begin {f : Feed} {h : Holder} (other : h ≠ Link.readerHolder) (idle : f.wire.tasks h = none)
      (transaction : Transaction) : Step f { f with wire := f.wire.put h (some transaction.task) }
  | advance {f : Feed} {h : Holder} {task : Task} (under : f.wire.tasks h = some task)
      (m : Moment) : Step f (f.advance m h task)
  | finish {f : Feed} {h : Holder} {result : Except ServerError Unit}
      (under : f.wire.tasks h = some (.done result)) : Step f { f with wire := f.wire.put h none }
  | drop {f : Feed} {h : Holder} {task : Task} (under : f.wire.tasks h = some task) :
      Step f { f with wire := (f.wire.go (f.link.abandon h)).put h none }
  | read {f : Feed} (m : Moment) : Step f (f.read m)
  | come {f : Feed} {part rest : List UInt8} (coming : f.coming = part ++ rest) :
      Step f { f.relink { f.link with incoming := f.link.incoming ++ part } with coming := rest }
  | close {f : Feed} (all : f.coming = []) : Step f (f.relink { f.link with finished := true })
  | take {f : Feed} (n : Nat) :
      Step f (f.relink { f.link with outgoing := f.link.outgoing.drop n })
  | lose {f : Feed} : Step f (f.relink { f.link with taken := false })
  | notice {f : Feed} : Step f { f.relink f.link.noticeStep.1 with
      looked := f.looked ++ f.link.notices.take 1 }

/-- What may come of a new connection over which a server sends these messages. -/
def Run (f : Feed) (room : Nat) (packets : List Packet) : Prop :=
  Relation.ReflTransGen Step (fresh room packets) f

def requests (f : Feed) : List (Json × String × Option Json) := f.heard.filterMap Json.request?

/-- The messages that the reader wrote. -/
def replies (f : Feed) : List (List UInt8) :=
  f.sent.filterMap fun s => if s.1 = Link.readerHolder then some s.2 else none

/-- No write to the server fails. -/
def Carries (f : Feed) : Prop := f.link.taken = true ∧ f.link.writable = true

/-- A whole message has come, or a request that was read is not replied to. -/
def Due (f : Feed) : Prop :=
  (∃ p : Packet, p.bytes <+: f.link.incoming) ∨ f.replies.length < f.requests.length

variable {f f' : Feed} {part : List UInt8} {h : Holder}

theorem wire_step (step : Step f f') : Wire.Step f.wire f'.wire := by
  cases step with
  | begin other idle transaction => exact .begin other idle transaction
  | advance under m => exact .advance under m
  | finish under => exact .finish under
  | drop under => exact .drop under
  | read m => exact .read m
  | notice => exact .other (Link.sameStream_noticeStep f.link)
  | _ => exact .other ⟨rfl, rfl, rfl⟩

theorem wire_run {room : Nat} {packets : List Packet} (run : f.Run room packets) :
    f.wire.Run room := by
  induction run with
  | refl => exact .refl
  | tail _ step ih => exact ih.tail (wire_step step)

end Feed

namespace Link

/-- What comes from the server is left alone. -/
structure SameInbound (link link' : Link) : Prop where
  incoming : link'.incoming = link.incoming
  finished : link'.finished = link.finished
  notices : link'.notices = link.notices
  reader : link'.reader = link.reader
  taken : link'.taken = link.taken
  writable : link'.writable = true → link.writable = true

theorem SameInbound.refl (link : Link) : SameInbound link link := ⟨rfl, rfl, rfl, rfl, rfl, id⟩

theorem sameInbound_perform (link : Link) (m : Moment) (h : Holder) (d : Deed) :
    SameInbound link (link.perform m h d).1 := by
  cases d with
  | write bytes =>
    change SameInbound link (link.write bytes).1
    unfold write
    split <;> exact ⟨rfl, rfl, rfl, rfl, rfl, id⟩
  | closeWriter => exact ⟨rfl, rfl, rfl, rfl, rfl, nofun⟩
  | await n deadline =>
    rw [perform_await]
    split
    · exact ⟨rfl, rfl, rfl, rfl, rfl, id⟩
    · split <;> exact ⟨rfl, rfl, rfl, rfl, rfl, id⟩
  | update seen deadline =>
    rw [perform_update]
    split <;> exact ⟨rfl, rfl, rfl, rfl, rfl, id⟩
  | _ => exact ⟨rfl, rfl, rfl, rfl, rfl, id⟩

theorem sameInbound_advance (link : Link) (m : Moment) (h : Holder) (task : Task) :
    SameInbound link (link.advance m h task).1 := by
  cases task with
  | done result => exact ⟨rfl, rfl, rfl, rfl, rfl, id⟩
  | ask d next => exact (link.advance_ask m h d next).1 ▸ link.sameInbound_perform m h d

end Link

namespace Feed

variable {f f' : Feed} {h : Holder} {part : List UInt8}

/-- Nothing is read, and what was read is handled as before. -/
structure Beside (f f' : Feed) : Prop where
  heard : f'.heard = f.heard
  reader : f'.link.reader = f.link.reader
  bytes : f'.link.incoming ++ f'.coming = f.link.incoming ++ f.coming
  coming : f.coming = [] → f'.coming = []
  stays : f.link.finished = true → f'.link.finished = true
  closes : f'.link.finished = true → f.link.finished = true ∨ f'.coming = []
  notices : f'.looked ++ f'.link.notices = f.looked ++ f.link.notices
  replies : f'.replies = f.replies
  carries : f'.Carries → f.Carries

theorem Beside.of_same {link : Link} (same : Link.SameInbound f.link link)
    (heard : f'.heard = f.heard) (is : f'.link = link) (coming : f'.coming = f.coming)
    (looked : f'.looked = f.looked) (replies : f'.replies = f.replies) : f.Beside f' := by
  subst is
  exact ⟨heard, same.reader, by rw [same.incoming, coming], fun none => coming.trans none,
    fun finished => same.finished.trans finished, fun finished => .inl (same.finished ▸ finished),
    by rw [same.notices, looked], replies,
    fun carries => ⟨same.taken ▸ carries.1, same.writable carries.2⟩⟩

/-- A step of someone else than the reader. -/
theorem beside_step (step : Step f f') (sound : f.wire.Sound part) :
    f.Beside f' ∨ ∃ m, f' = f.read m := by
  cases step with
  | read m => exact .inr ⟨m, rfl⟩
  | begin other idle transaction => exact .inl (.of_same (.refl f.link) rfl rfl rfl rfl rfl)
  | finish under => exact .inl (.of_same (.refl f.link) rfl rfl rfl rfl rfl)
  | @drop h task under =>
    have same : Link.SameInbound f.link (f.link.abandon h) := ⟨rfl, rfl, rfl, rfl, rfl, id⟩
    exact .inl (.of_same same rfl rfl rfl rfl rfl)
  | @advance h task under m =>
    have ne := sound.ne_reader under
    refine .inl (.of_same (f.link.sameInbound_advance m h task) rfl rfl rfl rfl ?_)
    simp [replies, advance, List.filterMap_map, ne]
  | @come part rest coming =>
    refine .inl ⟨rfl, rfl, ?_, fun none => ?_, id, .inl, rfl, rfl, id⟩
    · simp [coming, relink, link]
    · exact (List.append_eq_nil_iff.mp (coming.symm.trans none)).2
  | close all => exact .inl ⟨rfl, rfl, rfl, id, fun _ => rfl, fun _ => .inr all, rfl, rfl, id⟩
  | take n => exact .inl ⟨rfl, rfl, rfl, id, id, .inl, rfl, rfl, id⟩
  | lose => exact .inl ⟨rfl, rfl, rfl, id, id, .inl, rfl, rfl, nofun⟩
  | notice =>
    cases waiting : f.link.notices with
    | nil =>
      have none : f.link.noticeStep.1 = f.link := by simp [Link.noticeStep, waiting]
      rw [none]
      exact .inl (.of_same (.refl f.link) rfl rfl rfl (List.append_nil _) rfl)
    | cons notice others =>
      have first : f.link.noticeStep.1 = { f.link with
          notices := others
          publications := f.link.publications.receive notice.1 notice.2 } := by
        simp [Link.noticeStep, waiting]
      rw [first]
      refine .inl ⟨rfl, rfl, rfl, id, id, .inl, ?_, rfl, id⟩
      rw [waiting]
      exact List.append_assoc f.looked [notice] others

end Feed

/-- What is done to write a message where no write fails; it tells whether the message is written. -/
def Sending.rule (bytes : List UInt8) : Rule Deed Deed.Reply Bool
  | .enterWriter, goal, written => goal () written
  | .leaveWriter, goal, written => goal () written
  | .writerOpen, goal, written => goal true written
  | .write message, goal, written => message = bytes ∧ written = false ∧ goal (.ok ()) true
  | _, _, _ => False

/-- Some work that writes a message, and only that. -/
def Plan.Sends {α : Type} (bytes : List UInt8) (work : Work α) (written : Bool) : Prop :=
  work.Meets (Sending.rule bytes) (fun _ written => written = true) written

/-- What is left to be sent. -/
def unsent (bytes : List UInt8) (written : Bool) : List (List UInt8) :=
  if written then [] else [bytes]

/-- The messages that the reader is about to write. -/
def Reader.Owes (messages : List (List UInt8)) : Reader → Prop
  | replying work => ∃ bytes written, work.Sends bytes written ∧ messages = unsent bytes written
  | reading | ended => messages = []

theorem Attempt.sends_send (message : Outgoing) : (send message).run.Sends message.bytes false :=
  ⟨rfl, rfl, rfl⟩

/-- While writes do not fail, what is to be sent is sent by the next step or by a later one. -/
theorem Plan.Sends.advance {link : Link} {task : Task} {bytes : List UInt8} {written : Bool}
    (sends : task.Sends bytes written) (taken : link.taken = true) (writable : link.writable = true)
    (m : Moment) (h : Holder) :
    ∃ written', (link.advance m h task).2.1.Sends bytes written' ∧
      link.sends task ++ unsent bytes written' = unsent bytes written := by
  cases task with
  | done result => exact ⟨written, sends, rfl⟩
  | ask d next =>
    rw [(link.advance_ask m h d next).2]
    cases d with
    | enterWriter =>
      refine ⟨written, ?_, rfl⟩
      simp only [Link.perform]
      split <;> exact sends
    | leaveWriter => exact ⟨written, sends, rfl⟩
    | writerOpen =>
      refine ⟨written, ?_, rfl⟩
      simp only [Link.perform, writable]
      exact sends
    | write message =>
      obtain ⟨rfl, rfl, goesOn⟩ := sends
      rw [Link.sends_write]
      simp only [Link.perform]
      by_cases fits : (link.unwritten.getD message).length ≤ link.room - link.outgoing.length
      · rw [Link.write_whole taken fits]
        exact ⟨true, goesOn, rfl⟩
      · rw [Link.write_part taken fits]
        exact ⟨false, ⟨rfl, rfl, goesOn⟩, rfl⟩
    | _ => exact sends.elim

namespace Feed

variable {f f' : Feed} {packets rest : List Packet}

/-- How far the reader is: so many messages are not read yet, and what was read is handled. -/
structure Attends (f : Feed) (packets rest : List Packet) : Prop where
  values : packets.map (·.value) = f.heard ++ rest.map (·.value)
  bytes : f.link.incoming ++ f.coming = rest.flatMap Packet.bytes
  whole : f.link.finished = true → f.coming = []
  ended : f.link.reader = .ended → f.link.finished = true ∧ rest = []
  notices : f.looked ++ f.link.notices = f.heard.filterMap Json.notification?
  replies : f.Carries → ∃ messages, f.link.reader.Owes messages ∧
    f.replies ++ messages = f.requests.map fun request => (replyTo request).bytes
  aside : f.link.reader.Aside

theorem replies_read (f : Feed) (m : Moment) :
    (f.read m).replies = f.replies ++ f.link.readerSends := by
  simp [replies, read, List.filterMap_map]

/-- The reader waits for more. -/
theorem beside_read {m : Moment} (still : (f.link.readerStep m).1 = f.link)
    (nothing : f.link.reads? = none) (silent : f.link.reader.task? = none) :
    f.Beside (f.read m) := by
  have replies : (f.read m).replies = f.replies := by
    rw [replies_read, Link.readerSends_eq, silent]
    exact List.append_nil _
  refine .of_same (.refl f.link) ?_ still rfl rfl replies
  simp [read, nothing]

namespace Attends

theorem fresh (room : Nat) (packets : List Packet) : (Feed.fresh room packets).Attends packets packets :=
  ⟨rfl, rfl, nofun, nofun, rfl, fun _ => ⟨[], rfl, rfl⟩, trivial⟩

theorem beside (attends : f.Attends packets rest) (beside : f.Beside f') :
    f'.Attends packets rest := by
  refine ⟨beside.heard ▸ attends.values, beside.bytes.trans attends.bytes, fun finished => ?_,
    fun ended => ?_, ?_, fun carries => ?_, beside.reader ▸ attends.aside⟩
  · rcases beside.closes finished with before | none
    · exact beside.coming (attends.whole before)
    · exact none
  · obtain ⟨finished, none⟩ := attends.ended (beside.reader ▸ ended)
    exact ⟨beside.stays finished, none⟩
  · rw [beside.notices, beside.heard]
    exact attends.notices
  · obtain ⟨messages, owes, all⟩ := attends.replies (beside.carries carries)
    refine ⟨messages, beside.reader ▸ owes, ?_⟩
    rw [beside.replies, all, requests, requests, beside.heard]

/-- What a reader finds that reads. -/
theorem finds (attends : f.Attends packets rest) :
    Frame.read f.link.finished f.link.incoming = .waiting ∨
      (Frame.read f.link.finished f.link.incoming = .ended ∧ f.link.finished = true ∧ rest = []) ∨
      ∃ p others bytes, rest = p :: others ∧ bytes ++ f.coming = others.flatMap Packet.bytes ∧
        Frame.read f.link.finished f.link.incoming = .message p.value bytes := by
  cases finished : f.link.finished with
  | false =>
    rcases Frame.read_false_of_packets attends.bytes with waits | ⟨p, others, eq, bytes, found, all⟩
    · exact .inl waits
    · exact .inr (.inr ⟨p, others, bytes, eq, all, found⟩)
  | true =>
    have none := attends.whole finished
    have all : f.link.incoming = rest.flatMap Packet.bytes := by
      rw [← attends.bytes, none, List.append_nil]
    cases rest with
    | nil => exact .inr (.inl ⟨by rw [all]; rfl, rfl, rfl⟩)
    | cons p others =>
      refine .inr (.inr ⟨p, others, others.flatMap Packet.bytes, rfl, ?_, ?_⟩)
      · rw [none, List.append_nil]
      · rw [all, List.flatMap_cons, Frame.read_packet]

/-- The reader takes the next message. -/
theorem take {p : Packet} {others : List Packet} {bytes : List UInt8}
    (attends : f.Attends packets (p :: others)) (reading : f.link.reader = .reading)
    (found : Frame.read f.link.finished f.link.incoming = .message p.value bytes)
    (all : bytes ++ f.coming = others.flatMap Packet.bytes) (m : Moment) :
    (f.read m).Attends packets others := by
  have heeds : Link.Heeds { f.link with incoming := bytes } (f.read m).link p.value :=
    Link.heeds_readerStep reading found m
  have heard : (f.read m).heard = f.heard ++ [p.value] := by
    simp [Feed.read, Link.reads?, reading, found]
  -- Whatever is told of the values that were read, the new one adds what is told of it.
  have adds : ∀ {α : Type} (what : Json → Option α),
      (f.read m).heard.filterMap what = f.heard.filterMap what ++ (what p.value).toList := by
    intro α what
    rw [heard, List.filterMap_append]
    cases is : what p.value <;> simp [is]
  refine ⟨?_, ?_, ?_, ?_, ?_, ?_, ?_⟩
  · simpa [heard] using attends.values
  · rw [heeds.incoming]
    exact all
  · rw [heeds.finished]
    exact attends.whole
  · intro ended
    rw [heeds.reader] at ended
    split at ended <;> cases ended
  · rw [adds, heeds.notices, ← attends.notices]
    exact (List.append_assoc ..).symm
  · intro carries
    obtain ⟨messages, owes, before⟩ := attends.replies
      ⟨heeds.taken.symm.trans carries.1, heeds.writable.symm.trans carries.2⟩
    rw [reading] at owes
    subst owes
    refine ⟨p.value.request?.toList.map fun request => (replyTo request).bytes, ?_, ?_⟩
    · rw [heeds.reader]
      cases p.value.request? with
      | some request => exact ⟨_, false, Attempt.sends_send _, rfl⟩
      | none => rfl
    · have silent : f.link.readerSends = [] := by rw [Link.readerSends_eq, reading]; rfl
      rw [requests, adds, List.map_append, ← requests, ← before, replies_read, silent]
  · rw [heeds.reader]
    split
    · exact Attempt.asks_send trivial trivial trivial trivial
    · trivial

/-- The reader does something else than to read. -/
theorem goOn {m : Moment} (attends : f.Attends packets rest) (link : Link) (reader : Reader)
    (after : (f.link.readerStep m).1 = { link with reader := reader })
    (same : Link.SameInbound f.link link) (nothing : f.link.reads? = none)
    (ended : reader = .ended → f.link.finished = true ∧ rest = []) (aside : reader.Aside)
    (owes : f.Carries → ∀ messages, f.link.reader.Owes messages →
      ∃ messages', reader.Owes messages' ∧ f.link.readerSends ++ messages' = messages) :
    (f.read m).Attends packets rest := by
  have is : (f.read m).link = { link with reader := reader } := after
  have heard : (f.read m).heard = f.heard := by simp [Feed.read, nothing]
  refine ⟨heard ▸ attends.values, ?_, ?_, ?_, ?_, ?_, ?_⟩
  · rw [is]
    exact same.incoming ▸ attends.bytes
  · rw [is]
    exact same.finished ▸ attends.whole
  · rw [is]
    exact fun isEnded => same.finished ▸ ended isEnded
  · rw [is, heard]
    exact same.notices ▸ attends.notices
  · unfold Carries
    rw [is, replies_read, requests, heard]
    rintro ⟨taken, writable⟩
    have carries : f.Carries := ⟨same.taken ▸ taken, same.writable writable⟩
    obtain ⟨messages, before, all⟩ := attends.replies carries
    obtain ⟨messages', after, rfl⟩ := owes carries messages before
    exact ⟨messages', after, (List.append_assoc ..).trans all⟩
  · rw [is]
    exact aside

theorem reply {work : Task} (attends : f.Attends packets rest)
    (replying : f.link.reader = .replying work) (m : Moment) : (f.read m).Attends packets rest := by
  have nothing : f.link.reads? = none := by simp [Link.reads?, replying]
  have aside := attends.aside
  rw [replying] at aside
  cases work with
  | done result =>
    refine attends.goOn f.link .reading (by rw [Link.readerStep_done replying]) (.refl f.link)
      nothing nofun trivial fun _ messages owes => ⟨[], rfl, ?_⟩
    rw [Link.readerSends_eq]
    rw [replying] at owes ⊢
    obtain ⟨bytes, written, rfl, rfl⟩ := owes
    rfl
  | ask d next =>
    refine attends.goOn _ (.replying (f.link.advance m Link.readerHolder (.ask d next)).2.1)
      (by rw [Link.readerStep_ask replying]) (f.link.sameInbound_advance m _ _) nothing nofun
      (f.link.asks_advance m _ aside) ?_
    rintro ⟨taken, writable⟩ messages owes
    rw [Link.readerSends_eq]
    rw [replying] at owes ⊢
    obtain ⟨bytes, written, sends, rfl⟩ := owes
    obtain ⟨written', sends', all⟩ := sends.advance taken writable m Link.readerHolder
    exact ⟨_, ⟨bytes, written', sends', rfl⟩, all⟩

theorem read (attends : f.Attends packets rest) (m : Moment) :
    ∃ rest', (f.read m).Attends packets rest' := by
  cases reader : f.link.reader with
  | ended =>
    refine ⟨rest, attends.beside (beside_read ?_ ?_ ?_)⟩
    · simp [Link.readerStep, reader]
    · simp [Link.reads?, reader]
    · rw [reader]
      rfl
  | replying work => exact ⟨rest, attends.reply reader m⟩
  | reading =>
    rcases attends.finds with waits | ⟨ends, finished, rfl⟩ | ⟨p, others, bytes, rfl, all, found⟩
    · refine ⟨rest, attends.beside (beside_read ?_ ?_ ?_)⟩
      · simp [Link.readerStep, reader, waits]
      · simp [Link.reads?, reader, waits]
      · rw [reader]
        rfl
    · have same : Link.SameInbound f.link { f.link with pending := [] } :=
        ⟨rfl, rfl, rfl, rfl, rfl, id⟩
      refine ⟨[], attends.goOn _ .ended ?_ same ?_ (fun _ => ⟨finished, rfl⟩) trivial ?_⟩
      · simp [Link.readerStep, Link.endReading, reader, ends]
      · simp [Link.reads?, reader, ends]
      · intro _ messages owes
        rw [reader] at owes
        subst owes
        refine ⟨[], rfl, ?_⟩
        rw [Link.readerSends_eq, reader]
        rfl
    · exact ⟨others, attends.take reader found all m⟩

end Attends

end Feed

end CodeIntel
