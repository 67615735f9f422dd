import CodeIntel.Proofs.Wire.Feed

namespace CodeIntel

open CodeIntel.Frame (Packet)

variable {f f' : Feed} {packets rest : List Packet} {part : List UInt8} {h : Holder}

theorem Lock.Sound.holder_request {l : Lock} (sound : l.Sound) (h : Holder) :
    (l.request h).holder = some h ∨ ∃ other, other ≠ h ∧ l.holder = some other := by
  cases held : l.holder with
  | none =>
    have free : ¬ l.involves h = true := by simp [involves_iff, held, sound.held held]
    rw [Lock.request, if_neg free, held]
    exact .inl rfl
  | some other =>
    by_cases same : other = h
    · subst same
      exact .inl (holder_request_of_some held other)
    · exact .inr ⟨other, same, rfl⟩

/-- Whoever writes messages may do so. -/
theorem Manned.sends {link : Link} {crew : Holder → Option Task} {task : Task}
    (manned : Manned link crew) (under : crew h = some task) :
    ∀ bytes ∈ link.sends task, ∃ message : Outgoing, h.May message ∧ bytes = message.bytes := by
  intro bytes mem
  obtain ⟨has, posted⟩ := manned.posted h task under
  unfold Link.sends at mem
  split at mem
  next message next =>
    split at mem
    · obtain rfl := List.mem_singleton.mp mem
      exact posted.brisk.2.1
    · cases mem
  next => cases mem

namespace Feed

/-- The messages that are told of are all that is written, up to the one that is at hand, and only
the reader writes what is not a call. -/
structure Tells (f : Feed) (part : List UInt8) : Prop where
  keeps : Keeps f.link f.wire.crew part
  written : f.wire.cuts = 0 → f.wire.written = f.sent.flatMap (·.2) ++ part
  calls : ∀ h bytes, (h, bytes) ∈ f.sent →
    ∃ message : Outgoing, h.May message ∧ bytes = message.bytes

namespace Tells

/-- Someone at work takes a step. -/
theorem goes {sent : List (List UInt8)} {part' : List UInt8} (tells : f.Tells part)
    (keeps : Keeps f'.link f'.wire.crew part')
    (effect : Effect part (f'.link.outgoing.drop f.link.outgoing.length)
      (f.link.givesUp f'.link) part' sent)
    (allowed : ∀ bytes ∈ sent, ∃ message : Outgoing, h.May message ∧ bytes = message.bytes)
    (written : f'.wire.written = (f.wire.go f'.link).written)
    (cuts : f'.wire.cuts = (f.wire.go f'.link).cuts) (all : f'.sent = f.sent ++ sent.map (h, ·)) :
    f'.Tells part' := by
  refine ⟨keeps, fun none => ?_, fun h' bytes mem => ?_⟩
  · obtain ⟨before, kept⟩ := Nat.add_eq_zero_iff.mp (cuts.symm.trans none)
    have kept : f.link.givesUp f'.link = false := Bool.toNat_eq_zero.mp kept
    rw [kept] at effect
    calc f'.wire.written
      _ = f.wire.written ++ f'.link.outgoing.drop f.link.outgoing.length := written
      _ = f.sent.flatMap (·.2) ++ (part ++ f'.link.outgoing.drop f.link.outgoing.length) := by
        rw [tells.written before, List.append_assoc]
      _ = f'.sent.flatMap (·.2) ++ part' := by
        rw [effect.flatten, all, List.flatMap_append, List.flatMap_map, List.append_assoc]
        simp
  · rw [all] at mem
    rcases List.mem_append.mp mem with before | new
    · exact tells.calls h' bytes before
    · obtain ⟨bytes', mem', same⟩ := List.mem_map.mp new
      cases same
      exact allowed bytes mem'

theorem rests (tells : f.Tells part) (same : Link.SameStream f.link f'.link)
    (tasks : f'.wire.tasks = f.wire.tasks) (written : f'.wire.written = f.wire.written)
    (cuts : f'.wire.cuts = f.wire.cuts) (sent : f'.sent = f.sent) : f'.Tells part := by
  have crew : f'.wire.crew = f.wire.crew := by
    unfold Wire.crew
    rw [tasks, show f'.wire.link.reader = f.wire.link.reader from same.reader]
  refine ⟨?_, ?_, sent ▸ tells.calls⟩
  · rw [crew]
    exact tells.keeps.congr same.writer same.unwritten
  · rw [cuts, written, sent]
    exact tells.written

theorem step {part' : List UInt8} (tells : f.Tells part) (sound : f.wire.Sound part')
    (manned : Manned f.link f.wire.crew) (step : Step f f') : ∃ part', f'.Tells part' := by
  have other : ∀ {h task}, f.wire.tasks h = some task →
      h ≠ Link.readerHolder ∧ f.wire.crew h = some task := fun under =>
    have ne := sound.ne_reader under
    ⟨ne, (Wire.crew_of_ne ne).trans under⟩
  cases step with
  | @begin h ne idle transaction =>
    refine ⟨part, ?_, tells.written, tells.calls⟩
    rw [Wire.crew_put _ ne]
    exact tells.keeps.begin ((Wire.crew_of_ne ne).trans idle) transaction.orderly_task
  | @advance h task under m =>
    obtain ⟨ne, under⟩ := other under
    obtain ⟨⟨part', keeps, effect⟩, _⟩ := tells.keeps.advance under m
    refine ⟨part', tells.goes ?_ effect (manned.sends under) rfl rfl rfl⟩
    rw [advance, Wire.advance, Wire.crew_put _ ne, Wire.crew_go (Link.reader_advance ..)]
    exact keeps
  | @finish h result under =>
    obtain ⟨ne, under⟩ := other under
    refine ⟨part, ?_, tells.written, tells.calls⟩
    rw [Wire.crew_put _ ne]
    exact tells.keeps.finish under
  | @drop h task under =>
    obtain ⟨ne, under⟩ := other under
    obtain ⟨part', keeps, effect, _⟩ := tells.keeps.abandon (h := h)
    have nothing : (f.link.abandon h).outgoing.drop f.link.outgoing.length = [] := List.drop_length
    refine ⟨part', tells.goes (h := h) ?_ (nothing ▸ effect) ?_ rfl rfl (List.append_nil _).symm⟩
    swap
    · exact fun bytes mem => absurd mem List.not_mem_nil
    rw [Wire.crew_put _ ne, Wire.crew_go (show (f.link.abandon h).reader = f.link.reader from rfl)]
    exact keeps
  | read m =>
    obtain ⟨⟨part', keeps, effect⟩, _⟩ := tells.keeps.read f.wire.crew_reader m
    refine ⟨part', tells.goes (h := Link.readerHolder) ?_ effect ?_ rfl rfl rfl⟩
    · rw [read, Wire.crew_read]
      exact keeps
    · rw [Link.readerSends_eq]
      cases task : f.link.reader.task? with
      | none => exact fun bytes mem => absurd mem List.not_mem_nil
      | some task => exact manned.sends (f.wire.crew_reader.trans task)
  | notice => exact ⟨part, tells.rests (Link.sameStream_noticeStep f.link) rfl rfl rfl rfl⟩
  | _ => exact ⟨part, tells.rests ⟨rfl, rfl, rfl⟩ rfl rfl rfl rfl⟩

end Tells

/-- Whoever is to reply gets on, or someone else who has the stream. -/
theorem replying_moves {work : Task} {bytes : List UInt8} {written : Bool}
    (manned : Manned f.link f.wire.crew) (replying : f.link.reader = .replying work)
    (sends : work.Sends bytes written) (room : f.link.outgoing.length < f.link.room) (m : Moment) :
    (f.link.readerStep m).2 = true ∨
      ∃ h task, f.wire.tasks h = some task ∧ (f.link.advance m h task).2.2 = true := by
  cases work with
  | done result =>
    rw [Link.readerStep_done replying]
    exact .inl rfl
  | ask d next =>
    rw [Link.readerStep_ask replying]
    simp only [Link.moves_ask]
    cases d with
    | enterWriter =>
      -- If the stream is not free, whoever has it can go on.
      rcases manned.lock.holder_request Link.readerHolder with mine | ⟨other, ne, held⟩
      · refine .inl (.inl ?_)
        simp [Link.perform, mine]
      · obtain ⟨task, under, moves⟩ := manned.moves held room
        exact .inr ⟨other, task, (Wire.crew_of_ne ne).symm.trans under, moves m⟩
    | leaveWriter | writerOpen => exact .inl (.inl rfl)
    | write message => exact .inl (Link.write_moves room message)
    | _ => exact sends.elim

namespace Attends

/-- A step of the reader leaves the table of the expected answers alone, unless it reads an answer or
the end. -/
theorem table (attends : f.Attends packets rest) (m : Moment) :
    Link.SameTable f.link (f.read m).link ∨
      (∃ value, f.link.reads? = some value ∧ value.IsAnswer) ∨
      f.link.finished = true ∧ rest = [] := by
  change Link.SameTable f.link (f.link.readerStep m).1 ∨ _
  cases reader : f.link.reader with
  | ended =>
    have still : (f.link.readerStep m).1 = f.link := by simp [Link.readerStep, reader]
    exact .inl (by rw [still]; exact .refl f.link)
  | replying work =>
    have aside := attends.aside
    rw [reader] at aside
    cases work with
    | done result =>
      rw [Link.readerStep_done reader]
      exact .inl ⟨rfl, rfl, rfl⟩
    | ask d next =>
      obtain ⟨same, _⟩ := Link.sameTable_perform f.link m Link.readerHolder aside.1
      rw [← (f.link.advance_ask m Link.readerHolder d next).1] at same
      rw [Link.readerStep_ask reader]
      exact .inl ⟨same.lastId, same.pending, same.mail⟩
  | reading =>
    rcases attends.finds with waits | ⟨_, finished, none⟩ | ⟨p, others, bytes, _, _, found⟩
    · have still : (f.link.readerStep m).1 = f.link := by simp [Link.readerStep, reader, waits]
      exact .inl (by rw [still]; exact .refl f.link)
    · exact .inr (.inr ⟨finished, none⟩)
    · rcases (Link.heeds_readerStep reader found m).table with isAnswer | same
      · exact .inr (.inl ⟨p.value, by simp [Link.reads?, reader, found], isAnswer⟩)
      · exact .inl ⟨same.lastId, same.pending, same.mail⟩

/-- What is due gets on. -/
theorem moves (attends : f.Attends packets rest) (manned : Manned f.link f.wire.crew)
    (carries : f.Carries) (room : f.link.outgoing.length < f.link.room) (due : f.Due)
    (m : Moment) :
    (f.link.readerStep m).2 = true ∨
      ∃ h task, f.wire.tasks h = some task ∧ (f.link.advance m h task).2.2 = true := by
  obtain ⟨messages, owes, all⟩ := attends.replies carries
  -- A reader that is at no reply owes none, so all that can be due is to read.
  cases reader : f.link.reader with
  | replying work =>
    rw [reader] at owes
    obtain ⟨bytes, written, sends, _⟩ := owes
    exact replying_moves manned reader sends room m
  | reading =>
    rw [reader] at owes
    subst owes
    rcases due with ⟨p, more, eq⟩ | short
    · have found : Frame.read f.link.finished f.link.incoming = .message p.value more :=
        eq ▸ Frame.read_packet p
      rw [Link.readerStep_of_message reader found]
      exact .inl rfl
    · have same := congrArg List.length all
      simp at same
      omega
  | ended =>
    rw [reader] at owes
    subst owes
    rcases due with ⟨p, more, eq⟩ | short
    · obtain ⟨_, rfl⟩ := attends.ended reader
      have none : f.link.incoming = [] := (List.append_eq_nil_iff.mp attends.bytes).1
      have found : Frame.read true (p.bytes ++ more) = .message p.value more := Frame.read_packet p
      have less := Frame.length_lt_of_read found
      rw [eq, none] at less
      exact absurd less (Nat.not_lt_zero _)
    · have same := congrArg List.length all
      simp at same
      omega

end Attends

end Feed

/-- A message that replies to a request. -/
def IsReply (request : Json × String × Option Json) (bytes : List UInt8) : Prop :=
  ∃ reply : Outgoing, bytes = reply.bytes ∧ Json.Replies request reply.toJson

/-- What has become of the messages of a server. -/
structure Feed.Handles (f : Feed) (packets : List Packet) : Prop where
  /-- They are read in order, and none is left out. -/
  heard : ∃ rest : List Packet, packets.map (·.value) = f.heard ++ rest.map (·.value) ∧
    f.link.incoming ++ f.coming = rest.flatMap Packet.bytes
  /-- Only the end of the stream ends the reading. -/
  ended : f.link.reader = .ended → f.link.finished = true ∧ f.heard = packets.map (·.value)
  /-- Every request has one reply, in order; only the last may have none yet, while the reader is at
  it. -/
  replies : f.Carries → ∃ replied waiting, f.requests = replied ++ waiting ∧
    List.Forall₂ IsReply replied f.replies ∧
    (waiting = [] ∨ ∃ request work, waiting = [request] ∧ f.link.reader = .replying work)
  /-- Nobody but the reader writes a reply. -/
  calls : ∀ h bytes, (h, bytes) ∈ f.sent → h ≠ Link.readerHolder →
    ∃ message : Outgoing, message.IsCall ∧ bytes = message.bytes
  /-- Unless a write was given up, the server gets just the messages that are told of. -/
  written : f.wire.cuts = 0 → ∃ part, f.wire.written = f.sent.flatMap (·.2) ++ part ∧
    (part = [] ∨ f.wire.Writes part)
  /-- Every notification is handed on, in order. -/
  notices : f.looked ++ f.link.notices = f.heard.filterMap Json.notification?
  /-- The reader does nothing to the requests of this side that wait for their answers, unless it
  reads an answer or has read all. -/
  table : ∀ m, Link.SameTable f.link (f.read m).link ∨
    (∃ value, f.link.reads? = some value ∧ value.IsAnswer) ∨
    f.link.finished = true ∧ f.heard = packets.map (·.value)
  /-- What is due gets on while the server takes what is written. -/
  moves : f.Carries → f.link.outgoing.length < f.link.room → f.Due → ∀ m,
    (f.link.readerStep m).2 = true ∨
      ∃ h task, f.wire.tasks h = some task ∧ (f.link.advance m h task).2.2 = true

namespace Feed

theorem handles (attends : f.Attends packets rest) (tells : f.Tells part)
    (manned : Manned f.link f.wire.crew) : f.Handles packets := by
  have all : rest = [] → f.heard = packets.map (·.value) := by
    rintro rfl
    simpa using attends.values.symm
  refine ⟨⟨rest, attends.values, attends.bytes⟩, fun ended => ?_, fun carries => ?_, ?_, ?_,
    attends.notices, fun m => ?_, attends.moves manned⟩
  · exact (attends.ended ended).imp_right all
  · obtain ⟨messages, owes, eq⟩ := attends.replies carries
    obtain ⟨replied, waiting, split, done, left⟩ := List.map_eq_append_iff.mp eq.symm
    have fits : List.Forall₂ IsReply replied f.replies := by
      rw [← done, List.forall₂_map_right_iff]
      exact List.forall₂_same.mpr fun request _ => ⟨replyTo request, rfl, replies_replyTo request⟩
    refine ⟨replied, waiting, split, fits, ?_⟩
    cases reader : f.link.reader with
    | reading | ended =>
      rw [reader] at owes
      subst owes
      exact .inl (List.map_eq_nil_iff.mp left)
    | replying work =>
      rw [reader] at owes
      obtain ⟨bytes, written, _, rfl⟩ := owes
      cases written with
      | true => exact .inl (List.map_eq_nil_iff.mp left)
      | false =>
        obtain ⟨request, is, _⟩ := List.map_eq_singleton_iff.mp left
        exact .inr ⟨request, work, is, rfl⟩
  · intro h bytes mem ne
    obtain ⟨message, may, is⟩ := tells.calls h bytes mem
    exact ⟨message, may ne, is⟩
  · exact fun none => ⟨part, tells.written none, Wire.writes_of_keeps tells.keeps⟩
  · exact (attends.table m).imp_right (Or.imp_right (And.imp_right all))

theorem sound_of_run {room : Nat} (run : f.Run room packets) :
    (∃ rest, f.Attends packets rest) ∧ ∃ part, f.Tells part := by
  induction run with
  | refl =>
    obtain ⟨part, sound⟩ := Wire.Sound.of_run (w := .fresh room) .refl
    obtain rfl : part = [] := sound.keeps.idle rfl
    exact ⟨⟨packets, .fresh room packets⟩, [], sound.keeps, fun _ => rfl, nofun⟩
  | @tail f f' before step ih =>
    obtain ⟨⟨rest, attends⟩, part, tells⟩ := ih
    have run : f.wire.Run room := wire_run before
    obtain ⟨_, sound⟩ := Wire.Sound.of_run run
    refine ⟨?_, tells.step sound (Wire.manned_of_run run) step⟩
    rcases beside_step step sound with beside | ⟨m, rfl⟩
    · exact ⟨rest, attends.beside beside⟩
    · exact attends.read m

end Feed

/-- Whatever messages a server sends, whenever their bytes come, and whatever is done over the
connection meanwhile. -/
theorem server_messages_are_handled {room : Nat} (run : f.Run room packets) : f.Handles packets := by
  obtain ⟨⟨rest, attends⟩, part, tells⟩ := Feed.sound_of_run run
  exact Feed.handles attends tells (Wire.manned_of_run (Feed.wire_run run))

namespace Feed

/-- A step that can be played. -/
inductive Move
  | begin (h : Holder) (transaction : Transaction)
  | advance (h : Holder)
  | read
  /-- All bytes of the server arrive. -/
  | come

def play? (f : Feed) : Move → Option Feed
  | .begin h transaction =>
    if h ≠ Link.readerHolder ∧ (f.wire.tasks h).isNone then
      some { f with wire := f.wire.put h (some transaction.task) }
    else none
  | .advance h => (f.wire.tasks h).map fun task => f.advance ⟨0, default, default⟩ h task
  | .read => some (f.read ⟨0, default, default⟩)
  | .come =>
    some { f.relink { f.link with incoming := f.link.incoming ++ f.coming } with coming := [] }

theorem step_of_play? {move : Move} (played : f.play? move = some f') : Step f f' := by
  cases move with
  | begin h transaction =>
    simp only [play?] at played
    split at played
    next free =>
      cases played
      exact .begin free.1 (Option.isNone_iff_eq_none.mp free.2) transaction
    next => cases played
  | advance h =>
    obtain ⟨task, under, rfl⟩ := Option.map_eq_some_iff.mp played
    exact .advance under _
  | read =>
    cases played
    exact .read _
  | come =>
    cases played
    exact .come (List.append_nil _).symm

theorem run_of_play {room : Nat} {moves : List Move} (run : f.Run room packets)
    (played : moves.foldlM play? f = some f') : f'.Run room packets :=
  run.trans (reflTransGen_of_foldlM Step played fun _ _ _ => step_of_play?)

/-- The message that a text is, if it is one. -/
def packet? (text : String) : Option Packet :=
  match accepted : Frame.readContent (utf8Bytes text) with
  | .ok value =>
    if told : (utf8Bytes text).length < UInt64.size then
      some (Frame.JsonText.packet ⟨utf8Bytes text, value, accepted, told⟩)
    else none
  | .error _ => none

/-- A request that bears the number of one of this side, something that is no message, and a
notification. -/
def mixed : List Packet :=
  ["\x7b\"id\":1,\"method\":\"workspace/configuration\",\"params\":\x7b\"items\":[0,0]\x7d\x7d",
    "[\"id\"]", "\x7b\"jsonrpc\":\"2.0\",\"method\":\"telemetry/event\"\x7d"].filterMap packet?

/-- A request of this side is registered, and then all is read. -/
def registered : List Move :=
  [.begin 1 (.request ⟨"workspace/symbol", none, 1000⟩), .advance 1, .come] ++
    List.replicate 8 .read

end Feed

theorem request_with_pending_number_is_handled : ∃ (packets : List Packet) (f : Feed),
    f.Run 1024 packets ∧ f.Carries ∧ f.link.pending = [(1, 1)] ∧ f.heard.length = 3 ∧
      f.requests.map (·.1.text) = ["1"] ∧ f.replies.length = 1 ∧ f.Handles packets := by
  have played : ((Feed.registered.foldlM Feed.play? (.fresh 1024 Feed.mixed)).any fun f =>
        f.link.taken && f.link.writable && decide (f.link.pending = [(1, 1)]) &&
          decide (f.heard.length = 3) && decide (f.requests.map (·.1.text) = ["1"]) &&
            decide (f.replies.length = 1)) = true := by decide +kernel
  obtain ⟨f, reached, ends⟩ := (Option.any_eq_true _ _).mp played
  simp only [Bool.and_eq_true, decide_eq_true_eq] at ends
  obtain ⟨⟨⟨⟨carries, pending⟩, heard⟩, requests⟩, replies⟩ := ends
  have run : f.Run 1024 Feed.mixed := Feed.run_of_play .refl reached
  exact ⟨Feed.mixed, f, run, carries, pending, heard, requests, replies,
    server_messages_are_handled run⟩

end CodeIntel
