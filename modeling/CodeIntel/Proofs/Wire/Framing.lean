import CodeIntel.Proofs.Basic
import CodeIntel.Proofs.Frame.Decoding
import CodeIntel.Proofs.Wire.Keeping

namespace CodeIntel

namespace Wire

variable {w w' : Wire} {part : List UInt8} {h : Holder}

/-- What was written, and what this part of it has to do with those at work. -/
structure Sound (w : Wire) (part : List UInt8) : Prop where
  apart : w.tasks Link.readerHolder = none
  keeps : Keeps w.link w.crew part
  accounts : Accounts w.written w.cuts part

theorem crew_of_ne (ne : h ≠ Link.readerHolder) : w.crew h = w.tasks h :=
  Function.update_of_ne ne _ _

theorem crew_reader (w : Wire) : w.crew Link.readerHolder = w.link.reader.task? :=
  Function.update_self ..

theorem crew_put (w : Wire) (ne : h ≠ Link.readerHolder) (task? : Option Task) :
    (w.put h task?).crew = Function.update w.crew h task? :=
  Function.update_comm ne ..

theorem crew_go {link : Link} (same : link.reader = w.link.reader) : (w.go link).crew = w.crew := by
  unfold crew go
  rw [same]

theorem crew_read (w : Wire) (link : Link) :
    (w.go link).crew = Function.update w.crew Link.readerHolder link.reader.task? :=
  (Function.update_idem ..).symm

/-- A part that is written belongs to a message that is being written. -/
theorem writes_of_keeps (keeps : Keeps w.link w.crew part) : part = [] ∨ w.Writes part := by
  cases left : w.link.unwritten with
  | none => exact .inl (keeps.idle left)
  | some rest =>
    obtain ⟨_, h, message, next, _, writes, split⟩ := keeps.busy rest left
    exact .inr ⟨h, message, next, rest, writes, split⟩

namespace Sound

theorem ne_reader {task : Task} (sound : w.Sound part) (under : w.tasks h = some task) :
    h ≠ Link.readerHolder := by
  rintro rfl
  cases sound.apart.symm.trans under

theorem goes {link : Link} {crew : Holder → Option Task} {sent : List (List UInt8)}
    (sound : w.Sound part) (goes : Goes w.link link crew part sent) :
    ∃ part', Keeps link crew part' ∧ Accounts (w.go link).written (w.go link).cuts part' := by
  obtain ⟨⟨part', keeps, effect⟩, _⟩ := goes
  exact ⟨part', keeps, sound.accounts.effect effect⟩

theorem apart_put (sound : w.Sound part) (ne : h ≠ Link.readerHolder) (task? : Option Task)
    (link : Link) : ((w.go link).put h task?).tasks Link.readerHolder = none :=
  (Function.update_of_ne ne.symm _ _).trans sound.apart

theorem step (sound : w.Sound part) (step : Step w w') : ∃ part', w'.Sound part' := by
  cases step with
  | @begin h other idle transaction =>
    refine ⟨part, (Function.update_of_ne other.symm _ _).trans sound.apart, ?_, sound.accounts⟩
    rw [crew_put w other]
    exact sound.keeps.begin ((crew_of_ne other).trans idle) transaction.orderly_task
  | @advance h task under m =>
    have ne := sound.ne_reader under
    obtain ⟨part', keeps, accounts⟩ :=
      sound.goes (sound.keeps.advance ((crew_of_ne ne).trans under) m)
    refine ⟨part', sound.apart_put ne _ _, ?_, accounts⟩
    rw [Wire.advance, crew_put _ ne, crew_go (Link.reader_advance ..)]
    exact keeps
  | @finish h result under =>
    have ne := sound.ne_reader under
    refine ⟨part, (Function.update_of_ne ne.symm _ _).trans sound.apart, ?_, sound.accounts⟩
    rw [crew_put w ne]
    exact sound.keeps.finish ((crew_of_ne ne).trans under)
  | @drop h task under =>
    have ne := sound.ne_reader under
    obtain ⟨part', keeps, effect, _⟩ := sound.keeps.abandon (h := h)
    refine ⟨part', sound.apart_put ne _ _, ?_, ?_⟩
    · rw [crew_put _ ne, crew_go (show (w.link.abandon h).reader = w.link.reader from rfl)]
      exact keeps
    · have outgoing : (w.link.abandon h).outgoing.drop w.link.outgoing.length = [] :=
        List.drop_length
      have accounts := sound.accounts.effect effect
      rwa [← outgoing] at accounts
  | read m =>
    obtain ⟨part', keeps, accounts⟩ := sound.goes (sound.keeps.read w.crew_reader m)
    exact ⟨part', sound.apart, crew_read w _ ▸ keeps, accounts⟩
  | @other link same =>
    refine ⟨part, sound.apart, ?_, sound.accounts⟩
    have crew : ({ w with link := link } : Wire).crew = w.crew := crew_go (w := w) same.reader
    rw [crew]
    exact sound.keeps.congr same.writer same.unwritten

theorem of_run {room : Nat} (run : w.Run room) : ∃ part, w.Sound part := by
  induction run with
  | refl =>
    refine ⟨[], rfl, ⟨?_, fun _ => rfl, nofun⟩, [], rfl, rfl⟩
    intro h task found
    have none : (fresh room).crew = fun _ => none := Function.update_eq_self _ _
    rw [none] at found
    cases found
  | tail _ step ih =>
    obtain ⟨part, sound⟩ := ih
    exact sound.step step

theorem writes (sound : w.Sound part) : part = [] ∨ w.Writes part := writes_of_keeps sound.keeps

/-- Whoever writes has the stream. -/
theorem held {message : Outgoing} {next : Except ServerError Unit → Task} (sound : w.Sound part)
    (writes : w.crew h = some (.ask (.write message.bytes) next)) :
    w.link.writer.holder = some h := by
  obtain ⟨has, orderly, holds⟩ := sound.keeps.orderly h _ writes
  exact holds orderly.1

theorem cuts_go {link : Link} (kept : w.link.givesUp link = false) :
    (w.go link).cuts = w.cuts := by
  unfold go
  rw [kept]
  rfl

/-- A write is given up only if its transaction is dropped, or if the server takes nothing any
more. -/
theorem cut (sound : w.Sound part) (step : Step w w') (more : w'.cuts ≠ w.cuts) :
    w.link.taken = false ∨ ∃ h message next,
      w.tasks h = some (.ask (.write (Outgoing.bytes message)) next) ∧ w'.tasks h = none := by
  by_cases taken : w.link.taken = true
  · refine .inr ?_
    cases step with
    | begin other idle transaction => exact absurd rfl more
    | finish under => exact absurd rfl more
    | other same => exact absurd rfl more
    | advance under m =>
      have goes := sound.keeps.advance ((crew_of_ne (sound.ne_reader under)).trans under) m
      exact absurd (cuts_go (goes.taken taken)) more
    | read m => exact absurd (cuts_go ((sound.keeps.read w.crew_reader m).taken taken)) more
    | @drop h task under =>
      obtain ⟨_, _, _, writes⟩ := sound.keeps.abandon (h := h)
      cases gives : w.link.givesUp (w.link.abandon h) with
      | false => exact absurd (cuts_go gives) more
      | true =>
        obtain ⟨message, next, writes⟩ := writes gives
        rw [crew_of_ne (sound.ne_reader under)] at writes
        exact ⟨h, message, next, writes, Function.update_self ..⟩
  · exact .inl (by simpa using taken)

end Sound

/-- What was written is whole messages and the fronts of those whose writing was given up, one
after the other, and then at most the beginning of one that is being written. -/
structure Composed (w : Wire) : Prop where
  pieces : ∃ (pieces : List Piece) (part : List UInt8),
    w.written = pieces.flatMap Piece.bytes ++ part ∧ pieces.countP Piece.isFront = w.cuts ∧
      (part = [] ∨ w.Writes part)
  whole : w.cuts = 0 → w.IsFramed
  /-- While the server takes what is sent, only a transaction dropped in the middle of a write gives
  up. -/
  cut : ∀ w', Step w w' → w'.cuts ≠ w.cuts → w.link.taken = false ∨ ∃ h message next,
    w.tasks h = some (.ask (.write (Outgoing.bytes message)) next) ∧ w'.tasks h = none

theorem messages_of_whole {pieces : List Piece} (whole : pieces.countP Piece.isFront = 0) :
    ∃ messages : List Outgoing, pieces.flatMap Piece.bytes = messages.flatMap Outgoing.bytes := by
  induction pieces with
  | nil => exact ⟨[], rfl⟩
  | cons piece pieces ih =>
    cases piece with
    | whole message =>
      obtain ⟨messages, eq⟩ := ih (by simpa [Piece.isFront] using whole)
      exact ⟨message :: messages, by simp [Piece.bytes, eq]⟩
    | front message bytes short ne => simp [Piece.isFront] at whole

end Wire

open Wire

/-- Whatever calls are made over a connection and whenever they end or are dropped, and whatever the
server sends and takes. -/
theorem writing_keeps_frames {room : Nat} {w : Wire} (run : w.Run room) : w.Composed := by
  obtain ⟨part, sound⟩ := Sound.of_run run
  obtain ⟨pieces, written, cuts⟩ := sound.accounts
  refine ⟨⟨pieces, part, written, cuts, sound.writes⟩, fun none => ?_, fun w' => sound.cut⟩
  obtain ⟨messages, eq⟩ := messages_of_whole (cuts.trans none)
  exact ⟨messages, part, eq ▸ written, sound.writes⟩

namespace Wire

/-- A step that can be played. -/
inductive Move
  | begin (h : Holder) (transaction : Transaction)
  | advance (h : Holder)
  | finish (h : Holder)
  | drop (h : Holder)
  /-- The server takes all that is under way. -/
  | take

def play? (w : Wire) : Move → Option Wire
  | .begin h transaction =>
    if h ≠ Link.readerHolder ∧ (w.tasks h).isNone then some (w.put h (some transaction.task)) else none
  | .advance h => (w.tasks h).map fun task => w.advance ⟨0, default, default⟩ h task
  | .finish h =>
    match w.tasks h with
    | some (.done _) => some (w.put h none)
    | _ => none
  | .drop h => (w.tasks h).map fun _ => (w.go (w.link.abandon h)).put h none
  | .take => some { w with link := { w.link with outgoing := [] } }

theorem step_of_play? {move : Move} {w w' : Wire} (played : w.play? move = some w') :
    Step w w' := by
  cases move with
  | begin h transaction =>
    simp only [play?] at played
    split at played
    next free =>
      cases played
      exact .begin free.1 (Option.isNone_iff_eq_none.mp free.2) transaction
    next => cases played
  | advance h =>
    obtain ⟨task, under, rfl⟩ := Option.map_eq_some_iff.mp played
    exact .advance under _
  | finish h =>
    simp only [play?] at played
    split at played
    next under =>
      cases played
      exact .finish under
    next => cases played
  | drop h =>
    obtain ⟨task, under, rfl⟩ := Option.map_eq_some_iff.mp played
    exact .drop under
  | take =>
    cases played
    exact .other ⟨rfl, rfl, rfl⟩

theorem run_of_play {room : Nat} {moves : List Move} {w w' : Wire} (run : w.Run room)
    (played : moves.foldlM play? w = some w') : w'.Run room :=
  run.trans (reflTransGen_of_foldlM Step played fun _ _ _ => step_of_play?)

/-- A message that is longer than there is room for. -/
def long : Transaction :=
  .notification "workspace/didChangeConfiguration" <| some <|
    .object [("settings", .object [("directoryFilters", .array [.string "-**/node_modules"])])]

def stuck : List Move := .begin 1 long :: List.replicate 3 (.advance 1)

/-- The transaction is dropped, and once there is room, another message is written. -/
def resumed : List Move :=
  .drop 1 :: .take :: .begin 2 (.notification "exit" none) :: List.replicate 4 (.advance 2) ++
    [.finish 2]

end Wire

theorem unfinished_message_is_last :
    ∃ w : Wire, w.Run 64 ∧ w.cuts = 0 ∧ w.link.unwritten.isSome ∧ w.Composed := by
  have played : ((stuck.foldlM play? (.fresh 64)).any fun w =>
      decide (w.cuts = 0) && w.link.unwritten.isSome) = true := by decide +kernel
  obtain ⟨w, reached, ends⟩ := (Option.any_eq_true _ _).mp played
  obtain ⟨cuts, unwritten⟩ := Bool.and_eq_true_iff.mp ends
  have run : w.Run 64 := run_of_play .refl reached
  exact ⟨w, run, of_decide_eq_true cuts, unwritten, writing_keeps_frames run⟩

namespace Wire

/-- If all is written and in order, whoever reads finds a frame. -/
theorem IsFramed.read_ne_waiting {w : Wire} {part : List UInt8} (framed : w.IsFramed)
    (sound : w.Sound part) (free : w.link.writer.holder = none) (some : w.written ≠ [])
    (short : w.written.length < UInt64.size) : Frame.read false w.written ≠ .waiting := by
  obtain ⟨messages, part, written, unfinished⟩ := framed
  obtain rfl : part = [] := by
    refine unfinished.resolve_right ?_
    rintro ⟨h, message, next, rest, writes, _⟩
    cases free.symm.trans (sound.held writes)
  rw [List.append_nil] at written
  cases messages with
  | nil => exact absurd written some
  | cons message messages =>
    rw [written] at short ⊢
    rw [List.flatMap_cons, Outgoing.bytes] at short ⊢
    refine Frame.read_encode_ne_waiting ?_
    rw [Frame.encode, List.length_append, List.length_append] at short
    omega

end Wire

/-- A message that is written after one whose transaction was dropped ends up inside of it. -/
theorem dropped_write_spoils_stream :
    ∃ w : Wire, w.Run 64 ∧ w.link.taken = true ∧ ¬ w.IsFramed := by
  have played : (((stuck ++ resumed).foldlM play? (.fresh 64)).any fun w =>
      w.link.taken && w.link.writer.holder.isNone && decide (w.written ≠ []) &&
        decide (w.written.length < UInt64.size) &&
          (Frame.read false w.written matches .waiting)) = true := by decide +kernel
  obtain ⟨w, reached, ends⟩ := (Option.any_eq_true _ _).mp played
  simp only [Bool.and_eq_true, decide_eq_true_eq, Option.isNone_iff_eq_none] at ends
  obtain ⟨⟨⟨⟨taken, free⟩, some⟩, short⟩, waits⟩ := ends
  have run : w.Run 64 := run_of_play .refl reached
  refine ⟨w, run, taken, fun framed => ?_⟩
  obtain ⟨part, sound⟩ := Sound.of_run run
  refine framed.read_ne_waiting sound free some short ?_
  split at waits
  next waiting => exact waiting
  next => cases waits

end CodeIntel
