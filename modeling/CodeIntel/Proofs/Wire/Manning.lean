import CodeIntel.Proofs.Wire.Framing

namespace CodeIntel

/-- What may be done to the stream to the server by those who have it, as `has` tells: such messages
are written, and nothing else is done until the stream is left. -/
def Brisk.rule (may : Outgoing → Prop) : Rule Deed Deed.Reply Bool
  | .enterWriter, goal, has => has = false ∧ goal () true
  | .leaveWriter, goal, has => has = true ∧ goal () false
  | .writerOpen, goal, has => has = true ∧ ∀ reply, goal reply true
  | .write bytes, goal, has =>
    has = true ∧ (∃ message, may message ∧ bytes = message.bytes) ∧ ∀ reply, goal reply true
  | .closeWriter, goal, has => has = true ∧ goal () true
  | _, goal, has => has = false ∧ ∀ reply, goal reply false

/-- Some work that does nothing else while it has the stream. -/
def Plan.Brisk {α : Type} (may : Outgoing → Prop) (work : Work α) (has : Bool) : Prop :=
  work.Meets (Brisk.rule may) (fun _ has => has = false) has

variable {may : Outgoing → Prop}

theorem Brisk.rule_monotone : (Brisk.rule may).Monotone := by
  intro d goal goal' weaker has h
  cases d with
  | enterWriter => exact ⟨h.1, weaker _ _ h.2⟩
  | leaveWriter => exact ⟨h.1, weaker _ _ h.2⟩
  | write bytes => exact ⟨h.1, h.2.1, fun reply => weaker _ _ (h.2.2 reply)⟩
  | closeWriter => exact ⟨h.1, weaker _ _ h.2⟩
  | _ => exact ⟨h.1, fun reply => weaker _ _ (h.2 reply)⟩

theorem Attempt.brisk_send {message : Outgoing} (allowed : may message) :
    (send message).run.Brisk may false := by
  refine ⟨rfl, rfl, fun isOpen => ?_⟩
  cases isOpen with
  | true => exact ⟨rfl, ⟨message, allowed, rfl⟩, fun result => ⟨rfl, rfl⟩⟩
  | false => exact ⟨rfl, rfl⟩

theorem Transaction.brisk_task (calls : ∀ message : Outgoing, message.IsCall → may message)
    (transaction : Transaction) : transaction.task.Brisk may false := by
  have sends : ∀ message : Outgoing, message.IsCall → (Attempt.send message).run.Brisk may false :=
    fun message isCall => Attempt.brisk_send (calls message isCall)
  refine (Attempt.closed_outside Brisk.rule_monotone ?_ sends).attempt sends
    ⟨rfl, rfl, rfl, rfl⟩ transaction
  intro d dry goal all
  cases d <;> first | exact dry.elim | exact ⟨rfl, all⟩

/-- Nobody has the stream, or waits for it, and does something else meanwhile. -/
theorem Plan.Brisk.stays {α : Type} {d : Deed} {next : d.Reply → Work α} {has : Bool}
    (brisk : (Plan.ask d next).Brisk may has) (enters : d ≠ .enterWriter) (leaves : d ≠ .leaveWriter)
    (reply : d.Reply) : (next reply).Brisk may has := by
  cases d with
  | enterWriter => exact absurd rfl enters
  | leaveWriter => exact absurd rfl leaves
  | write bytes =>
    obtain ⟨rfl, _, goesOn⟩ := brisk
    exact goesOn reply
  | closeWriter =>
    obtain ⟨rfl, goesOn⟩ := brisk
    exact goesOn
  | _ =>
    obtain ⟨rfl, goesOn⟩ := brisk
    exact goesOn reply

/-- Whether someone may write a message: only the reader writes what is not a call. -/
def Holder.May (h : Holder) (message : Outgoing) : Prop := h ≠ Link.readerHolder → message.IsCall

/-- Someone at work who has the stream, waits at its door, or has nothing to do with it. -/
structure Posted (link : Link) (h : Holder) (task : Task) (has : Bool) : Prop where
  brisk : task.Brisk h.May has
  holds : has = true → link.writer.holder = some h
  waits : has = false → link.writer.involves h = true → ∃ next, task = .ask .enterWriter next

/-- Whoever has the stream or waits for it is at work. -/
structure Manned (link : Link) (crew : Holder → Option Task) : Prop where
  lock : link.writer.Sound
  posted : ∀ h task, crew h = some task → ∃ has, Posted link h task has
  manned : ∀ h, link.writer.involves h = true → ∃ task, crew h = some task

namespace Link

variable {link : Link} {m : Moment} {h : Holder}

theorem writer_perform (link : Link) (m : Moment) (h : Holder) {d : Deed} (enters : d ≠ .enterWriter)
    (leaves : d ≠ .leaveWriter) : (link.perform m h d).1.writer = link.writer := by
  cases d with
  | enterWriter => exact absurd rfl enters
  | leaveWriter => exact absurd rfl leaves
  | write bytes =>
    change (link.write bytes).1.writer = _
    unfold write
    split <;> rfl
  | writerOpen | closeWriter => rfl
  | _ => exact (dry_perform link m h (by trivial)).2.1

theorem moves_ask (link : Link) (m : Moment) (h : Holder) {α : Type} (d : Deed)
    (next : d.Reply → Work α) :
    (link.advance m h (.ask d next)).2.2 = true ↔ (link.perform m h d).2.isSome = true ∨
      (link.perform m h d).1.outgoing.length ≠ link.outgoing.length := by
  simp only [advance]
  split
  next eq => simp [eq]
  next eq => simp [eq]

/-- While there is room, a write goes on. -/
theorem write_moves (room : link.outgoing.length < link.room) (bytes : List UInt8) :
    (link.write bytes).2.isSome = true ∨
      (link.write bytes).1.outgoing.length ≠ link.outgoing.length := by
  cases taken : link.taken with
  | false =>
    rw [write_of_lost taken]
    exact .inl rfl
  | true =>
    by_cases fits : (link.unwritten.getD bytes).length ≤ link.room - link.outgoing.length
    · rw [write_whole taken fits]
      exact .inl rfl
    · rw [write_part taken fits]
      refine .inr ?_
      simp only [List.length_append, List.length_take]
      omega

end Link

theorem Posted.inside {link : Link} {h : Holder} {task : Task} (brisk : task.Brisk h.May true)
    (held : link.writer.holder = some h) : Posted link h task true :=
  ⟨brisk, fun _ => held, nofun⟩

theorem Posted.outside {link : Link} {h : Holder} {task : Task} (brisk : task.Brisk h.May false)
    (waits : link.writer.involves h = true → ∃ next, task = .ask .enterWriter next) :
    Posted link h task false :=
  ⟨brisk, nofun, fun _ => waits⟩

theorem Posted.congr {link link' : Link} {h : Holder} {task : Task} {has : Bool}
    (posted : Posted link h task has)
    (holder : link.writer.holder = some h → link'.writer.holder = some h)
    (involves : link'.writer.involves h = true → link.writer.involves h = true) :
    Posted link' h task has :=
  ⟨posted.brisk, fun inside => holder (posted.holds inside),
    fun outside involved => posted.waits outside (involves involved)⟩

theorem Posted.free {link : Link} {h : Holder} {result : Except ServerError Unit} {has : Bool}
    (posted : Posted link h (.done result) has) : ¬ link.writer.involves h = true := by
  intro involved
  obtain ⟨_, eq⟩ := posted.waits posted.brisk involved
  cases eq

namespace Manned

variable {link link' : Link} {crew : Holder → Option Task} {h : Holder} {task : Task}

/-- One of those at work begins, goes on or ends, and the others keep their places. -/
theorem put {task? : Option Task} (manned : Manned link crew) (lock : link'.writer.Sound)
    (holder : ∀ h', h' ≠ h → link.writer.holder = some h' → link'.writer.holder = some h')
    (involves : ∀ h', h' ≠ h → link'.writer.involves h' = true → link.writer.involves h' = true)
    (new : ∀ task, task? = some task → ∃ has, Posted link' h task has)
    (gone : task? = none → ¬ link'.writer.involves h = true) :
    Manned link' (Function.update crew h task?) := by
  refine ⟨lock, fun h' task found => ?_, fun h' involved => ?_⟩
  · by_cases same : h' = h
    · subst same
      rw [Function.update_self] at found
      exact new task found
    · rw [Function.update_of_ne same] at found
      obtain ⟨has, posted⟩ := manned.posted h' task found
      exact ⟨has, posted.congr (holder h' same) (involves h' same)⟩
  · by_cases same : h' = h
    · subst same
      rw [Function.update_self]
      cases some : task? with
      | none => exact absurd involved (gone some)
      | some task => exact ⟨task, rfl⟩
    · rw [Function.update_of_ne same]
      exact manned.manned h' (involves h' same involved)

/-- Nobody enters or leaves the stream. -/
theorem keep {task? : Option Task} (manned : Manned link crew) (writer : link'.writer = link.writer)
    (new : ∀ task, task? = some task → ∃ has, Posted link h task has)
    (gone : task? = none → ¬ link.writer.involves h = true) :
    Manned link' (Function.update crew h task?) := by
  refine manned.put (writer ▸ manned.lock) ?_ ?_ ?_ (writer ▸ gone)
  · exact fun h' _ held => writer ▸ held
  · exact fun h' _ involved => writer ▸ involved
  · intro task some
    obtain ⟨has, posted⟩ := new task some
    exact ⟨has, posted.congr (fun held => writer ▸ held) fun involved => writer ▸ involved⟩

theorem idle (manned : Manned link crew) (none : crew h = none) : ¬ link.writer.involves h = true := by
  intro involved
  obtain ⟨task, some⟩ := manned.manned h involved
  cases none.symm.trans some

theorem begin (manned : Manned link crew) (idle : crew h = none)
    (writer : link'.writer = link.writer) (brisk : task.Brisk h.May false) :
    Manned link' (Function.update crew h (some task)) := by
  refine manned.keep writer (fun task' same => ?_) nofun
  cases same
  exact ⟨false, .outside brisk fun involved => absurd involved (manned.idle idle)⟩

theorem finish {result : Except ServerError Unit} (manned : Manned link crew)
    (under : crew h = some (.done result)) (writer : link'.writer = link.writer) :
    Manned link' (Function.update crew h none) := by
  obtain ⟨_, posted⟩ := manned.posted h _ under
  exact manned.keep writer nofun fun _ => posted.free

theorem advance (manned : Manned link crew) (under : crew h = some task) (m : Moment) :
    Manned (link.advance m h task).1
      (Function.update crew h (some (link.advance m h task).2.1)) := by
  cases task with
  | done result =>
    have same : Function.update crew h (some (.done result)) = crew :=
      under ▸ Function.update_eq_self h crew
    simp only [Link.advance, same]
    exact manned
  | ask d next =>
    obtain ⟨has, posted⟩ := manned.posted h _ under
    obtain ⟨after, work⟩ := Link.advance_ask link m h d next
    rw [after, work]
    -- Only who enters or leaves the stream changes places, and then nobody else does.
    by_cases enters : d = .enterWriter
    · subst enters
      obtain ⟨rfl, goesOn⟩ := posted.brisk
      have others : ∀ h', h' ≠ h → (link.writer.request h).involves h' = true →
          link.writer.involves h' = true := fun h' ne involved =>
        ((Lock.involves_request ..).mp involved).resolve_right ne
      refine manned.put (manned.lock.request h)
        (fun h' _ held => Lock.holder_request_of_some held h) others ?_ (by simp)
      rintro task ⟨⟩
      simp only [Link.perform]
      by_cases mine : (link.writer.request h).holder = some h
      · rw [if_pos mine]
        exact ⟨true, .inside goesOn mine⟩
      · rw [if_neg mine]
        exact ⟨false, .outside ⟨rfl, goesOn⟩ fun _ => ⟨next, rfl⟩⟩
    by_cases leaves : d = .leaveWriter
    · subst leaves
      obtain ⟨rfl, goesOn⟩ := posted.brisk
      have left := manned.lock.involves_withdraw h
      refine manned.put (manned.lock.withdraw h)
        (fun h' ne held => Lock.holder_withdraw_of_ne held ne)
        (fun h' _ involved => ((left h').mp involved).1) ?_ (by simp)
      rintro task ⟨⟩
      exact ⟨false, .outside goesOn fun involved => absurd rfl ((left h).mp involved).2⟩
    refine manned.keep (Link.writer_perform link m h enters leaves) ?_ (by simp)
    rintro task ⟨⟩
    cases (link.perform m h d).2 with
    | none => exact ⟨has, posted⟩
    | some reply =>
      refine ⟨has, posted.brisk.stays enters leaves reply, posted.holds, fun outside involved => ?_⟩
      obtain ⟨_, eq⟩ := posted.waits outside involved
      cases eq
      exact absurd rfl enters

theorem abandon (manned : Manned link crew) :
    Manned (link.abandon h) (Function.update crew h none) := by
  have left := manned.lock.involves_withdraw h
  exact manned.put (manned.lock.withdraw h) (fun h' ne held => Lock.holder_withdraw_of_ne held ne)
    (fun h' _ involved => ((left h').mp involved).1) nofun
    fun _ involved => ((left h).mp involved).2 rfl

theorem read (manned : Manned link crew) (mine : crew Link.readerHolder = link.reader.task?)
    (m : Moment) :
    Manned (link.readerStep m).1
      (Function.update crew Link.readerHolder (link.readerStep m).1.reader.task?) := by
  have reads := Link.reads_readerStep link m
  generalize (link.readerStep m).1 = after at reads ⊢
  cases reads with
  | listens silent listens =>
    rw [silent] at mine
    cases answers : after.reader.task? with
    | none => exact manned.keep listens.writer nofun fun _ => manned.idle mine
    | some task =>
      obtain ⟨message, rfl⟩ := listens.answers task answers
      exact manned.begin mine listens.writer (Attempt.brisk_send fun other => absurd rfl other)
  | ends reader =>
    rw [reader] at mine
    exact manned.finish mine rfl
  | answers reader =>
    rw [reader] at mine
    obtain ⟨lock, posted, manned⟩ := manned.advance mine m
    refine ⟨lock, fun h task found => ?_, manned⟩
    obtain ⟨has, posted⟩ := posted h task found
    exact ⟨has, posted.brisk, posted.holds, posted.waits⟩

/-- Whoever has the stream goes on, as long as there is room. -/
theorem moves (manned : Manned link crew) (held : link.writer.holder = some h)
    (room : link.outgoing.length < link.room) :
    ∃ task, crew h = some task ∧ ∀ m, (link.advance m h task).2.2 = true := by
  have involved : link.writer.involves h = true := Lock.involves_iff.mpr (.inl held)
  obtain ⟨task, under⟩ := manned.manned h involved
  refine ⟨task, under, fun m => ?_⟩
  obtain ⟨has, posted⟩ := manned.posted h task under
  cases task with
  | done result => exact absurd involved posted.free
  | ask d next =>
    rw [Link.moves_ask]
    cases has with
    | false =>
      -- The stream was handed on to one who waits and has not noticed yet.
      obtain ⟨_, eq⟩ := posted.waits rfl involved
      cases eq
      simp [Link.perform, Lock.request, involved, held]
    | true =>
      cases d with
      | leaveWriter | writerOpen | closeWriter => exact .inl rfl
      | write bytes => exact Link.write_moves room bytes
      | _ => cases posted.brisk.1

end Manned

namespace Wire

variable {w w' : Wire} {part : List UInt8}

theorem Sound.manned_step (sound : w.Sound part) (manned : Manned w.link w.crew) (step : Step w w') :
    Manned w'.link w'.crew := by
  cases step with
  | @begin h other idle transaction =>
    rw [crew_put w other]
    refine manned.begin ((crew_of_ne other).trans idle) rfl ?_
    exact transaction.brisk_task fun message isCall _ => isCall
  | @advance h task under m =>
    have ne := sound.ne_reader under
    rw [Wire.advance, crew_put _ ne, crew_go (Link.reader_advance ..)]
    exact manned.advance ((crew_of_ne ne).trans under) m
  | @finish h result under =>
    have ne := sound.ne_reader under
    rw [crew_put w ne]
    exact manned.finish ((crew_of_ne ne).trans under) rfl
  | @drop h task under =>
    have ne := sound.ne_reader under
    rw [crew_put _ ne, crew_go (show (w.link.abandon h).reader = w.link.reader from rfl)]
    exact manned.abandon
  | read m =>
    rw [crew_read]
    exact manned.read w.crew_reader m
  | @other link same =>
    have crew : ({ w with link := link } : Wire).crew = w.crew := crew_go (w := w) same.reader
    rw [crew]
    refine ⟨same.writer ▸ manned.lock, fun h task found => ?_, same.writer ▸ manned.manned⟩
    obtain ⟨has, posted⟩ := manned.posted h task found
    exact ⟨has, posted.congr (fun held => same.writer ▸ held) fun involved => same.writer ▸ involved⟩

/-- Whatever calls are made and dropped, and whatever the server does. -/
theorem manned_of_run {room : Nat} (run : w.Run room) : Manned w.link w.crew := by
  induction run with
  | refl =>
    refine ⟨Lock.sound_free, fun h task found => ?_, fun h involved => ?_⟩
    · have none : (fresh room).crew = fun _ => none := Function.update_eq_self _ _
      rw [none] at found
      cases found
    · cases involved
  | tail run step ih =>
    obtain ⟨part, sound⟩ := Sound.of_run run
    exact sound.manned_step ih step

end Wire

end CodeIntel
