import CodeIntel.Proofs.Link.Table
import CodeIntel.Proofs.Wire.Basic

namespace CodeIntel

namespace Lock

theorem holder_request_of_some {l : Lock} {x : Holder} (held : l.holder = some x) (h : Holder) :
    (l.request h).holder = some x := by
  unfold request
  split
  · exact held
  · rw [held]

theorem holder_withdraw_of_ne {l : Lock} {x h : Holder} (held : l.holder = some x) (ne : x ≠ h) :
    (l.withdraw h).holder = some x := by
  unfold withdraw
  rw [if_neg fun same => ne (Option.some.inj (held.symm.trans same))]
  exact held

end Lock

/-- What was written is made of so many pieces, with as many fronts as told, and then this part. -/
def Accounts (written : List UInt8) (cuts : Nat) (part : List UInt8) : Prop :=
  ∃ pieces : List Piece, written = pieces.flatMap Piece.bytes ++ part ∧
    pieces.countP Piece.isFront = cuts

/-- What a step may do to the message at hand, of which a part is written: it writes more of it, or
the rest of it, or gives it up. Of a message that is written to its end it is told last. -/
inductive Effect (part : List UInt8) :
    List UInt8 → Bool → List UInt8 → List (List UInt8) → Prop
  | more (bytes : List UInt8) : Effect part bytes false (part ++ bytes) []
  | ends {message : Outgoing} {bytes : List UInt8} (whole : part ++ bytes = message.bytes) :
      Effect part bytes false [] [message.bytes]
  | cut {message : Outgoing} (short : part <+: message.bytes) (ne : part ≠ message.bytes) :
      Effect part [] true [] []

theorem Effect.flatten {part bytes part' : List UInt8} {sent : List (List UInt8)}
    (effect : Effect part bytes false part' sent) : part ++ bytes = sent.flatten ++ part' := by
  cases effect with
  | more bytes => rfl
  | ends whole => simp [whole]

theorem Accounts.effect {written bytes part part' : List UInt8} {cuts : Nat} {cut : Bool}
    {sent : List (List UInt8)} (accounts : Accounts written cuts part)
    (effect : Effect part bytes cut part' sent) :
    Accounts (written ++ bytes) (cuts + cut.toNat) part' := by
  obtain ⟨pieces, rfl, rfl⟩ := accounts
  cases effect with
  | more bytes => exact ⟨pieces, by simp, rfl⟩
  | @ends message bytes whole =>
    refine ⟨pieces ++ [.whole message], ?_, by simp [Piece.isFront]⟩
    simp [Piece.bytes, ← whole]
  | @cut message short ne =>
    exact ⟨pieces ++ [.front message part short ne], by simp [Piece.bytes], by simp [Piece.isFront]⟩

/-- All who are at work write whole messages, and alone; of the message at hand this part is
written. -/
structure Keeps (link : Link) (crew : Holder → Option Task) (part : List UInt8) : Prop where
  orderly : ∀ h task, crew h = some task →
    ∃ has, task.Orderly has ∧ (has = true → link.writer.holder = some h)
  idle : link.unwritten = none → part = []
  busy : ∀ rest, link.unwritten = some rest → rest ≠ [] ∧ ∃ h message next,
    link.writer.holder = some h ∧ crew h = some (.ask (.write (Outgoing.bytes message)) next) ∧
      part ++ rest = message.bytes

namespace Link

variable {link link' : Link} {m : Moment} {self : Holder}

theorem givesUp_of_same (same : link'.unwritten = link.unwritten) : link.givesUp link' = false := by
  unfold givesUp
  rw [same]
  cases link.unwritten <;> rfl

theorem dry_perform (link : Link) (m : Moment) (self : Holder) {d : Deed} (dry : d.IsDry) :
    (link.perform m self d).1.outgoing = link.outgoing ∧
      (link.perform m self d).1.writer = link.writer ∧
      (link.perform m self d).1.unwritten = link.unwritten := by
  cases d with
  | enterWriter | leaveWriter | writerOpen | write | closeWriter => exact dry.elim
  | await n deadline =>
    rw [perform_await]
    split
    · exact ⟨rfl, rfl, rfl⟩
    · split <;> exact ⟨rfl, rfl, rfl⟩
  | update seen deadline =>
    rw [perform_update]
    split <;> exact ⟨rfl, rfl, rfl⟩
  | _ => exact ⟨rfl, rfl, rfl⟩

theorem readerSends_eq (link : Link) :
    link.readerSends = (link.reader.task?.map link.sends).getD [] := by
  unfold readerSends
  cases link.reader <;> rfl

theorem write_of_lost (lost : link.taken = false) (bytes : List UInt8) :
    link.write bytes = ({ link with unwritten := none }, some (.error brokenPipe)) := by
  simp [write, lost]

theorem write_whole {bytes : List UInt8} (taken : link.taken = true)
    (fits : (link.unwritten.getD bytes).length ≤ link.room - link.outgoing.length) :
    link.write bytes =
      ({ link with
        outgoing := link.outgoing ++ link.unwritten.getD bytes
        unwritten := none }, some (.ok ())) := by
  simp [write, push, taken, fits, List.take_of_length_le fits]

theorem write_part {bytes : List UInt8} (taken : link.taken = true)
    (long : ¬ (link.unwritten.getD bytes).length ≤ link.room - link.outgoing.length) :
    link.write bytes =
      ({ link with
        outgoing := link.outgoing ++
          (link.unwritten.getD bytes).take (link.room - link.outgoing.length)
        unwritten := some ((link.unwritten.getD bytes).drop (link.room - link.outgoing.length)) },
      none) := by
  simp [write, push, taken, long]

end Link

/-- What a step of someone at work does: it keeps the order, and of the bytes that are written then
and of a message that is given up there is an account. While the server takes what is sent, nothing
is given up. -/
structure Goes (link link' : Link) (crew : Holder → Option Task) (part : List UInt8)
    (sent : List (List UInt8)) : Prop where
  keeps : ∃ part', Keeps link' crew part' ∧
    Effect part (link'.outgoing.drop link.outgoing.length) (link.givesUp link') part' sent
  taken : link.taken = true → link.givesUp link' = false

namespace Keeps

variable {link link' : Link} {crew : Holder → Option Task} {part : List UInt8} {h : Holder}
  {task : Task} {has : Bool}

theorem quiet (keeps : Keeps link' crew part) (unwritten : link'.unwritten = link.unwritten)
    (outgoing : link'.outgoing = link.outgoing) : Goes link link' crew part [] := by
  have same := Link.givesUp_of_same unwritten
  refine ⟨⟨part, keeps, ?_⟩, fun _ => same⟩
  rw [same, outgoing, List.drop_length]
  have more : Effect part [] false (part ++ []) [] := .more []
  rwa [List.append_nil] at more

/-- One of those at work begins, goes on or ends, and the others do not lose the stream. -/
theorem put {task? : Option Task} {part' : List UInt8} (keeps : Keeps link crew part)
    (others : ∀ h', h' ≠ h → link.writer.holder = some h' → link'.writer.holder = some h')
    (new : ∀ task, task? = some task →
      ∃ has, task.Orderly has ∧ (has = true → link'.writer.holder = some h))
    (idle : link'.unwritten = none → part' = [])
    (busy : ∀ rest, link'.unwritten = some rest → rest ≠ [] ∧ ∃ h' message next,
      link'.writer.holder = some h' ∧
      Function.update crew h task? h' = some (.ask (.write (Outgoing.bytes message)) next) ∧
      part' ++ rest = message.bytes) :
    Keeps link' (Function.update crew h task?) part' := by
  refine ⟨fun h' task found => ?_, idle, busy⟩
  by_cases same : h' = h
  · subst same
    rw [Function.update_self] at found
    exact new task found
  · rw [Function.update_of_ne same] at found
    obtain ⟨has', orderly', holds'⟩ := keeps.orderly h' task found
    exact ⟨has', orderly', fun inside => others h' same (holds' inside)⟩

/-- Someone who does not write begins, goes on or ends. -/
theorem aside {task? : Option Task} (keeps : Keeps link crew part)
    (other : ∀ bytes next, crew h ≠ some (.ask (.write bytes) next))
    (unwritten : link'.unwritten = link.unwritten)
    (others : ∀ h', h' ≠ h → link.writer.holder = some h' → link'.writer.holder = some h')
    (new : ∀ task, task? = some task →
      ∃ has, task.Orderly has ∧ (has = true → link'.writer.holder = some h)) :
    Keeps link' (Function.update crew h task?) part := by
  refine keeps.put others new (unwritten ▸ keeps.idle) fun rest left => ?_
  obtain ⟨nonempty, h₀, message, next, held, writes, split⟩ := keeps.busy rest (unwritten ▸ left)
  have ne : h₀ ≠ h := by
    rintro rfl
    exact other _ _ writes
  exact ⟨nonempty, h₀, message, next, others h₀ ne held,
    (Function.update_of_ne ne _ _).trans writes, split⟩

/-- Someone begins. -/
theorem begin (keeps : Keeps link crew part) (idle : crew h = none) (orderly : task.Orderly false) :
    Keeps link (Function.update crew h (some task)) part := by
  refine keeps.aside (fun _ _ writes => nomatch idle.symm.trans writes) rfl (fun _ _ held => held) ?_
  rintro task ⟨⟩
  exact ⟨false, orderly, nofun⟩

theorem finish {result : Except ServerError Unit} (keeps : Keeps link crew part)
    (under : crew h = some (.done result)) : Keeps link (Function.update crew h none) part :=
  keeps.aside (fun _ _ writes => nomatch under.symm.trans writes) rfl (fun _ _ held => held) nofun

/-- Nobody on this side does anything to the stream. -/
theorem congr (keeps : Keeps link crew part) (writer : link'.writer = link.writer)
    (unwritten : link'.unwritten = link.unwritten) : Keeps link' crew part :=
  ⟨writer ▸ keeps.orderly, unwritten ▸ keeps.idle, writer ▸ unwritten ▸ keeps.busy⟩

/-- Who has the stream and does something else than to write has written all. -/
theorem unwritten_none (keeps : Keeps link crew part) (under : crew h = some task)
    (other : ∀ bytes next, task ≠ .ask (.write bytes) next)
    (held : link.writer.holder = some h) : link.unwritten = none := by
  cases left : link.unwritten with
  | none => rfl
  | some rest =>
    obtain ⟨_, h₀, message, next, held', writes, _⟩ := keeps.busy rest left
    cases held.symm.trans held'
    exact absurd (Option.some.inj (under.symm.trans writes)) (other _ _)

/-- Of the message that someone writes, all but this part is left. -/
theorem part_append {message : Outgoing} {next : Except ServerError Unit → Task}
    (keeps : Keeps link crew part) (under : crew h = some (.ask (.write message.bytes) next))
    (held : link.writer.holder = some h) :
    part ++ link.unwritten.getD message.bytes = message.bytes ∧
      ∀ rest, link.unwritten = some rest → rest ≠ [] := by
  cases left : link.unwritten with
  | none => exact ⟨by rw [keeps.idle left]; rfl, nofun⟩
  | some rest =>
    obtain ⟨nonempty, h₀, message', next', held', writes, split⟩ := keeps.busy rest left
    cases held.symm.trans held'
    have same : message.bytes = message'.bytes := by
      injection Option.some.inj (under.symm.trans writes) with deed
      injection deed
    refine ⟨split.trans same.symm, fun rest' eq => ?_⟩
    cases eq
    exact nonempty

theorem write {message : Outgoing} {next : Except ServerError Unit → Task}
    (keeps : Keeps link crew part) (under : crew h = some (.ask (.write message.bytes) next))
    (held : link.writer.holder = some h) (goesOn : ∀ reply, (next reply).Orderly true) :
    Goes link (link.write message.bytes).1 (Function.update crew h
      (some (((link.write message.bytes).2.map next).getD (.ask (.write message.bytes) next))))
      part (link.sends (.ask (.write message.bytes) next)) := by
  rw [Link.sends_write]
  obtain ⟨split, nonempty⟩ := keeps.part_append under held
  have goesOn' : ∀ reply, ∃ has, (next reply).Orderly has ∧
      (has = true → link.writer.holder = some h) := fun reply => ⟨true, goesOn reply, fun _ => held⟩
  cases taken : link.taken with
  | false =>
    rw [Link.write_of_lost taken]
    refine ⟨⟨[], ?_, ?_⟩, fun still => absurd (taken.symm.trans still) nofun⟩
    · refine keeps.put ?_ (fun _ same => Option.some.inj same ▸ goesOn' _) ?_ ?_
      exacts [fun _ _ held' => held', fun _ => rfl, nofun]
    · simp only [List.drop_length]
      cases left : link.unwritten with
      | none =>
        rw [keeps.idle left, Link.givesUp_of_same left.symm]
        exact .more []
      | some rest =>
        rw [left] at split
        have gone : link.givesUp { link with unwritten := none } = true := by
          simp [Link.givesUp, left]
        rw [gone]
        refine .cut ⟨rest, split⟩ fun whole => nonempty rest left ?_
        simpa [← whole] using split
  | true =>
    by_cases fits : (link.unwritten.getD message.bytes).length ≤ link.room - link.outgoing.length
    · rw [Link.write_whole taken fits]
      have kept : link.givesUp { link with
          outgoing := link.outgoing ++ link.unwritten.getD message.bytes
          unwritten := none } = false := by
        cases left : link.unwritten with
        | none => simp [Link.givesUp, left]
        | some rest => simp [Link.givesUp, left, nonempty rest left]
      refine ⟨⟨[], ?_, ?_⟩, fun _ => kept⟩
      · refine keeps.put ?_ (fun _ same => Option.some.inj same ▸ goesOn' _) ?_ ?_
        exacts [fun _ _ held' => held', fun _ => rfl, nofun]
      · rw [kept, List.drop_left]
        exact .ends split
    · rw [Link.write_part taken fits]
      have kept : ∀ bytes rest, link.givesUp { link with
          outgoing := bytes, unwritten := some rest } = false := by
        intro bytes rest
        simp [Link.givesUp]
      refine ⟨⟨part ++ (link.unwritten.getD message.bytes).take
        (link.room - link.outgoing.length), ?_, ?_⟩, fun _ => kept _ _⟩
      · have waits : (Plan.ask (.write message.bytes) next : Task).Orderly true :=
          ⟨rfl, ⟨message, rfl⟩, goesOn⟩
        refine keeps.put ?_ (fun _ same => Option.some.inj same ▸ ⟨true, waits, fun _ => held⟩) ?_ ?_
        · exact fun _ _ held' => held'
        · nofun
        · rintro rest ⟨⟩
          refine ⟨?_, h, message, next, held, Function.update_self .., ?_⟩
          · simpa using fits
          · rw [List.append_assoc, List.take_append_drop, split]
      · rw [kept, List.drop_left]
        exact .more _

theorem does {task' : Task} (keeps : Keeps link crew part) (under : crew h = some task)
    (other : ∀ bytes next, task ≠ .ask (.write bytes) next)
    (outgoing : link'.outgoing = link.outgoing) (unwritten : link'.unwritten = link.unwritten)
    (others : ∀ h', h' ≠ h → link.writer.holder = some h' → link'.writer.holder = some h')
    (orderly : task'.Orderly has) (holds : has = true → link'.writer.holder = some h) :
    Goes link link' (Function.update crew h (some task')) part [] :=
  have keeps' : Keeps link' (Function.update crew h (some task')) part := by
    refine keeps.aside (fun bytes next writes => ?_) unwritten others fun task same => ?_
    · exact other bytes next (Option.some.inj (under.symm.trans writes))
    · cases same
      exact ⟨has, orderly, holds⟩
  keeps'.quiet unwritten outgoing

theorem dry {d : Deed} {next : d.Reply → Task} (keeps : Keeps link crew part)
    (under : crew h = some (.ask d next)) (dry : d.IsDry)
    (waits : (Plan.ask d next : Task).Orderly has) (goesOn : ∀ reply, (next reply).Orderly has)
    (holds : has = true → link.writer.holder = some h) (m : Moment) :
    Goes link (link.perform m h d).1
      (Function.update crew h (some (((link.perform m h d).2.map next).getD (.ask d next))))
      part [] := by
  obtain ⟨outgoing, writer, unwritten⟩ := Link.dry_perform link m h dry
  have orderly : (((link.perform m h d).2.map next).getD (.ask d next)).Orderly has := by
    cases (link.perform m h d).2 with
    | none => exact waits
    | some reply => exact goesOn reply
  refine keeps.does under ?_ outgoing unwritten ?_ orderly (writer ▸ holds)
  · rintro bytes next' same
    cases same
    exact dry
  · exact fun h' _ held => writer ▸ held

/-- Someone asks for the stream, and has it if nobody else does. -/
theorem enter {next : Unit → Task} (keeps : Keeps link crew part)
    (under : crew h = some (.ask .enterWriter next)) (goesOn : (next ()).Orderly true)
    (m : Moment) :
    Goes link (link.perform m h .enterWriter).1 (Function.update crew h
      (some (((link.perform m h .enterWriter).2.map next).getD (.ask .enterWriter next))))
      part [] := by
  have others : ∀ h', h' ≠ h → link.writer.holder = some h' →
      (link.writer.request h).holder = some h' :=
    fun h' _ held => Lock.holder_request_of_some held h
  simp only [Link.perform]
  by_cases mine : (link.writer.request h).holder = some h
  · rw [if_pos mine]
    exact keeps.does under nofun rfl rfl others goesOn fun _ => mine
  · rw [if_neg mine]
    have waits : (.ask .enterWriter next : Task).Orderly false := ⟨rfl, goesOn⟩
    exact keeps.does under nofun rfl rfl others waits nofun

/-- Whoever leaves the stream has written all. -/
theorem leave {next : Unit → Task} (keeps : Keeps link crew part)
    (under : crew h = some (.ask .leaveWriter next)) (held : link.writer.holder = some h)
    (goesOn : (next ()).Orderly false) :
    Goes link (link.leaveWriter h) (Function.update crew h (some (next ()))) part [] := by
  have unwritten : (link.leaveWriter h).unwritten = link.unwritten := by
    simp [Link.leaveWriter, held, keeps.unwritten_none under nofun held]
  refine keeps.does under nofun rfl unwritten ?_ goesOn nofun
  intro h' ne held'
  exact absurd (Option.some.inj (held'.symm.trans held)) ne

/-- Whoever is at work takes a step. -/
theorem advance (keeps : Keeps link crew part) (under : crew h = some task) (m : Moment) :
    Goes link (link.advance m h task).1 (Function.update crew h (some (link.advance m h task).2.1))
      part (link.sends task) := by
  cases task with
  | done result =>
    have same : Function.update crew h (some (.done result)) = crew :=
      under ▸ Function.update_eq_self h crew
    simp only [Link.advance, same]
    exact keeps.quiet rfl rfl
  | ask d next =>
    obtain ⟨has, orderly, holds⟩ := keeps.orderly h _ under
    obtain ⟨after, work⟩ := Link.advance_ask link m h d next
    rw [after, work]
    cases d with
    | write bytes =>
      obtain ⟨rfl, ⟨message, rfl⟩, goesOn⟩ := orderly
      exact keeps.write under (holds rfl) goesOn
    | enterWriter =>
      obtain ⟨rfl, goesOn⟩ := orderly
      exact keeps.enter under goesOn m
    | leaveWriter =>
      obtain ⟨rfl, goesOn⟩ := orderly
      exact keeps.leave under (holds rfl) goesOn
    | closeWriter =>
      obtain ⟨rfl, goesOn⟩ := orderly
      refine keeps.does under ?_ rfl rfl (fun _ _ held => held) goesOn holds
      rintro _ _ ⟨⟩
    | writerOpen =>
      refine keeps.does under ?_ rfl rfl (fun _ _ held => held) (orderly link.writable) holds
      rintro _ _ ⟨⟩
    | _ => exact keeps.dry under trivial orderly orderly holds m

/-- Someone at work is dropped, and gives up the message at hand if it is his. -/
theorem abandon (keeps : Keeps link crew part) :
    ∃ part', Keeps (link.abandon h) (Function.update crew h none) part' ∧
      Effect part [] (link.givesUp (link.abandon h)) part' [] ∧
      (link.givesUp (link.abandon h) = true →
        ∃ message next, crew h = some (.ask (.write (Outgoing.bytes message)) next)) := by
  by_cases mine : link.writer.holder = some h
  · have gone : (link.abandon h).unwritten = none := by
      simp [Link.abandon, Link.leaveWriter, mine]
    have kept : Keeps (link.abandon h) (Function.update crew h none) [] := by
      refine keeps.put ?_ nofun (fun _ => rfl) fun rest left => ?_
      · exact fun h' ne held => absurd (Option.some.inj (held.symm.trans mine)) ne
      · cases gone.symm.trans left
    cases left : link.unwritten with
    | none =>
      have same := Link.givesUp_of_same (gone.trans left.symm)
      refine ⟨[], kept, ?_, fun gives => absurd (same.symm.trans gives) nofun⟩
      rw [same, keeps.idle left]
      exact .more []
    | some rest =>
      obtain ⟨nonempty, h₀, message, next, held, writes, split⟩ := keeps.busy rest left
      cases held.symm.trans mine
      have gives : link.givesUp (link.abandon h) = true := by
        simp [Link.givesUp, left, mine, Link.abandon, Link.leaveWriter]
      refine ⟨[], kept, ?_, fun _ => ⟨message, next, writes⟩⟩
      rw [gives]
      refine .cut ⟨rest, split⟩ fun whole => nonempty ?_
      simpa [← whole] using split
  · have unwritten : (link.abandon h).unwritten = link.unwritten := by
      simp [Link.abandon, Link.leaveWriter, mine]
    have others : ∀ h', h' ≠ h → link.writer.holder = some h' →
        (link.abandon h).writer.holder = some h' :=
      fun h' ne held => Lock.holder_withdraw_of_ne held ne
    have same := Link.givesUp_of_same unwritten
    refine ⟨part, ?_, ?_, fun gives => absurd (same.symm.trans gives) nofun⟩
    · refine keeps.put others nofun (unwritten ▸ keeps.idle) fun rest left => ?_
      obtain ⟨nonempty, h₀, message, next, held, writes, split⟩ :=
        keeps.busy rest (unwritten ▸ left)
      have ne : h₀ ≠ h := fun eq => mine (eq ▸ held)
      exact ⟨nonempty, h₀, message, next, others h₀ ne held,
        (Function.update_of_ne ne _ _).trans writes, split⟩
    · have more : Effect part [] false (part ++ []) [] := .more []
      rwa [List.append_nil, ← same] at more

end Keeps

namespace Link

variable {link : Link} {m : Moment}

/-- Nothing is done to the stream to the server, and the reader begins to answer at the most. -/
structure Listens (link link' : Link) : Prop where
  outgoing : link'.outgoing = link.outgoing
  writer : link'.writer = link.writer
  unwritten : link'.unwritten = link.unwritten
  answers : ∀ task, link'.reader.task? = some task →
    ∃ message : Outgoing, task = (Attempt.send message).run

theorem listens_receive (link : Link) (reading : link.reader.task? = none) (message : Incoming) :
    Listens link (link.receive message) := by
  have silent : ∀ task, link.reader.task? = some task →
      ∃ message : Outgoing, task = (Attempt.send message).run :=
    fun task some => by cases reading.symm.trans some
  cases message with
  | answer id answer =>
    by_cases isNumber : ∃ n : Nat, id = .nat n
    · obtain ⟨n, rfl⟩ := isNumber
      rw [receive_answer_nat, deliver]
      split <;> exact ⟨rfl, rfl, rfl, silent⟩
    · rw [receive_answer_other link answer fun n same => isNumber ⟨n, same⟩]
      exact ⟨rfl, rfl, rfl, silent⟩
  | request id method params =>
    refine ⟨rfl, rfl, rfl, ?_⟩
    rintro task ⟨⟩
    exact ⟨_, rfl⟩
  | notification method params => exact ⟨rfl, rfl, rfl, silent⟩

theorem listens_readerStep (reading : link.reader.task? = none) (m : Moment) :
    Listens link (link.readerStep m).1 := by
  unfold readerStep
  cases reader : link.reader with
  | replying work =>
    rw [reader] at reading
    cases reading
  | ended => exact ⟨rfl, rfl, rfl, fun task some => by cases reading.symm.trans some⟩
  | reading =>
    simp only
    split
    · exact ⟨rfl, rfl, rfl, fun task some => by cases reading.symm.trans some⟩
    · exact ⟨rfl, rfl, rfl, nofun⟩
    · exact ⟨rfl, rfl, rfl, nofun⟩
    next value rest _ =>
      split
      next message _ =>
        obtain ⟨outgoing, writer, unwritten, answers⟩ :=
          listens_receive { link with incoming := rest, reader := .reading } rfl message
        exact ⟨outgoing, writer, unwritten, answers⟩
      next => exact ⟨rfl, rfl, rfl, nofun⟩

/-- What the reader does in a step: it listens, or its answer is over, or goes on. -/
inductive Reads (link : Link) (m : Moment) : Link → Prop
  | listens {link' : Link} (silent : link.reader.task? = none) (listens : Listens link link') :
      Reads link m link'
  | ends {result : Except ServerError Unit} (reader : link.reader = .replying (.done result)) :
      Reads link m { link with reader := .reading }
  | answers {d : Deed} {next : d.Reply → Task} (reader : link.reader = .replying (.ask d next)) :
      Reads link m { (link.advance m readerHolder (.ask d next)).1 with
        reader := .replying (link.advance m readerHolder (.ask d next)).2.1 }

theorem readerStep_done {result : Except ServerError Unit}
    (reader : link.reader = .replying (.done result)) (m : Moment) :
    link.readerStep m = ({ link with reader := .reading }, true) := by
  unfold readerStep
  rw [reader]

theorem readerStep_ask {d : Deed} {next : d.Reply → Task}
    (reader : link.reader = .replying (.ask d next)) (m : Moment) :
    link.readerStep m =
      ({ (link.advance m readerHolder (.ask d next)).1 with
        reader := .replying (link.advance m readerHolder (.ask d next)).2.1 },
      (link.advance m readerHolder (.ask d next)).2.2) := by
  unfold readerStep
  rw [reader]

theorem reads_readerStep (link : Link) (m : Moment) : Reads link m (link.readerStep m).1 := by
  cases reader : link.reader with
  | reading | ended =>
    have silent : link.reader.task? = none := by rw [reader]; rfl
    exact .listens silent (listens_readerStep silent m)
  | replying work =>
    cases work with
    | done result => exact readerStep_done reader m ▸ .ends reader
    | ask d next => exact readerStep_ask reader m ▸ .answers reader

end Link

/-- The reader takes a step. -/
theorem Keeps.read {link : Link} {crew : Holder → Option Task} {part : List UInt8}
    (keeps : Keeps link crew part) (mine : crew Link.readerHolder = link.reader.task?)
    (m : Moment) :
    Goes link (link.readerStep m).1
      (Function.update crew Link.readerHolder (link.readerStep m).1.reader.task?) part
      link.readerSends := by
  have aside : ∀ link' : Link, (∀ bytes next, link.reader.task? ≠ some (.ask (.write bytes) next)) →
      link'.outgoing = link.outgoing → link'.writer = link.writer →
      link'.unwritten = link.unwritten →
      (∀ task, link'.reader.task? = some task → task.Orderly false) →
      Goes link link' (Function.update crew Link.readerHolder link'.reader.task?) part [] := by
    intro link' other outgoing writer unwritten answers
    refine (keeps.aside (fun bytes next => mine ▸ other bytes next) unwritten
      (fun h' _ held => writer ▸ held) ?_).quiet unwritten outgoing
    exact fun task some => ⟨false, answers task some, nofun⟩
  rw [Link.readerSends_eq]
  have reads := Link.reads_readerStep link m
  generalize (link.readerStep m).1 = after at reads ⊢
  cases reads with
  | listens silent listens =>
    obtain ⟨outgoing, writer, unwritten, answers⟩ := listens
    rw [silent] at aside ⊢
    refine aside _ nofun outgoing writer unwritten fun task some => ?_
    obtain ⟨message, rfl⟩ := answers task some
    exact Attempt.orderly_send message
  | ends reader =>
    rw [reader] at aside ⊢
    exact aside { link with reader := .reading } nofun rfl rfl rfl nofun
  | answers reader =>
    rw [reader] at mine ⊢
    obtain ⟨⟨part', keeps', effect⟩, taken⟩ := keeps.advance mine m
    exact ⟨⟨part', ⟨keeps'.orderly, keeps'.idle, keeps'.busy⟩, effect⟩, taken⟩

theorem Link.reader_advance (link : Link) (m : Moment) (h : Holder) (task : Task) :
    (link.advance m h task).1.reader = link.reader := by
  cases task with
  | done result => rfl
  | ask d next =>
    rw [(advance_ask link m h d next).1]
    cases d with
    | register => rfl
    | forget n => rfl
    | _ => exact (sameTable_perform link m h (by trivial)).2

end CodeIntel
