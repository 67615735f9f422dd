import CodeIntel.Proofs.Sync.Turns

namespace CodeIntel

open EditFile World

variable {file : UsedFile} {client : Client} {w w' w'' : Calls}
  {c : Call (Except ToolError Output)} {order : List Holder}
  {after : Activity (Except ToolError Output)}
  {calls calls' : List (Call (Except ToolError Output))} {link link' : Link}
  {sent sent' : List (List UInt8)} {told : Option String} {D : String → Prop} {s : View}

namespace Converges

/-- Outside queries, steps of calls do not matter to what the server knows. -/
theorem calm (converges : Converges file client D calls s) (turned : Turned calls c after calls')
    (before : ∃ plan, c.activity = .calling plan) (later : ∃ plan, after = .calling plan) :
    Converges file client D calls' s := by
  refine ⟨fun other h gated work aborted serves => ?_, fun calling => converges.between ?_⟩
  · obtain ⟨h, _⟩ | ⟨rfl, _⟩ := (turned.members other).mp h
    · exact converges.under other h gated work aborted serves
    · obtain ⟨plan, eq⟩ := later
      cases eq.symm.trans serves
  · intro other h
    obtain rfl | ne := turned.apart other h
    · exact before
    · exact calling other ((turned.members other).mpr (.inl ⟨h, ne⟩))

/-- What the server knows depends on the one query under way. -/
theorem serving {gated : Bool} {work : Work (CallPlan (Except ToolError Output))}
    {aborted : CallPlan (Except ToolError Output)}
    (turned : Turned calls c (.serving gated work aborted) calls')
    (alone : ∀ other ∈ calls, other.id ≠ c.id → ∃ plan, other.activity = .calling plan)
    (meets : work.Meets (View.rule file.path client.cwd D)
      (fun _ s => s.Agrees file.path client.cwd D) s) : Converges file client D calls' s := by
  refine ⟨fun other h gated' work' aborted' serves => ?_, fun calling => ?_⟩
  · obtain ⟨h, ne⟩ | ⟨rfl, _⟩ := (turned.members other).mp h
    · obtain ⟨plan, eq⟩ := alone other h ne
      cases eq.symm.trans serves
    · cases serves
      exact meets
  · obtain ⟨plan, eq⟩ := calling _ ((turned.members _).mpr (.inr ⟨rfl, fun result => nofun⟩))
    cases eq

theorem leaves {gated : Bool} {plan aborted : CallPlan (Except ToolError Output)}
    (converges : Converges file client D calls s) (turned : Turned calls c (.calling plan) calls')
    (alone : ∀ other ∈ calls, other.id ≠ c.id → ∃ plan, other.activity = .calling plan)
    (activity : c.activity = .serving gated (.done plan) aborted) :
    Converges file client D calls' s := by
  have agrees : s.Agrees file.path client.cwd D :=
    converges.under c turned.mem gated (.done plan) aborted activity
  refine ⟨fun other h gated' work' aborted' serves => ?_, fun _ => agrees⟩
  obtain ⟨h, ne⟩ | ⟨rfl, _⟩ := (turned.members other).mp h
  · obtain ⟨plan', eq⟩ := alone other h ne
    cases eq.symm.trans serves
  · cases serves

theorem start (converges : Converges file client D calls s) (id : Holder) (cancelled : Bool)
    (plan : CallPlan (Except ToolError Output)) :
    Converges file client D (calls ++ [⟨id, cancelled, .calling plan⟩]) s := by
  refine ⟨fun c h gated work aborted serves => ?_, fun calling => converges.between ?_⟩
  · obtain h | h := List.mem_append.mp h
    · exact converges.under c h gated work aborted serves
    · cases List.mem_singleton.mp h
      cases serves
  · exact fun c h => calling c (List.mem_append_left _ h)

end Converges

/-- While a call has the gate, or gets it, no other has a query under way. -/
theorem alone_of_gate (behave : ∀ c ∈ w.calls, Behaves file w c)
    (held : (w.gate.request c.id).holder = some c.id) :
    ∀ other ∈ w.calls, other.id ≠ c.id → ∃ plan, other.activity = .calling plan := by
  intro other h ne
  have gated := (behave other h).gated
  cases activity : other.activity with
  | calling plan => exact ⟨plan, rfl⟩
  | serving =>
    rw [activity] at gated
    have mine := Lock.holder_request gated.2 c.id
    exact absurd (Option.some.inj (mine.symm.trans held)) ne
  | standing =>
    rw [activity] at gated
    exact gated.elim

theorem meets_workOn {q : Query} {next : Except QueryFailure q.Reply → Steps}
    (settles : Settles file.path client.cwd D (client.answer q) s) :
    (workOn client q next).Meets (View.rule file.path client.cwd D)
      (fun _ s => s.Agrees file.path client.cwd D) s := by
  unfold workOn
  rw [Plan.meets_bind]
  exact settles.meets

-- From here on, it does not matter what the work on a query is.
attribute [local irreducible] workOn

namespace Sees

/-- Those that are about to tell of the file stay so if none but one of the calls takes a step. -/
theorem announcing (turned : Turned w.calls c after w''.calls)
    (same : ∀ text, Announces file text c.activity → Announces file text after)
    (h : ∃ c ∈ w.calls, ∃ text, Announces file text c.activity) :
    ∃ c ∈ w''.calls, ∃ text, Announces file text c.activity := by
  obtain ⟨other, h, text, announces⟩ := h
  obtain rfl | ne := turned.apart other h
  · have announces' := same text announces
    exact ⟨_, (turned.members _).mpr (.inr ⟨rfl, announces'.running⟩), text, announces'⟩
  · exact ⟨other, (turned.members other).mpr (.inl ⟨h, ne⟩), text, announces⟩

theorem congr (sees : Sees file client w sent link told) (calls : w'.calls = w.calls)
    (here : w'.files.node? file.place = w.files.node? file.place)
    (works : link'.Works file.path client.cwd) (documents : link'.documents = link.documents)
    (last : LastTold file.path client.cwd sent' told) : Sees file client w' sent' link' told := by
  refine ⟨works, last, ?_, ?_⟩
  · rw [calls, documents]
    exact sees.known
  · rw [calls, documents, UsedFile.holds_congr here]
    exact sees.latest

theorem calm (sees : Sees file client w sent link told) (turned : Turned w.calls c after w''.calls)
    (tidings : Tidings file w w'' c after) (before : ∃ plan, c.activity = .calling plan)
    (later : ∃ plan, after = .calling plan)
    (same : ∀ text, Announces file text c.activity → Announces file text after) :
    Sees file client w'' sent link told := by
  refine ⟨sees.works, sees.last, sees.known.calm turned before later, ?_⟩
  cases tidings with
  | same here =>
    rw [UsedFile.holds_congr here]
    exact sees.latest.imp (announcing turned same) fun latest => latest.calm turned before later
  | changed announces =>
    exact .inl ⟨_, (turned.members _).mpr (.inr ⟨rfl, announces.running⟩), _, announces⟩

/-- A query begins. One that tells of a text tells of what the file holds. -/
theorem enters {q : Query} {next : Except QueryFailure q.Reply → Steps}
    (sees : Sees file client w sent link told)
    (serial : Serial file.shared (fun _ => False) order w)
    (behave : ∀ c ∈ w.calls, Behaves file w c)
    (activity : c.activity = .calling (.ask (.query q) next))
    (held : (w.gate.request c.id).holder = some c.id)
    (turned : Turned w.calls c
      (.serving true (workOn client q next) (next (.error .cancelled))) w''.calls)
    (files : w''.files = w.files) : Sees file client w'' sent link told := by
  have behaves := behave c turned.mem
  have alone := alone_of_gate behave held
  have calling : ∀ other ∈ w.calls, ∃ plan, other.activity = .calling plan := by
    intro other h
    obtain rfl | ne := turned.apart other h
    · exact ⟨_, activity⟩
    · exact alone other h ne
  have agrees := sees.known.between calling
  obtain looks | ⟨text, rfl⟩ := behaves.query serial turned.mem activity
  · have silent : ∀ text, ¬ Announces file text c.activity := by
      rintro text ⟨next, eq⟩
      cases activity.symm.trans eq
      exact looks.elim
    refine ⟨sees.works, sees.last, .serving turned alone (meets_workOn (.answer looks agrees)), ?_⟩
    rw [files]
    refine sees.latest.imp (announcing turned fun text tells => absurd tells (silent text)) ?_
    exact fun latest =>
      .serving turned alone (meets_workOn (.answer looks (latest.between calling)))
  · -- whatever queries before it have read, this text is the last that is sent
    have holds := files ▸ behaves.tells text ⟨next, activity⟩
    exact ⟨sees.works, sees.last, .serving turned alone (meets_workOn (.changed agrees trivial)),
      .inr (.serving turned alone (meets_workOn (.changed agrees holds)))⟩

/-- A query goes on; what it reads of the file is what the file holds. -/
theorem serves {gated : Bool} {work : Work Steps} {aborted : Steps}
    (sees : Sees file client w sent link told)
    (serial : Serial file.shared (fun _ => False) order w)
    (behave : ∀ c ∈ w.calls, Behaves file w c) (activity : c.activity = .serving gated work aborted)
    (turned : Turned w.calls c
      (.serving gated (link.advance w.moment c.id work).2.1 aborted) w''.calls)
    (files : w''.files = w.files) :
    ∃ told', Sees file client w'' (link.sends work ++ sent)
      (link.advance w.moment c.id work).1 told' := by
  have mine := (behave c turned.mem).gated
  rw [activity] at mine
  have alone := alone_of_gate behave (Lock.holder_request mine.2 c.id)
  have known := sees.known.under c turned.mem gated work aborted activity
  obtain ⟨told', last, advances⟩ := Link.advances_of_meets w.moment c.id sees.works
    (fun _ _ => trivial) sees.last known
  refine ⟨told', advances.works, last, .serving turned alone advances.meets, ?_⟩
  rw [files]
  refine sees.latest.imp (announcing turned ?_) fun latest => ?_
  · rintro text ⟨next, eq⟩
    cases activity.symm.trans eq
  · have reads : ∀ text, w.moment.files.readText (w.moment.cwd.join file.path) = .ok text →
        file.Holds w.files text := by
      intro text read
      have here : w.files.readText (Tree.pathOf file.place) = .ok text := by
        rwa [UsedFile.path, Tree.join_pathOf] at read
      obtain ⟨_, content, mode, node, decoded⟩ := Tree.readText_eq_ok serial.plain here
      exact ⟨mode, (utf8Bytes_of_ofUtf8? decoded).symm ▸ node⟩
    have meets := latest.under c turned.mem gated work aborted activity
    obtain ⟨told'', last', advances'⟩ := Link.advances_of_meets w.moment c.id sees.works
      reads sees.last meets
    cases last.unique last'
    exact .serving turned alone advances'.meets

theorem leaves {gated : Bool} {plan aborted : Steps} (sees : Sees file client w sent link told)
    (behave : ∀ c ∈ w.calls, Behaves file w c)
    (activity : c.activity = .serving gated (.done plan) aborted)
    (turned : Turned w.calls c (.calling plan) w''.calls) (files : w''.files = w.files) :
    Sees file client w'' sent link told := by
  have mine := (behave c turned.mem).gated
  rw [activity] at mine
  have alone := alone_of_gate behave (Lock.holder_request mine.2 c.id)
  refine ⟨sees.works, sees.last, sees.known.leaves turned alone activity, ?_⟩
  rw [files]
  refine sees.latest.imp (announcing turned ?_) fun latest => latest.leaves turned alone activity
  rintro text ⟨next, eq⟩
  cases activity.symm.trans eq

/-- One of the calls takes a step. -/
theorem moves (sees : Sees file client w sent link told) (linked : w.backend = .linked client link)
    (serial : Serial file.shared (fun _ => False) order w)
    (behave : ∀ c ∈ w.calls, Behaves file w c) (moves : Moves w c client link w' after)
    (turned : Turned w.calls c after w''.calls) (files : w''.files = w'.files)
    (backend : w''.backend = w'.backend) :
    ∃ link' told', w''.backend = .linked client link' ∧
      Sees file client w'' (c.activity.sends link ++ sent) link' told' := by
  have tidings' := tidings_of_moves (behave c turned.mem) serial turned.mem moves
  have tidings : Tidings file w w'' c after := by
    cases tidings' with
    | same here silent => exact .same (files ▸ here) silent
    | changed announces holds held => exact .changed announces (files ▸ holds) held
  cases moves with
  | ended activity =>
    refine ⟨link, told, backend.trans linked, ?_⟩
    rw [activity]
    exact sees.calm turned tidings ⟨_, activity⟩ ⟨_, rfl⟩ fun text => activity ▸ id
  | asks activity other gate same replied =>
    refine ⟨link, told, (backend.trans same).trans linked, ?_⟩
    have later : ∃ plan, after = .calling plan := by
      obtain ⟨rfl, _⟩ | ⟨reply, rfl, _⟩ := replied <;> exact ⟨_, rfl⟩
    rw [activity]
    refine sees.calm turned tidings ⟨_, activity⟩ later ?_
    rintro text ⟨next, eq⟩
    cases activity.symm.trans eq
    exact absurd rfl (other _)
  | waits activity =>
    refine ⟨link, told, backend.trans linked, ?_⟩
    rw [activity]
    exact sees.calm turned tidings ⟨_, activity⟩ ⟨_, rfl⟩ fun text => activity ▸ id
  | enters activity held =>
    refine ⟨link, told, backend.trans linked, ?_⟩
    rw [activity]
    exact sees.enters serial behave activity held turned files
  | works activity =>
    obtain ⟨told', sees'⟩ := sees.serves serial behave activity turned files
    rw [activity]
    exact ⟨_, told', backend, sees'⟩
  | @leaves gated plan aborted activity =>
    have same : (w.leaveGate gated c.id).backend = w.backend := by
      unfold leaveGate
      split <;> rfl
    refine ⟨link, told, (backend.trans same).trans linked, ?_⟩
    rw [activity]
    exact sees.leaves behave activity turned (files.trans (quiet_leaveGate w gated c.id).files)

end Sees

end CodeIntel

namespace CodeIntel

open EditFile World

variable {file : UsedFile} {client : Client} {w w' : Calls} {c : Call (Except ToolError Output)}
  {use : Use} {order : List Holder} {after : Activity (Except ToolError Output)} {link link' : Link}
  {sent sent' : List (List UInt8)} {told : Option String} {t t' : Talk}

namespace Synced

theorem call (synced : Synced file client t) (id : Holder) (abortFirst : Bool) :
    Synced file client ⟨(t.calls.step abortFirst id).1, t.sends id ++ t.sent⟩ := by
  obtain ⟨⟨order, serial⟩, behave, link, told, linked, sees⟩ := synced
  cases found : t.calls.call? id with
  | none =>
    have silent : t.sends id = [] := by simp [Talk.sends, linked, found]
    rw [step_of_none found, silent]
    exact ⟨⟨order, serial⟩, behave, link, told, linked, sees⟩
  | some c =>
    obtain ⟨mem, rfl⟩ := mem_of_call? found
    have behaves := behave c mem
    obtain ⟨use, own, _⟩ := behaves.used
    have alone : ∀ gated wake q next, c.activity ≠ .standing gated wake q next := by
      intro gated wake q next activity
      have stands := behaves.gated
      rw [activity] at stands
      exact stands
    have moves := moves_stepActivity linked behaves.going alone abortFirst
    have frame := frame_stepActivity t.calls abortFirst c
    have turned : Turned t.calls.calls c (t.calls.stepActivity abortFirst c).2.1
        (t.calls.step abortFirst c.id).1.calls := by
      rw [step_of_call? found, ← frame.calls]
      exact turned_settleCall (frame.calls ▸ serial.ids) (frame.calls ▸ mem)
    have files : (t.calls.step abortFirst c.id).1.files =
        (t.calls.stepActivity abortFirst c).1.files := by
      rw [step_of_call? found, files_settleCall]
    have gate : (t.calls.step abortFirst c.id).1.gate =
        (t.calls.stepActivity abortFirst c).1.gate := by
      rw [step_of_call? found, gate_settleCall]
    have backend : (t.calls.step abortFirst c.id).1.backend =
        (t.calls.stepActivity abortFirst c).1.backend := by
      rw [step_of_call? found, backend_settleCall]
    have sends : t.sends c.id = c.activity.sends link := by simp [Talk.sends, linked, found]
    refine ⟨?_, behaves_of_moves serial behave turned moves files gate,
      sends ▸ sees.moves linked serial behave moves turned files backend⟩
    by_cases edits : use.tool = .edit
    · have hj := UsedFile.jobs_of_edit own edits
      refine serial.edit (Option.isSome_iff_exists.mpr ⟨_, hj⟩) (fun c' found' => ?_) abortFirst
      cases found.symm.trans found'
      exact UsedFile.names own edits (serial.doing c mem nofun _ hj)
    · have same := files_of_moves behaves own edits moves
      exact ⟨order, serial.other (UsedFile.jobs_of_look own edits) abortFirst
        (.of_eq (files.trans same))⟩

theorem part {p : Path} {text : String} {next : Except FileError Unit → Steps} {part : List UInt8}
    {files : Tree} (synced : Synced file client t) (mem : c ∈ t.calls.calls)
    (activity : c.activity = .calling (.ask (.write p text) next))
    (written : t.calls.files.write (t.calls.cwd.join p) part = .ok files) :
    Synced file client ⟨{ t.calls with files := files }, t.sent⟩ := by
  obtain ⟨⟨order, serial⟩, behave, link, told, linked, sees⟩ := synced
  obtain ⟨use, own, looks⟩ := (behave c mem).used
  have edits : use.tool = .edit := by
    by_contra other
    have asks := looks other
    rw [activity] at asks
    exact asks.1
  have hj := UsedFile.jobs_of_edit own edits
  have here := serial.part_here mem hj activity written
  exact ⟨serial.part mem hj activity written, behaves_congr behave rfl rfl here, link, told, linked,
    sees.congr rfl here sees.works rfl sees.last⟩

theorem start (synced : Synced file client t) (own : file.uses (t.calls.lastCall + 1) = some use) :
    Synced file client ⟨(t.calls.start (.calling use.steps) false).1, t.sent⟩ := by
  obtain ⟨⟨order, serial⟩, behave, link, told, linked, sees⟩ := synced
  refine ⟨⟨order, serial.start _ _ fun job hj => ?_⟩, fun c h => ?_, link, told, linked,
    sees.works, sees.last, sees.known.start _ _ _, ?_⟩
  · by_cases edits : use.tool = .edit
    · have hj' : file.shared.jobs (t.calls.lastCall + 1) = some ⟨use.caller, use.json⟩ := by
        simp [UsedFile.shared, own, Use.job?, edits]
      cases hj.symm.trans hj'
      rw [Use.steps, edits]
      rfl
    · simp [UsedFile.shared, own, Use.job?] at hj
  · obtain h | h := List.mem_append.mp h
    · obtain ⟨going, used, gated, tells⟩ := behave c h
      exact ⟨going, used, gated, tells⟩
    · cases List.mem_singleton.mp h
      exact .begins own rfl rfl
  · refine sees.latest.imp ?_ fun latest => latest.start _ _ _
    rintro ⟨c, h, text, announces⟩
    exact ⟨c, List.mem_append_left _ h, text, announces⟩

theorem read (synced : Synced file client t) (linked : t.calls.backend = .linked client link) :
    Synced file client
      ⟨t.calls.setLink client (link.readerStep t.calls.moment).1, link.readerSends ++ t.sent⟩ := by
  obtain ⟨⟨order, serial⟩, behave, link', told, linked', sees⟩ := synced
  cases linked.symm.trans linked'
  obtain ⟨works, documents⟩ := Link.works_readerStep sees.works t.calls.moment
  have serial' := @Serial.pass file.shared order t.calls t.calls.now t.calls.files
    (.linked client (link.readerStep t.calls.moment).1) serial (.of_eq rfl)
  exact ⟨⟨order, serial'⟩, behaves_congr behave rfl rfl rfl, _, told, rfl,
    sees.congr rfl rfl works documents (Link.lastTold_readerSends sees.works sees.last)⟩

theorem pass (synced : Synced file client t) (linked : t.calls.backend = .linked client link)
    (same : Link.SameDocuments link link') (now : Nat) (files : Tree)
    (undisturbed : Undisturbed file.shared t.calls.files files) :
    Synced file client
      ⟨{ t.calls with now := now, files := files, backend := .linked client link' }, t.sent⟩ := by
  obtain ⟨⟨order, serial⟩, behave, link₀, told, linked', sees⟩ := synced
  cases linked.symm.trans linked'
  have here := undisturbed.here
  exact ⟨⟨order, serial.pass undisturbed⟩, behaves_congr behave rfl rfl here, link', told, rfl,
    sees.congr rfl here (sees.works.congr same) same.documents sees.last⟩

theorem step (synced : Synced file client t) (step : Talk.Step file client t t') :
    Synced file client t' := by
  cases step with
  | call id abortFirst => exact synced.call id abortFirst
  | part mem activity isPart written => exact synced.part mem activity written
  | start own => exact synced.start own
  | read linked => exact synced.read linked
  | pass linked same now files undisturbed => exact synced.pass linked same now files undisturbed

theorem of_fresh (fresh : Talk.Fresh file client t) : Synced file client t := by
  obtain ⟨link, linked, works, unknown⟩ := fresh.linked
  have calling : ∀ c ∈ t.calls.calls, ∃ use, file.uses c.id = some use ∧
      c.activity = .calling use.steps := fun c h => (fresh.waiting c h).2
  have agrees (D : String → Prop) :
      Converges file client D t.calls.calls ⟨link.documents.get? file.path, none⟩ := by
    refine ⟨fun c h gated work aborted serves => ?_, fun _ => ⟨?_, nofun, nofun⟩⟩
    · obtain ⟨use, _, activity⟩ := calling c h
      cases activity.symm.trans serves
    · rw [unknown]
      rfl
  refine ⟨⟨[], fresh.toGathered.serial⟩, fun c h => ?_, link, none, linked, works, ?_, agrees _,
    .inr (agrees _)⟩
  · obtain ⟨use, own, activity⟩ := calling c h
    exact .begins own (fresh.waiting c h).1 activity
  · rw [fresh.unsent]
    exact .nothing

theorem of_steps (fresh : Talk.Fresh file client t)
    (steps : Relation.ReflTransGen (Talk.Step file client) t t') : Synced file client t' := by
  induction steps with
  | refl => exact of_fresh fresh
  | tail _ step ih => exact ih.step step

end Synced

/-- Once all calls have come to their ends, the server was told last what the file holds, if it was
told of the document, as it was if the document is open. -/
theorem server_knows_the_file (fresh : Talk.Fresh file client t)
    (steps : Relation.ReflTransGen (Talk.Step file client) t t') (ended : t'.calls.calls = []) :
    (∀ document, t'.document? file.path = some document →
      LastTold file.path client.cwd t'.sent (some document.text)) ∧
    ∀ text, LastTold file.path client.cwd t'.sent (some text) → file.Holds t'.calls.files text := by
  obtain ⟨_, _, link, told, linked, sees⟩ := Synced.of_steps fresh steps
  have idle : ∀ c ∈ t'.calls.calls, ∃ plan, c.activity = .calling plan := by
    rw [ended]
    exact nofun
  refine ⟨fun document known => ?_, fun text last => ?_⟩
  · have agrees := sees.known.between idle
    have kept : link.documents.get? file.path = some document := by
      rwa [Talk.document?, linked] at known
    have same : told = some document.text :=
      agrees.same.trans (congrArg (Option.map Document.text) kept)
    exact same ▸ sees.last
  · cases last.unique sees.last
    obtain ⟨c, h, _⟩ | latest := sees.latest
    · rw [ended] at h
      cases h
    · exact (latest.between idle).holds text rfl

/-- The calls take steps in this order. -/
def Talk.inTurn (t : Talk) (schedule : List Holder) : Talk :=
  schedule.foldl (fun t id => ⟨(t.calls.step false id).1, t.sends id ++ t.sent⟩) t

theorem steps_inTurn (schedule : List Holder) :
    Relation.ReflTransGen (Talk.Step file client) t (t.inTurn schedule) := by
  induction schedule generalizing t with
  | nil => exact .refl
  | cons id schedule ih => exact .head (.call id false) ih

/-- Whether a call names a file by this path and no other. -/
def namesOnly (p : Path) (use : Use) : Bool :=
  (use.tool.file? use.json).all fun raw =>
    (Path.readings raw use.caller.surroundings).toOption = some (p, none)

theorem names_of_namesOnly {p : Path} (h : namesOnly p use = true) : use.Names p := by
  intro raw given
  rw [namesOnly, given] at h
  exact toOption_eq_some_iff.mp (of_decide_eq_true h)

/-- The diagnostics are asked for while the edit is under way. The server is told of the old text
first and of the new one last. -/
theorem server_knows_the_edited_file :
    let caller : Caller := ⟨⟨.ofString "/", .ofString "/"⟩, 3⟩
    let line : Json := .object
      [("endLine", .nat 1), ("newText", .string "x\n"), ("startLine", .nat 1)]
    let edit : Use := ⟨.edit, caller,
      .object [("edits", .array [line]), ("filePath", .string "/f")]⟩
    let look : Use := ⟨.diagnostics, caller, .object [("filePath", .string "/f"),
      ("includeContext", .bool false), ("showLineNumbers", .bool true)]⟩
    let client : Client :=
      ⟨{ ServerConfig.ofCommand "server" with diagnosticsWaitMs := 0 }, default, .ofString "/"⟩
    let w : Calls := { World.new ⟨[([[0x66]], .file [0x61, 0x0A] 0o600)]⟩ (.ofString "/")
        (.linked client (.fresh 4096)) with
      lastCall := 2
      calls := [⟨1, false, .calling edit.steps⟩, ⟨2, false, .calling look.steps⟩] }
    ∃ (file : UsedFile) (t : Talk), file.uses 1 = some edit ∧ file.uses 2 = some look ∧
      Talk.Fresh file client ⟨w, []⟩ ∧
      Relation.ReflTransGen (Talk.Step file client) ⟨w, []⟩ t ∧ t.calls.calls = [] ∧
      t.sent.length = 2 ∧ LastTold file.path client.cwd t.sent (some "x\n") ∧
      file.Holds t.calls.files "x\n" := by
  intro caller line edit look client w
  let uses (id : Holder) : Option Use :=
    if id = 1 then some edit else if id = 2 then some look else none
  have named : ∀ id use, uses id = some use → use.Names (Tree.pathOf [[0x66]]) := by
    intro id use own
    have mem : use ∈ [edit, look] := by
      simp only [uses] at own
      split at own
      · simp_all
      · split at own <;> simp_all
    have all : ∀ use ∈ [edit, look], namesOnly (Tree.pathOf [[0x66]]) use = true := by
      decide +kernel
    exact names_of_namesOnly (all use mem)
  let file : UsedFile := ⟨[[0x66]], uses, named, [0x61, 0x0A], 0o600⟩
  have proper : Place.Proper [[0x66]] := by decide
  have above : w.files.Above [[0x66]] := by decide
  have leads : (w.files.realPath (Tree.pathOf [[0x66]])).toOption =
      some (Tree.pathOf [[0x66]]) := by
    decide +kernel
  have fresh : Talk.Fresh file client ⟨w, []⟩ := by
    refine ⟨⟨⟨by decide, by decide, nofun⟩, proper, above, rfl, ?_, ?_, ?_, nofun⟩, rfl, ?_,
      _, rfl, ⟨rfl, rfl, trivial⟩, rfl⟩
    · rintro p rfl
      exact toOption_eq_some_iff.mp leads
    · exact fun n _ => Tree.node?_temporaryPlace (by decide)
    · intro c h job hj
      rcases List.mem_pair.mp h with rfl | rfl
      · cases hj
        rfl
      · cases hj
    · intro c h
      rcases List.mem_pair.mp h with rfl | rfl
      · exact ⟨rfl, edit, rfl, rfl⟩
      · exact ⟨rfl, look, rfl, rfl⟩
  let schedule : List Holder := (List.replicate 36 [2, 1]).flatten
  let t := Talk.inTurn ⟨w, []⟩ schedule
  have steps : Relation.ReflTransGen (Talk.Step file client) ⟨w, []⟩ t := steps_inTurn schedule
  have ends : t.calls.calls.isEmpty = true ∧ t.sent.length = 2 ∧
      (t.document? (Tree.pathOf [[0x66]])).map Document.text = some "x\n" := by
    decide +kernel
  have ended : t.calls.calls = [] := List.isEmpty_iff.mp ends.1
  obtain ⟨told, holds⟩ := server_knows_the_file fresh steps ended
  obtain ⟨document, known, text⟩ := Option.map_eq_some_iff.mp ends.2.2
  have last := text ▸ told document known
  exact ⟨file, t, rfl, rfl, fresh, steps, ended, ends.2.1, last, holds _ last⟩

end CodeIntel
