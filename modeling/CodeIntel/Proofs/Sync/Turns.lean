import CodeIntel.Proofs.Sync.Talk

namespace CodeIntel

open EditFile World

variable {file : UsedFile} {client : Client} {w w' : Calls} {c : Call (Except ToolError Output)}
  {use : Use} {order : List Holder} {after : Activity (Except ToolError Output)} {link : Link}

theorem EditFile.Resolves.eq_of_only {answers : Path → Bool → Prop} {raw : String}
    {s : Surroundings} {p q : Path} (resolves : Resolves answers raw s p)
    (only : Path.readings raw s = .ok (q, none)) : p = q := by
  cases resolves with
  | only h =>
    cases h.symm.trans only
    rfl
  | first h | second h | neither h => cases h.symm.trans only

namespace UsedFile

theorem holds_congr {t t' : Tree} (here : t'.node? file.place = t.node? file.place) :
    file.Holds t' = file.Holds t := by
  funext text
  simp only [Holds, here]

theorem jobs_of_edit (own : file.uses c.id = some use) (edits : use.tool = .edit) :
    file.shared.jobs c.id = some ⟨use.caller, use.json⟩ := by
  simp [shared, own, Use.job?, edits]

theorem jobs_of_look (own : file.uses c.id = some use) (looks : use.tool ≠ .edit) :
    file.shared.jobs c.id = none := by
  simp [shared, own, Use.job?]

/-- The only path that an edit asks about is the canonical one. -/
theorem names (own : file.uses c.id = some use) (edits : use.tool = .edit) {done : Prop}
    (doing : Doing file.place ⟨use.caller, use.json⟩ w c.id done c.activity) :
    Names file.shared w c := by
  intro p next activity
  rw [activity] at doing
  obtain ⟨_, looks⟩ | ⟨_, e, _, asks⟩ | ⟨e, stage, _, asks⟩ := doing.cases_calling
  · generalize asks : Plan.ask (Ask.realPath p) next = rest at looks
    cases looks with
    | there located =>
      cases located with
      | failed => cases asks
      | @found raw requests requested understands path =>
        cases asks
        have given : use.tool.file? use.json = some raw := by
          simp [FileTool.file?, edits, understands, Except.toOption]
        have canonical := path.eq_of_only (file.named c.id use own raw given)
        rw [canonical]
        exact Tree.join_pathOf w.cwd file.place
    | asks => cases asks
  · cases asks
  · have asked := Errand.question?_of_plan asks.symm
    cases stage <;> simp [Errand.question?] at asked

end UsedFile

theorem not_announces_of_looks {plan : Steps} (looks : plan.Asks (Ask.LooksAt file.path))
    (text : String) : ¬ Announces file text (.calling plan) := by
  rintro ⟨next, eq⟩
  cases eq
  exact looks.1.elim

theorem not_announces_of_silent {plan : Steps} (silent : ¬ AsksServer plan) (text : String) :
    ¬ Announces file text (.calling plan) := by
  rintro ⟨next, eq⟩
  exact silent ⟨_, next, Activity.calling.inj eq⟩

theorem not_announces_steps {id : Holder} (own : file.uses id = some use) (text : String) :
    ¬ Announces file text (.calling use.steps) := by
  by_cases edits : use.tool = .edit
  · obtain ⟨tool, caller, json⟩ := use
    cases edits
    rintro ⟨next, eq⟩
    have looks := looks_run (fun _ _ => True) caller json
    obtain ⟨_, eq⟩ | ⟨_, eq⟩ := looks.question (Activity.calling.inj eq) <;> cases eq
  · exact not_announces_of_looks (Use.asks_steps (file.named id use own) edits) text

theorem Announces.unique {text text' : String} (announces : Announces file text after)
    (announces' : Announces file text' after) : text = text' := by
  obtain ⟨next, rfl⟩ := announces
  obtain ⟨next', eq⟩ := announces'
  cases eq
  rfl

theorem Announces.running {text : String} (announces : Announces file text after) :
    ∀ result, after ≠ .calling (.done result) := by
  obtain ⟨next, rfl⟩ := announces
  exact fun result => nofun

/-- A call is at a stage of an edit, or it only looks at the file. -/
theorem Behaves.stands (behaves : Behaves file w c)
    (serial : Serial file.shared (fun _ => False) order w) (mem : c ∈ w.calls) :
    (∃ job, file.shared.jobs c.id = some job ∧
      Doing file.place job w c.id (c.id ∈ order) c.activity) ∨
    c.activity.Ends (Plan.Asks (Ask.LooksAt file.path)) := by
  obtain ⟨use, own, looks⟩ := behaves.used
  by_cases edits : use.tool = .edit
  · have hj := UsedFile.jobs_of_edit own edits
    exact .inl ⟨_, hj, serial.doing c mem id _ hj⟩
  · exact .inr (looks edits)

/-- Only the call that has the lock of the file is about to tell of a text of it. -/
theorem Announces.holder {text : String} {self : Holder}
    (announces : Announces file text c.activity)
    (serial : Serial file.shared (fun _ => False) order w) (mem : c ∈ w.calls)
    (behaves : Behaves file w c) (held : holderAt w file.place = some self) : c.id = self := by
  have stands := behaves.stands serial mem
  obtain ⟨next, activity⟩ := announces
  rw [activity] at stands
  obtain ⟨job, _, doing⟩ | asks := stands
  · obtain ⟨e, change, inside, _⟩ := doing.telling
    exact Option.some.inj (inside.held.symm.trans held)
  · exact asks.1.elim

namespace Behaves

section

variable (behaves : Behaves file w c) (serial : Serial file.shared (fun _ => False) order w)
  (mem : c ∈ w.calls)

include behaves serial mem

/-- What a call asks the server. -/
theorem query {q : Query} {next : Except QueryFailure q.Reply → Steps}
    (activity : c.activity = .calling (.ask (.query q) next)) :
    q.LooksAt file.path ∨ ∃ text, q = .changed file.path text := by
  have stands := behaves.stands serial mem
  rw [activity] at stands
  obtain ⟨job, _, doing⟩ | asks := stands
  · obtain ⟨e, change, inside, asks⟩ := doing.telling
    have place : e.place = file.place := inside.errand.1
    obtain ⟨_, requests, name⟩ := e
    cases place
    cases asks
    exact .inr ⟨_, rfl⟩
  · exact .inl asks.1

/-- After a query, a call does not go on with one that tells of a text. -/
theorem leaves {gated : Bool} {plan aborted : Steps}
    (activity : c.activity = .serving gated (.done plan) aborted) (text : String) :
    ¬ Announces file text (.calling plan) := by
  have stands := behaves.stands serial mem
  rw [activity] at stands
  obtain ⟨job, _, doing⟩ | asks := stands
  · cases doing with
    | querying _ _ _ ends =>
      obtain ⟨output, eq⟩ : Errand.Leaves _ plan := ends.1
      rintro ⟨next, asks⟩
      cases eq ▸ asks
  · exact not_announces_of_looks asks.1 text

end

end Behaves

/-- What comes of the file when a call takes a step: nothing, or there is something to tell. -/
inductive Tidings (file : UsedFile) (w w' : Calls) (c : Call (Except ToolError Output))
    (after : Activity (Except ToolError Output)) : Prop
  | same (here : w'.files.node? file.place = w.files.node? file.place)
      (silent : ∀ text, Announces file text after → Announces file text c.activity)
  | changed {text : String} (announces : Announces file text after)
      (holds : file.Holds w'.files text) (held : holderAt w file.place = some c.id)

theorem tidings_of_replied {q : Ask} {next : q.Reply → Steps} (behaves : Behaves file w c)
    (serial : Serial file.shared (fun _ => False) order w) (mem : c ∈ w.calls)
    (activity : c.activity = .calling (.ask q next)) (other : ∀ query, q ≠ .query query)
    (replied : Replied c next w w' after) : Tidings file w w' c after := by
  obtain ⟨rfl, files, _⟩ | ⟨reply, rfl, _, answers⟩ := replied
  · exact .same (congrArg (·.node? file.place) files) fun _ => activity ▸ id
  · have stands := behaves.stands serial mem
    rw [activity] at stands
    obtain ⟨job, hj, _⟩ | asks := stands
    · obtain ⟨here, silent⟩ | ⟨e, change, mode, rest, place, here, held⟩ :=
        serial.content mem hj activity answers
      · exact .same here fun text announces =>
          absurd announces (not_announces_of_silent silent text)
      · obtain ⟨_, requests, name⟩ := e
        cases place
        rw [rest]
        have holds : file.Holds w'.files (String.ofList change.after) :=
          ⟨mode, (utf8Bytes_ofList change.after).symm ▸ here⟩
        exact .changed ⟨_, rfl⟩ holds held
    · have silent := not_announces_of_looks (asks.2 reply)
      cases q with
      | readText p =>
        exact .same (congrArg (·.node? file.place) answers.2) fun text announces =>
          absurd announces (silent text)
      | query query => exact absurd rfl (other query)
      | _ => exact asks.1.elim

theorem tidings_of_moves (behaves : Behaves file w c)
    (serial : Serial file.shared (fun _ => False) order w) (mem : c ∈ w.calls)
    (moves : Moves w c client link w' after) : Tidings file w w' c after := by
  cases moves with
  | ended activity | waits activity => exact .same rfl fun _ => activity ▸ id
  | asks activity other gate backend replied =>
    exact tidings_of_replied behaves serial mem activity other replied
  | enters | works => exact .same rfl fun text announces => nomatch announces
  | @leaves gated plan aborted activity =>
    have quiet := quiet_leaveGate w gated c.id
    exact .same (congrArg (·.node? file.place) quiet.files) fun text announces =>
      absurd announces (behaves.leaves serial mem activity text)

theorem files_of_moves (behaves : Behaves file w c) (own : file.uses c.id = some use)
    (looks : use.tool ≠ .edit) (moves : Moves w c client link w' after) : w'.files = w.files := by
  cases moves with
  | @asks q next w' after activity other gate backend replied =>
    obtain ⟨_, files, _⟩ | ⟨reply, _, _, answers⟩ := replied
    · exact files
    · obtain ⟨use', own', asks⟩ := behaves.used
      cases own.symm.trans own'
      have looking := asks looks
      rw [activity] at looking
      cases q with
      | readText p => exact answers.2
      | query query => exact absurd rfl (other query)
      | _ => exact looking.1.elim
  | @leaves gated => exact (quiet_leaveGate w gated c.id).files
  | _ => rfl

/-- Of the calls, one has come to another activity, or to its end. -/
structure Turned (calls : List (Call (Except ToolError Output)))
    (c : Call (Except ToolError Output)) (after : Activity (Except ToolError Output))
    (calls' : List (Call (Except ToolError Output))) : Prop where
  mem : c ∈ calls
  apart : ∀ other ∈ calls, other = c ∨ other.id ≠ c.id
  members : ∀ other, other ∈ calls' ↔ (other ∈ calls ∧ other.id ≠ c.id) ∨
    (other = { c with activity := after } ∧ ∀ result, after ≠ .calling (.done result))

theorem turned_settleCall (once : (w.calls.map Call.id).Nodup) (mem : c ∈ w.calls) :
    Turned w.calls c after (w.settleCall { c with activity := after }).calls := by
  refine ⟨mem, fun other h => ?_, fun other => mem_settleCall_iff once mem⟩
  exact (eq_or_ne other.id c.id).imp_left (List.inj_on_of_nodup_map once h mem)

/-- The calls behave after one of them took a step as they did before. -/
theorem behaves_of_moves {w'' : Calls} (serial : Serial file.shared (fun _ => False) order w)
    (behave : ∀ c ∈ w.calls, Behaves file w c) (turned : Turned w.calls c after w''.calls)
    (moves : Moves w c client link w' after) (files : w''.files = w'.files)
    (gate : w''.gate = w'.gate) : ∀ other ∈ w''.calls, Behaves file w'' other := by
  have behaves := behave c turned.mem
  have tidings := tidings_of_moves behaves serial turned.mem moves
  intro other h
  obtain ⟨h, ne⟩ | ⟨rfl, _⟩ := (turned.members other).mp h
  · obtain ⟨going, used, gated, tells⟩ := behave other h
    refine ⟨going, used, ?_, fun text announces => ?_⟩
    · cases activity : other.activity with
      | calling => trivial
      | serving =>
        rw [activity] at gated
        exact ⟨gated.1, gate ▸ moves.keeps_gate ne.symm gated.2⟩
      | standing =>
        rw [activity] at gated
        exact gated.elim
    · rw [files]
      cases tidings with
      | same here => exact UsedFile.holds_congr here ▸ tells text announces
      | changed _ _ held =>
        -- the file changes under its lock only, which a call that is about to tell of it has
        exact absurd (announces.holder serial h (behave other h) held) ne
  · obtain ⟨going, ⟨use, own, looks⟩, gated, tells⟩ := behaves
    refine ⟨going, ⟨use, own, fun edits => ?_⟩, gate ▸ moves.hasGate gated,
      fun text announces => ?_⟩
    · exact moves.ends (fun q next asks => asks.2) (looks edits)
    · rw [files]
      cases tidings with
      | same here silent => exact UsedFile.holds_congr here ▸ tells text (silent text announces)
      | changed announces' holds => exact announces'.unique announces ▸ holds

theorem Behaves.begins (own : file.uses c.id = some use) (going : c.cancelled = false)
    (activity : c.activity = .calling use.steps) : Behaves file w c := by
  refine ⟨going, ⟨use, own, fun looks => ?_⟩, ?_, fun text announces => ?_⟩
  · rw [activity]
    exact Use.asks_steps (file.named c.id use own) looks
  · rw [activity]
    trivial
  · rw [activity] at announces
    exact absurd announces (not_announces_steps own text)

theorem behaves_congr (behave : ∀ c ∈ w.calls, Behaves file w c) (calls : w'.calls = w.calls)
    (gate : w'.gate = w.gate) (here : w'.files.node? file.place = w.files.node? file.place) :
    ∀ c ∈ w'.calls, Behaves file w' c := by
  intro c h
  obtain ⟨going, used, gated, tells⟩ := behave c (calls ▸ h)
  refine ⟨going, used, gate ▸ gated, fun text announces => ?_⟩
  rw [UsedFile.holds_congr here]
  exact tells text announces

end CodeIntel
