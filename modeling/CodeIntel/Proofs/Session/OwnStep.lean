import CodeIntel.Proofs.Session.Serial

namespace CodeIntel

section OwnStep

open EditFile World

variable {file : SharedFile} {job : EditJob} {order : List Holder} {w w' : Calls}
  {c : Call (Except ToolError Output)} {e : Errand} {stage : Stage} {venue : Venue} {tripped : Bool}

theorem locks_of_plan {self : Holder} {q : Ask} {next : q.Reply → Steps} {reply : q.Reply}
    (asks : e.plan stage = .ask q next) (locks : Locks self w w' q reply) :
    w'.fileLocks = w.fileLocks ∨ ∃ result, stage = .leaving result := by
  cases stage with
  | leaving result => exact .inr ⟨result, rfl⟩
  | ended => cases asks
  | _ =>
    cases asks
    exact .inl locks

/-- The paths that a call asks about are those that the file is named by. -/
def Names (file : SharedFile) (w : Calls) (c : Call (Except ToolError Output)) : Prop :=
  ∀ p next, c.activity = .calling (.ask (.realPath p) next) → file.paths (w.cwd.join p)

namespace Serial

section Reply

variable {q : Ask} {next : q.Reply → Steps} {reply : q.Reply}

/-- A reply to the call that has the lock. -/
theorem replyInside (serial : Serial file (fun _ => False) order w) (mem : c ∈ w.calls)
    (hj : file.jobs c.id = some job)
    (inside : Inside file.place job w c.id (c.id ∈ order) e stage)
    (asks : e.plan stage = .ask q next) (frame : Frame c.id w w') (locks : Locks c.id w w' q reply)
    (answers : Answers venue (Given w w') tripped w.files q reply w'.files) :
    ∃ order', Serial file (· = c.id) order' w' ∧
      Arrived file.place job w' c.id (c.id ∈ order') (.calling (next reply)) := by
  obtain ⟨stage', rest, fits', goes⟩ := inside.fits.leads asks answers fun name new => by
    rw [new.1, Errand.spare, inside.errand.1]
    exact ⟨slash_not_mem_nameOf _, serial.unused _ new.2⟩
  obtain ⟨order', serial', commits'⟩ := serial.inside mem hj inside frame
    (goes.alters inside.fits) goes.confined
  refine ⟨order', serial', ?_⟩
  rw [rest]
  rcases locks_of_plan asks locks with same | ⟨result, rfl⟩
  · have held' : holderAt w' file.place = some c.id := by
      rw [holderAt, same]
      exact inside.held
    refine .inl (.under inside.errand held' fits' (fun fresh h => ?_) commits')
    rcases goes.named_or_old h with old | new
    · obtain ⟨n, le, eq⟩ := inside.given fresh old
      exact ⟨n, Nat.le_trans le frame.names, eq⟩
    · exact ⟨w'.names, Nat.le_refl _, new.1⟩
  · cases goes.eq_ended
    exact .inr ⟨result, rfl, commits'⟩

/-- A reply to a call that still looks for the file. -/
theorem replyLooking {named : String → Prop} (serial : Serial file (fun _ => False) order w)
    (undone : c.id ∉ order)
    (looks : Looks (fun _ _ => True) (Located (fun _ _ => True) job.caller job.json) (.ask q next))
    (frame : Frame c.id w w') (answers : Answers venue named tripped w.files q reply w'.files)
    (names : ∀ p, q = .realPath p → file.paths (venue.cwd.join p)) :
    Serial file (· = c.id) order w' ∧
      Doing file.place job w' c.id (c.id ∈ order) (.calling (next reply)) := by
  generalize asks : Plan.ask q next = rest at looks
  cases looks with
  | there located =>
    cases located with
    | failed => cases asks
    | @found raw requests requested understands _ =>
      cases asks
      obtain ⟨truth, same⟩ := answers
      refine ⟨serial.frame frame (.of_eq same), ?_⟩
      cases reply with
      | error cause => exact .looking undone (.there (.failed _))
      | ok path =>
        have leads := serial.reached _ (names requested rfl)
        cases leads.symm.trans (truth path rfl)
        rw [hasLocated_pathOf]
        exact .entering undone ⟨rfl, raw, understands⟩
  | asks looks =>
    cases asks
    exact ⟨serial.frame frame (.of_eq answers.2), .looking undone (looks reply trivial)⟩

/-- A reply to a call that waits for the lock of the file. -/
theorem replyEntering {entered : Bool} (serial : Serial file (fun _ => False) order w)
    (undone : c.id ∉ order) (errand : job.IsErrand file.place e) (frame : Frame c.id w w')
    (same : w'.files = w.files)
    (locks : entered = true → (w'.fileLocks.lockOf e.path).holder = some c.id) :
    Serial file (· = c.id) order w' ∧ Doing file.place job w' c.id (c.id ∈ order)
      (.calling (if entered then e.reading else .done (.error .cancelled))) := by
  refine ⟨serial.frame frame (.of_eq same), ?_⟩
  cases entered with
  | true =>
    have held : holderAt w' file.place = some c.id := errand.1 ▸ locks rfl
    have fits : e.Fits .reading w'.files := by
      show w'.files.Plain e.place
      rw [same, errand.1]
      exact serial.plain
    exact .under errand held fits nofun (iff_of_false undone id)
  | false => exact .looking undone (.there (.failed _))

theorem replied (serial : Serial file (fun _ => False) order w) (mem : c ∈ w.calls)
    (hj : file.jobs c.id = some job) (activity : c.activity = .calling (.ask q next))
    (frame : Frame c.id w w') (locks : Locks c.id w w' q reply)
    (answers : Answers venue (Given w w') tripped w.files q reply w'.files)
    (names : ∀ p, q = .realPath p → file.paths (venue.cwd.join p)) :
    ∃ order', Serial file (· = c.id) order' w' ∧
      Arrived file.place job w' c.id (c.id ∈ order') (.calling (next reply)) := by
  have doing := serial.doing c mem id job hj
  rw [activity] at doing
  obtain ⟨undone, looks⟩ | ⟨undone, e, errand, asks⟩ | ⟨e, stage, inside, asks⟩ :=
    doing.cases_calling
  · have ⟨serial', doing'⟩ := serial.replyLooking undone looks frame answers names
    exact ⟨order, serial', .inl doing'⟩
  · cases asks
    have ⟨serial', doing'⟩ := serial.replyEntering undone errand frame answers locks
    exact ⟨order, serial', .inl doing'⟩
  · exact serial.replyInside mem hj inside asks.symm frame locks answers

theorem stay (serial : Serial file (fun _ => False) order w) (mem : c ∈ w.calls)
    (hj : file.jobs c.id = some job) (activity : c.activity = .calling (.ask q next))
    (frame : Frame c.id w w') (files : w'.files = w.files)
    (locks : (∀ p, q ≠ .enterFile p) → w'.fileLocks = w.fileLocks) :
    Serial file (· = c.id) order w' ∧
      Doing file.place job w' c.id (c.id ∈ order) (.calling (.ask q next)) := by
  refine ⟨serial.frame frame (.of_eq files), ?_⟩
  have doing := serial.doing c mem id job hj
  rw [activity] at doing
  obtain ⟨undone, looks⟩ | ⟨undone, e, errand, asks⟩ | ⟨e, stage, inside, asks⟩ :=
    doing.cases_calling
  · exact .looking undone looks
  · rw [asks]
    exact .entering undone errand
  · refine doing.congr (.of_eq files) frame.names (fun held => ?_) .rfl
    rwa [holderAt, locks]
    rintro p rfl
    have asked := Errand.question?_of_plan asks.symm
    cases stage <;> simp [Errand.question?] at asked

end Reply

/-- The call that edits goes on in the query that follows its edit. -/
theorem query {activity : Activity (Except ToolError Output)}
    (serial : Serial file (fun _ => False) order w) (errand : job.IsErrand file.place e)
    (held : holderAt w file.place = some c.id) (finished : c.id ∈ order) (quiet : Quiet w w')
    (ends : activity.Ends e.Leaves) :
    Serial file (· = c.id) order w' ∧ Doing file.place job w' c.id (c.id ∈ order) activity := by
  refine ⟨serial.frame (quiet.frame _) (.of_eq quiet.files), .querying errand ?_ finished ends⟩
  rwa [holderAt, quiet.fileLocks]

/-- The call that edits asks the server. -/
theorem enterGate {query : Query} {next : Except QueryFailure query.Reply → Steps}
    (serial : Serial file (fun _ => False) order w) (mem : c ∈ w.calls)
    (hj : file.jobs c.id = some job)
    (activity : c.activity = .calling (.ask (.query query) next)) (abortFirst : Bool) :
    Serial file (· = c.id) order (w.enterGate abortFirst c query next).1 ∧
      Doing file.place job (w.enterGate abortFirst c query next).1 c.id (c.id ∈ order)
        (w.enterGate abortFirst c query next).2.1 := by
  have doing := serial.doing c mem id job hj
  rw [activity] at doing
  obtain ⟨e, change, inside, asks⟩ := doing.telling
  have leaves : ∀ reply, e.Leaves (next reply) := by
    cases asks
    exact fun reply => ⟨_, rfl⟩
  obtain ⟨quiet, stays | ends⟩ := enterGate_spec (P := e.Leaves) w abortFirst c leaves
  · rw [stays]
    exact ⟨serial.frame (quiet.frame _) (.of_eq quiet.files),
      doing.same quiet.files quiet.names quiet.fileLocks⟩
  · exact serial.query inside.errand inside.held (inside.commits.mpr trivial) quiet ends

/-- A step of a call that edits the file. -/
theorem own (serial : Serial file (fun _ => False) order w) (mem : c ∈ w.calls)
    (hj : file.jobs c.id = some job) (names : Names file w c) (abortFirst : Bool) :
    ∃ order', Serial file (· = c.id) order' (w.stepActivity abortFirst c).1 ∧
      Arrived file.place job (w.stepActivity abortFirst c).1 c.id (c.id ∈ order')
        (w.stepActivity abortFirst c).2.1 := by
  have doing := serial.doing c mem id job hj
  unfold stepActivity
  split
  next plan activity =>
    rw [activity] at doing
    cases plan with
    | done result =>
      exact ⟨order, serial.frame ((Quiet.refl w).frame _) (.of_eq rfl), .inl doing⟩
    | ask q next =>
      by_cases hq : ∃ query, q = .query query
      · obtain ⟨query, rfl⟩ := hq
        have ⟨serial', doing'⟩ := serial.enterGate mem hj activity abortFirst
        exact ⟨order, serial', .inl doing'⟩
      · rw [stepCalling_ask next fun query eq => hq ⟨query, eq⟩]
        obtain ⟨frame, ⟨stays, files, locks⟩ | ⟨reply, goes, locks, answers⟩⟩ :=
          w.stepAsking_spec abortFirst c next
        · rw [stays]
          have ⟨serial', doing'⟩ := serial.stay mem hj activity frame files locks
          exact ⟨order, serial', .inl doing'⟩
        · rw [goes]
          refine serial.replied mem hj activity frame locks answers ?_
          rintro p rfl
          exact names p next activity
  next gated work aborted activity =>
    rw [activity] at doing
    cases doing with
    | querying errand held finished ends =>
      have spec := w.stepServing_spec abortFirst gated c ends.1 ends.2
      have ⟨serial', doing'⟩ := serial.query errand held finished spec.1 spec.2
      exact ⟨order, serial', .inl doing'⟩
  next gated wake q next activity =>
    rw [activity] at doing
    cases doing with
    | @querying e _ errand held finished ends =>
      have spec := w.stepStanding_spec (P := e.Leaves) abortFirst gated c wake ends
      have ⟨serial', doing'⟩ := serial.query errand held finished spec.1 spec.2
      exact ⟨order, serial', .inl doing'⟩

/-- A call that edits the file fills its temporary file in part. -/
theorem part {p : Path} {text : String} {next : Except FileError Unit → Steps} {part : List UInt8}
    {t : Tree} (serial : Serial file (fun _ => False) order w) (mem : c ∈ w.calls)
    (hj : file.jobs c.id = some job) (activity : c.activity = .calling (.ask (.write p text) next))
    (written : w.files.write (w.cwd.join p) part = .ok t) :
    ∃ order', Serial file (fun _ => False) order' { w with files := t } := by
  have doing := serial.doing c mem id job hj
  rw [activity] at doing
  obtain ⟨e, change, fresh, inside, asks, path⟩ := doing.filling
  rw [path] at written
  have ⟨_, vacant⟩ := inside.fits.vacant rfl
  obtain ⟨fits', aside⟩ := inside.fits.part written
  have alters : e.Alters (.filling change fresh) (.filling change fresh) w.files t :=
    .same (aside _ vacant.apart.symm) .rfl
  have confined : e.Confined (.filling change fresh) w.files t :=
    fun other _ spare => aside other (spare fresh rfl)
  obtain ⟨order', serial', commits'⟩ := serial.inside mem hj inside (frame_files w c.id t) alters
    confined
  refine ⟨order', serial'.whole fun other h same job' hj' => ?_⟩
  cases List.inj_on_of_nodup_map serial.ids h mem same
  cases hj.symm.trans hj'
  rw [activity, asks]
  exact .under inside.errand inside.held fits' inside.given commits'

end Serial

end OwnStep

open EditFile World

namespace EditFile

variable {e : Errand} {tripped : Bool} {removes : Prop} {named : String → Prop}
  {stage stage' : Stage} {t t' : Tree}

/-- A step leaves the file as it is, or what is left to do is to tell the server of what the file
holds then. -/
theorem Errand.Goes.content (goes : e.Goes tripped removes named stage t stage' t')
    (fits : e.Fits stage t) :
    (t'.node? e.place = t.node? e.place ∧ ∀ c, stage' ≠ .telling c) ∨
      ∃ c mode, stage' = .telling c ∧ t'.node? e.place = some (.file (utf8 c.after) mode) := by
  cases goes with
  | prepare fresh source target _ aside =>
    refine .inl ⟨aside _ (fits.vacant source).2.apart.symm, ?_⟩
    rintro c rfl
    cases target
  | move c mode fresh ready moves => exact .inr ⟨c, mode, rfl, by rw [moves, if_pos rfl]⟩
  | discard fresh cause aside _ =>
    exact .inl ⟨aside _ fits.2.2.apart.symm, fun c eq => nomatch eq⟩
  | _ => exact .inl ⟨rfl, fun c eq => nomatch eq⟩

/-- Whether some steps ask the server next. -/
def AsksServer (plan : Steps) : Prop := ∃ query next, plan = .ask (.query query) next

theorem not_asksServer_of_looks {caller : Caller} {json : Json} {rest : Steps}
    {answers answers' : Path → Bool → Prop}
    (looks : Looks answers (Located answers' caller json) rest) : ¬ AsksServer rest := by
  rintro ⟨query, next, asks⟩
  obtain ⟨_, eq⟩ | ⟨_, eq⟩ := looks.question asks <;> cases eq

theorem not_asksServer_of_stage (h : ∀ c, stage ≠ .telling c) : ¬ AsksServer (e.plan stage) := by
  rintro ⟨query, next, asks⟩
  obtain ⟨c, eq⟩ := Errand.telling_of_query asks
  exact h c eq

theorem not_asksServer_hasLocated (caller : Caller) (requests : List EditRequest) (requested : Path)
    (reply : Except FileError Path) :
    ¬ AsksServer (hasLocated caller requests requested reply) := by
  rintro ⟨query, next, asks⟩
  cases reply with
  | error cause => cases asks
  | ok path =>
    have enters := (run_exclusively path (editReal path requests
      (requested.shown caller.surroundings.root))).symm.trans asks
    cases enters

end EditFile

variable {file : SharedFile} {job : EditJob} {order : List Holder} {w w' : Calls}
  {c : Call (Except ToolError Output)} {venue : Venue} {tripped : Bool} {q : Ask}
  {next : q.Reply → Steps} {reply : q.Reply}

/-- A reply to an edit leaves the file as it is, or what is left for the call to do is to tell the
server of what the file holds then. Only the call that has the lock changes the file. -/
theorem Serial.content (serial : Serial file (fun _ => False) order w) (mem : c ∈ w.calls)
    (hj : file.jobs c.id = some job) (activity : c.activity = .calling (.ask q next))
    (answers : Answers venue (Given w w') tripped w.files q reply w'.files) :
    (w'.files.node? file.place = w.files.node? file.place ∧ ¬ AsksServer (next reply)) ∨
      ∃ (e : Errand) (change : Change) (mode : Nat),
        next reply = e.telling change ∧ e.place = file.place ∧
        w'.files.node? file.place = some (.file (utf8 change.after) mode) ∧
        holderAt w file.place = some c.id := by
  have doing := serial.doing c mem id job hj
  rw [activity] at doing
  obtain ⟨undone, looks⟩ | ⟨undone, e, errand, asks⟩ | ⟨e, stage, inside, asks⟩ :=
    doing.cases_calling
  · refine .inl ?_
    generalize asks : Plan.ask q next = rest at looks
    cases looks with
    | there located =>
      cases located with
      | failed => cases asks
      | found =>
        cases asks
        exact ⟨congrArg (·.node? file.place) answers.2, not_asksServer_hasLocated _ _ _ _⟩
    | asks looks =>
      cases asks
      exact ⟨congrArg (·.node? file.place) answers.2, not_asksServer_of_looks (looks reply trivial)⟩
  · cases asks
    refine .inl ⟨congrArg (·.node? file.place) answers, ?_⟩
    rintro ⟨query, next, asks⟩
    cases reply <;> cases asks
  · obtain ⟨stage', rest, _, goes⟩ := inside.fits.leads asks.symm answers fun name new => by
      rw [new.1, Errand.spare, inside.errand.1]
      exact ⟨slash_not_mem_nameOf _, serial.unused _ new.2⟩
    rw [rest, ← inside.errand.1]
    obtain ⟨same, silent⟩ | ⟨change, mode, rfl, here⟩ := goes.content inside.fits
    · exact .inl ⟨same, not_asksServer_of_stage silent⟩
    · exact .inr ⟨e, change, mode, rfl, rfl, here, inside.errand.1 ▸ inside.held⟩

/-- The file stays as it is while a temporary file is filled. -/
theorem Serial.part_here {p : Path} {text : String} {next : Except FileError Unit → Steps}
    {part : List UInt8} {t : Tree} (serial : Serial file (fun _ => False) order w)
    (mem : c ∈ w.calls) (hj : file.jobs c.id = some job)
    (activity : c.activity = .calling (.ask (.write p text) next))
    (written : w.files.write (w.cwd.join p) part = .ok t) :
    t.node? file.place = w.files.node? file.place := by
  have doing := serial.doing c mem id job hj
  rw [activity] at doing
  obtain ⟨e, change, fresh, inside, _, path⟩ := doing.filling
  rw [path] at written
  have ⟨_, vacant⟩ := inside.fits.vacant rfl
  obtain ⟨_, aside⟩ := inside.fits.part written
  rw [← inside.errand.1]
  exact aside _ vacant.apart.symm

end CodeIntel
