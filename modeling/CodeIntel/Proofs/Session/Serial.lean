import CodeIntel.Proofs.EditFile.Effect
import CodeIntel.Proofs.EditFile.Progress
import CodeIntel.Proofs.Session.Calls
import CodeIntel.Proofs.Text.Columns
import CodeIntel.Session.Step

namespace CodeIntel

/-- The number that a hexadecimal digit stands for. -/
def hexDigit (c : Char) : Nat := if c.toNat < 0x3A then c.toNat - 0x30 else c.toNat - 0x57

def hexValue (digits : List Char) : Nat := digits.foldl (fun value c => 16 * value + hexDigit c) 0

theorem digitChar_spec {d : Nat} (h : d < 16) :
    hexDigit d.digitChar = d ∧ d.digitChar ≠ '/' := by
  have all : ∀ d < 16, hexDigit d.digitChar = d ∧ d.digitChar ≠ '/' := by decide
  exact all d h

theorem hexValue_concat (digits : List Char) (c : Char) :
    hexValue (digits ++ [c]) = 16 * hexValue digits + hexDigit c := by
  simp [hexValue]

theorem hexValue_toDigits (n : Nat) : hexValue (Nat.toDigits 16 n) = n := by
  induction n using Nat.strongRecOn with
  | _ n ih =>
    rcases Nat.lt_or_ge n 16 with small | large
    · rw [Nat.toDigits_of_lt_base small]
      simp [hexValue, (digitChar_spec small).1]
    · rw [Nat.toDigits_of_base_le (by decide) large, hexValue_concat, ih _ (by omega),
        (digitChar_spec (Nat.mod_lt n (by decide))).1]
      omega

theorem hexValue_replicate_append (k : Nat) (digits : List Char) :
    hexValue (List.replicate k '0' ++ digits) = hexValue digits := by
  have zeros : (List.replicate k '0').foldl (fun value c => 16 * value + hexDigit c) 0 = 0 := by
    induction k with
    | zero => rfl
    | succ k ih => exact ih
  rw [hexValue, List.foldl_append, zeros, hexValue]

theorem slash_not_mem_toDigits (n : Nat) : '/' ∉ Nat.toDigits 16 n := by
  induction n using Nat.strongRecOn with
  | _ n ih =>
    rcases Nat.lt_or_ge n 16 with small | large
    · rw [Nat.toDigits_of_lt_base small, List.mem_singleton]
      exact (digitChar_spec small).2.symm
    · rw [Nat.toDigits_of_base_le (by decide) large, List.mem_append, List.mem_singleton, not_or]
      exact ⟨ih _ (by omega), (digitChar_spec (Nat.mod_lt n (by decide))).2.symm⟩

namespace World

theorem toList_nameOf (n : Nat) :
    (nameOf n).toList = "00000000-0000-4000-8000-".toList ++
      (List.replicate (freshDigits - (Nat.toDigits 16 n).length) '0' ++ Nat.toDigits 16 n) :=
  String.toList_append.trans (congrArg (_ ++ ·) String.toList_ofList)

theorem nameOf_inj {m n : Nat} (h : nameOf m = nameOf n) : m = n := by
  have lists := congrArg String.toList h
  rw [toList_nameOf, toList_nameOf, List.append_cancel_left_eq] at lists
  have values := congrArg hexValue lists
  rwa [hexValue_replicate_append, hexValue_replicate_append, hexValue_toDigits,
    hexValue_toDigits] at values

theorem slash_not_mem_nameOf (n : Nat) : '/' ∉ (nameOf n).toList := by
  rw [toList_nameOf, List.mem_append, List.mem_append, not_or, not_or]
  refine ⟨by decide, fun zero => ?_, slash_not_mem_toDigits n⟩
  exact absurd (List.eq_of_mem_replicate zero) (by decide)

end World

theorem temporaryPlace_inj {place : Place} {fresh fresh' : String}
    (h : temporaryPlace place fresh = temporaryPlace place fresh') : fresh = fresh' := by
  have names := List.append_cancel_left h
  have texts := congrArg String.toList (utf8Bytes_inj (List.singleton_inj.mp names))
  rw [toList_temporaryName, toList_temporaryName, List.append_cancel_right_eq,
    List.append_cancel_left_eq, List.cons.injEq] at texts
  exact String.toList_inj.mp texts.2

/-- Calls of tools under way. -/
abbrev Calls := World (Except ToolError Output)

/-- An edit that a call is to make. -/
structure EditJob where
  caller : Caller
  json : Json

open EditFile World

def EditJob.IsErrand (job : EditJob) (place : Place) (e : Errand) : Prop :=
  e.place = place ∧ ∃ raw, understood job.json = .ok (raw, e.requests)

/-- All that is left to do for an edit is to give the lock back. -/
def EditFile.Errand.Leaves (e : Errand) (plan : Steps) : Prop :=
  ∃ output, plan = e.leaving (.ok output)

/-- Who holds the lock of the file at a place. -/
def holderAt (w : Calls) (place : Place) : Option Holder :=
  (w.fileLocks.lockOf (Tree.pathOf place)).holder

/-- What a call that edits the file at a place is at, and what it relies on; `done` tells whether
its edit stands in the file. -/
inductive Doing (place : Place) (job : EditJob) (w : Calls) (self : Holder) (done : Prop) :
    Activity (Except ToolError Output) → Prop
  | looking {rest : Steps} (undone : ¬ done)
      (looks : Looks (fun _ _ => True) (Located (fun _ _ => True) job.caller job.json) rest) :
      Doing place job w self done (.calling rest)
  | entering {e : Errand} (undone : ¬ done) (errand : job.IsErrand place e) :
      Doing place job w self done (.calling e.entering)
  | under {e : Errand} {stage : Stage} (errand : job.IsErrand place e)
      (held : holderAt w place = some self) (fits : e.Fits stage w.files)
      (given : ∀ fresh, stage.fresh? = some fresh → ∃ n ≤ w.names, fresh = nameOf n)
      (commits : done ↔ stage.Committed) : Doing place job w self done (.calling (e.plan stage))
  | querying {e : Errand} {activity : Activity (Except ToolError Output)}
      (errand : job.IsErrand place e) (held : holderAt w place = some self) (finished : done)
      (ends : activity.Ends e.Leaves) :
      Doing place job w self done activity

/-- An edit that has the lock of its file, at a stage. -/
structure Inside (place : Place) (job : EditJob) (w : Calls) (id : Holder) (done : Prop)
    (e : Errand) (stage : Stage) : Prop where
  errand : job.IsErrand place e
  held : holderAt w place = some id
  fits : e.Fits stage w.files
  given : ∀ fresh, stage.fresh? = some fresh → ∃ n ≤ w.names, fresh = nameOf n
  commits : done ↔ stage.Committed

variable {place : Place} {job : EditJob} {w w' : Calls} {self : Holder} {done done' : Prop}
  {activity : Activity (Except ToolError Output)}

theorem doing_run (undone : ¬ done) :
    Doing place job w self done (.calling (run job.caller job.json).run) :=
  .looking undone (looks_run _ _ _)

theorem Doing.cases_calling {plan : Steps} (doing : Doing place job w self done (.calling plan)) :
    (¬ done ∧ Looks (fun _ _ => True) (Located (fun _ _ => True) job.caller job.json) plan) ∨
      (¬ done ∧ ∃ e, job.IsErrand place e ∧ plan = e.entering) ∨
      ∃ e stage, Inside place job w self done e stage ∧ plan = e.plan stage := by
  generalize eq : Activity.calling plan = activity at doing
  cases doing with
  | looking undone looks =>
    cases eq
    exact .inl ⟨undone, looks⟩
  | @entering e undone errand =>
    cases eq
    exact .inr (.inl ⟨undone, e, errand, rfl⟩)
  | @under e stage errand held fits given commits =>
    exact .inr (.inr ⟨e, stage, ⟨errand, held, fits, given, commits⟩, Activity.calling.inj eq⟩)
  | @querying e _ errand held finished ends =>
    subst eq
    obtain ⟨output, rfl⟩ := ends
    exact .inr (.inr ⟨e, .leaving (.ok output),
      ⟨errand, held, trivial, nofun, iff_of_true finished ⟨output, rfl⟩⟩, rfl⟩)

/-- An edit asks the server only to tell it of the change that stands in the file by then. -/
theorem Doing.telling {query : Query} {next : Except QueryFailure query.Reply → Steps}
    (doing : Doing place job w self done (.calling (.ask (.query query) next))) :
    ∃ e change, Inside place job w self done e (.telling change) ∧
      Plan.ask (.query query) next = e.telling change := by
  obtain ⟨_, looks⟩ | ⟨_, e, _, asks⟩ | ⟨e, stage, inside, asks⟩ := doing.cases_calling
  · obtain ⟨_, eq⟩ | ⟨_, eq⟩ := looks.question rfl <;> cases eq
  · exact nomatch (Plan.ask.inj asks).1
  · obtain ⟨change, rfl⟩ := Errand.telling_of_query asks.symm
    exact ⟨e, change, inside, asks⟩

/-- An edit writes only to fill its temporary file. -/
theorem Doing.filling {p : Path} {text : String} {next : Except FileError Unit → Steps}
    (doing : Doing place job w self done (.calling (.ask (.write p text) next))) :
    ∃ e change fresh, Inside place job w self done e (.filling change fresh) ∧
      Plan.ask (.write p text) next = e.plan (.filling change fresh) ∧ p = e.temporary fresh := by
  obtain ⟨_, looks⟩ | ⟨_, e, _, asks⟩ | ⟨e, stage, inside, asks⟩ := doing.cases_calling
  · obtain ⟨_, eq⟩ | ⟨_, eq⟩ := looks.question rfl <;> cases eq
  · exact nomatch (Plan.ask.inj asks).1
  · obtain ⟨change, fresh, rfl, path⟩ := Errand.filling_of_write asks.symm
    exact ⟨e, change, fresh, inside, asks, path⟩

/-- What nobody touches but the edits: the file, the way to it, and temporary files. -/
structure Untouched (place : Place) (t t' : Tree) : Prop where
  way : ∀ n, t'.node? (place.take n) = t.node? (place.take n)
  spares : ∀ n, t'.node? (temporaryPlace place (nameOf n)) =
    t.node? (temporaryPlace place (nameOf n))

theorem Untouched.of_eq {t t' : Tree} (h : t' = t) : Untouched place t t' :=
  h ▸ ⟨fun _ => rfl, fun _ => rfl⟩

theorem Untouched.here {t t' : Tree} (untouched : Untouched place t t') :
    t'.node? place = t.node? place := by
  have here := untouched.way place.length
  rwa [List.take_length] at here

theorem Doing.congr (doing : Doing place job w self done activity)
    (untouched : Untouched place w.files w'.files) (names : w.names ≤ w'.names)
    (lock : holderAt w place = some self → holderAt w' place = some self)
    (same : done' ↔ done) : Doing place job w' self done' activity := by
  cases doing with
  | looking undone looks => exact .looking (undone ∘ same.mp) looks
  | entering undone errand => exact .entering (undone ∘ same.mp) errand
  | @under e stage errand held fits given commits =>
    have given' : ∀ fresh, stage.fresh? = some fresh → ∃ n ≤ w'.names, fresh = nameOf n := by
      intro fresh h
      obtain ⟨n, le, eq⟩ := given fresh h
      exact ⟨n, Nat.le_trans le names, eq⟩
    refine .under errand (lock held) ?_ given' (same.trans commits)
    refine fits.congr (errand.1 ▸ untouched.way) fun fresh h => ?_
    obtain ⟨n, _, rfl⟩ := given fresh h
    rw [Errand.spare, errand.1]
    exact untouched.spares n
  | querying errand held finished ends => exact .querying errand (lock held) (same.mpr finished) ends

theorem Doing.same (doing : Doing place job w self done activity) (files : w'.files = w.files)
    (names : w'.names = w.names) (locks : w'.fileLocks = w.fileLocks) :
    Doing place job w' self done activity := by
  refine doing.congr (.of_eq files) (Nat.le_of_eq names.symm) (fun held => ?_) .rfl
  rwa [holderAt, locks]

/-- A call that waits while another has the lock relies on nothing. -/
theorem Doing.outside {other : Holder} (doing : Doing place job w self done activity)
    (held : holderAt w place = some other) (ne : self ≠ other) (undone : done' → done) :
    Doing place job w' self done' activity := by
  cases doing with
  | looking h looks => exact .looking (h ∘ undone) looks
  | entering h errand => exact .entering (h ∘ undone) errand
  | under _ mine => exact absurd (Option.some.inj (mine.symm.trans held)) ne
  | querying _ mine => exact absurd (Option.some.inj (mine.symm.trans held)) ne

theorem Doing.result {result : Except ToolError Output}
    (doing : Doing place job w self done (.calling (.done result))) :
    done ↔ ∃ output, result = .ok output := by
  generalize ends : Activity.calling (Plan.done result) = activity at doing
  cases doing with
  | looking undone looks =>
    cases looks with
    | there located =>
      cases located with
      | failed cause =>
        cases ends
        exact iff_of_false undone nofun
      | found => cases ends
    | asks => cases ends
  | entering => cases ends
  | under _ _ _ _ commits =>
    have ended := Errand.eq_ended_of_plan (Activity.calling.inj ends).symm
    rw [ended] at commits
    exact commits
  | querying errand held finished leaves =>
    subst ends
    obtain ⟨output, eq⟩ := leaves
    cases eq

/-- A call is at something after its step, or it has come to its end. -/
def Arrived (place : Place) (job : EditJob) (w : Calls) (self : Holder) (done : Prop)
    (activity : Activity (Except ToolError Output)) : Prop :=
  Doing place job w self done activity ∨
    ∃ result, activity = .calling (.done result) ∧ (done ↔ ∃ output, result = .ok output)

theorem Arrived.result {result : Except ToolError Output}
    (arrived : Arrived place job w self done activity) (ends : activity = .calling (.done result)) :
    done ↔ ∃ output, result = .ok output := by
  rcases arrived with doing | ⟨other, eq, iff⟩
  · exact (ends ▸ doing).result
  · cases eq.symm.trans ends
    exact iff

theorem Arrived.doing (arrived : Arrived place job w self done activity)
    (running : ∀ result, activity ≠ .calling (.done result)) :
    Doing place job w self done activity :=
  arrived.resolve_right fun ⟨result, ends, _⟩ => running result ends

end CodeIntel

namespace CodeIntel

open EditFile World

/-- Which calls are edits of one file. -/
abbrev EditJobs := Holder → Option EditJob

/-- What a call makes of the bytes of the file by its edit. -/
def EditJobs.replay (jobs : EditJobs) (content : List UInt8) (id : Holder) :
    Option (List UInt8) := do
  edited (← jobs id).json content

/-- A file that several calls edit. -/
structure SharedFile where
  place : Place
  /-- The paths that the calls name it by. -/
  paths : Path → Prop
  jobs : EditJobs
  content : List UInt8
  mode : Nat

/-- The file holds what comes of the edits in `order`, which are those that stand in it. Of the
calls `skipped` it is not said what they are at. -/
structure Serial (file : SharedFile) (skipped : Holder → Prop) (order : List Holder) (w : Calls) :
    Prop extends Numbered w where
  proper : file.place.Proper
  above : w.files.Above file.place
  reached : ∀ p, file.paths p → w.files.realPath p = .ok (Tree.pathOf file.place)
  current : ∃ now, w.files.node? file.place = some (.file now file.mode) ∧
    order.foldlM file.jobs.replay file.content = some now
  unused : ∀ n, w.names < n → w.files.node? (temporaryPlace file.place (nameOf n)) = none
  once : order.Nodup
  doing : ∀ c ∈ w.calls, ¬ skipped c.id → ∀ job, file.jobs c.id = some job →
    Doing file.place job w c.id (c.id ∈ order) c.activity
  results : ∀ f ∈ w.finished, (file.jobs f.id).isSome →
    (f.id ∈ order ↔ ∃ output, f.result = .ok output)
  members : ∀ id ∈ order, (file.jobs id).isSome ∧ w.Knows id

variable {file : SharedFile} {job : EditJob} {skipped : Holder → Prop} {order : List Holder}
  {w w' : Calls} {c : Call (Except ToolError Output)} {self : Holder}

/-- What nobody touches but the edits; links lead where they did. -/
structure Undisturbed (file : SharedFile) (t t' : Tree) : Prop extends
    Untouched file.place t t' where
  links : ∀ p, file.paths p → t.realPath p = .ok (Tree.pathOf file.place) →
    t'.realPath p = .ok (Tree.pathOf file.place)

theorem Undisturbed.of_eq {t t' : Tree} (h : t' = t) : Undisturbed file t t' :=
  ⟨.of_eq h, h ▸ fun _ _ leads => leads⟩

namespace Serial

theorem plain (serial : Serial file skipped order w) : w.files.Plain file.place := by
  obtain ⟨now, here, _⟩ := serial.current
  refine ⟨serial.proper, serial.above, fun target link => ?_⟩
  rw [here] at link
  cases link

/-- The call that took a step is at something again. -/
theorem whole (serial : Serial file (· = self) order w)
    (mine : ∀ c ∈ w.calls, c.id = self → ∀ job, file.jobs c.id = some job →
      Doing file.place job w c.id (c.id ∈ order) c.activity) :
    Serial file (fun _ => False) order w := by
  refine { serial with doing := fun c h _ => ?_ }
  by_cases eq : c.id = self
  · exact mine c h eq
  · exact serial.doing c h eq

theorem settle {activity : Activity (Except ToolError Output)}
    (serial : Serial file (· = c.id) order w) (mem : c ∈ w.calls)
    (arrived : ∀ job, file.jobs c.id = some job →
      Arrived file.place job w c.id (c.id ∈ order) activity) :
    Serial file (fun _ => False) order (w.settleCall { c with activity := activity }) := by
  have numbered := serial.toNumbered.settle (c := { c with activity := activity }) ⟨c, mem, rfl⟩
  have members : ∀ id ∈ order, (file.jobs id).isSome ∧
      (w.settleCall { c with activity := activity }).Knows id :=
    fun id h => (serial.members id h).imp_right fun knows => knows.settle _
  obtain ⟨result, ends, eq⟩ | ⟨running, eq⟩ := settleCall_cases w { c with activity := activity }
  · rw [eq] at numbered members ⊢
    refine ⟨numbered, serial.proper, serial.above, serial.reached, serial.current, serial.unused,
      serial.once, ?_, ?_, members⟩
    · intro other h _ job hj
      obtain ⟨h, ne⟩ := mem_removeCall serial.ids h
      exact (serial.doing other h ne job hj).same rfl rfl rfl
    · intro f hf own
      rcases List.mem_append.mp hf with hf | hf
      · exact serial.results f hf own
      · cases List.mem_singleton.mp hf
        obtain ⟨job, hj⟩ := Option.isSome_iff_exists.mp own
        exact (arrived job hj).result ends
  · rw [eq] at numbered members ⊢
    refine ⟨numbered, serial.proper, serial.above, serial.reached, serial.current, serial.unused,
      serial.once, ?_, serial.results, members⟩
    intro other h _ job hj
    rcases mem_replaceCall h with rfl | ⟨h, ne⟩
    · exact ((arrived job hj).doing running).same rfl rfl rfl
    · exact (serial.doing other h ne job hj).same rfl rfl rfl

/-- Whatever else happens, the edits stay what they are if it does not touch what they rely on. -/
theorem frame (serial : Serial file (fun _ => False) order w) (frame : Frame self w w')
    (undisturbed : Undisturbed file w.files w'.files) : Serial file (· = self) order w' := by
  refine ⟨serial.toNumbered.congr frame.calls frame.finished frame.lastCall, serial.proper,
    serial.above.congr fun n _ => undisturbed.way n,
    fun p named => undisturbed.links p named (serial.reached p named), ?_, ?_, serial.once, ?_, ?_,
    fun id h => (serial.members id h).imp_right fun knows => knows.congr frame.calls frame.finished⟩
  · rw [undisturbed.here]
    exact serial.current
  · intro n hn
    rw [undisturbed.spares]
    exact serial.unused n (Nat.lt_of_le_of_lt frame.names hn)
  · rw [frame.calls]
    intro c h ne job hj
    exact (serial.doing c h id job hj).congr undisturbed.toUntouched frame.names
      (frame.locks _ _ ne) .rfl
  · rw [frame.finished]
    exact serial.results

section Inside

variable {e : Errand} {stage stage' : Stage} {order' : List Holder}

theorem unused_of_inside (serial : Serial file (fun _ => False) order w)
    (inside : Inside file.place job w c.id (c.id ∈ order) e stage) (frame : Frame c.id w w')
    (confined : e.Confined stage w.files w'.files) :
    ∀ n, w'.names < n → w'.files.node? (temporaryPlace file.place (nameOf n)) = none := by
  intro n hn
  obtain ⟨now, here, _⟩ := serial.current
  have free := serial.unused n (Nat.lt_of_le_of_lt frame.names hn)
  rw [confined, free]
  · intro eq
    rw [eq, inside.errand.1, here] at free
    cases free
  · intro fresh h eq
    obtain ⟨m, le, rfl⟩ := inside.given fresh h
    rw [Errand.spare, inside.errand.1] at eq
    have := nameOf_inj (temporaryPlace_inj eq)
    have := frame.names
    omega

theorem reached_of_inside (serial : Serial file (fun _ => False) order w)
    (inside : Inside file.place job w c.id (c.id ∈ order) e stage)
    (confined : e.Confined stage w.files w'.files)
    (stays : ∃ content mode, w'.files.node? file.place = some (.file content mode)) :
    ∀ p, file.paths p → w'.files.realPath p = .ok (Tree.pathOf file.place) := by
  intro p named
  obtain ⟨now, here, _⟩ := serial.current
  have keeps := confined.keeps inside.fits (inside.errand.1 ▸ here)
  exact Tree.realPath_of_keeps keeps serial.proper stays (serial.reached p named)

/-- A step of the call that has the lock is one of all the edits, if what it makes of the file is
what comes of the edits that stand in it then. -/
theorem advance (serial : Serial file (fun _ => False) order w) (mem : c ∈ w.calls)
    (hj : file.jobs c.id = some job)
    (inside : Inside file.place job w c.id (c.id ∈ order) e stage) (frame : Frame c.id w w')
    (confined : e.Confined stage w.files w'.files)
    (current : ∃ now, w'.files.node? file.place = some (.file now file.mode) ∧
      order'.foldlM file.jobs.replay file.content = some now)
    (once : order'.Nodup) (others : ∀ id, id ≠ c.id → (id ∈ order' ↔ id ∈ order)) :
    Serial file (· = c.id) order' w' := by
  have numbered := serial.toNumbered.congr frame.calls frame.finished frame.lastCall
  have way := confined.way inside.fits
  rw [inside.errand.1] at way
  have stays : ∃ content mode, w'.files.node? file.place = some (.file content mode) := by
    obtain ⟨now, here, _⟩ := current
    exact ⟨now, file.mode, here⟩
  refine ⟨numbered, serial.proper, serial.above.congr way,
    serial.reached_of_inside inside confined stays, current,
    serial.unused_of_inside inside frame confined, once, ?_, ?_, ?_⟩
  · rw [frame.calls]
    intro other h ne job hj
    -- the others wait, so they rely on nothing that this step touches
    exact (serial.doing other h id job hj).outside inside.held ne (others other.id ne).mp
  · rw [frame.finished]
    intro f hf own
    have ne := (serial.ended f hf).2 c mem
    exact (others f.id ne.symm).trans (serial.results f hf own)
  · intro id h
    by_cases eq : id = c.id
    · refine ⟨eq ▸ Option.isSome_iff_exists.mpr ⟨job, hj⟩, .inl ?_⟩
      rw [frame.calls, eq]
      exact List.mem_map_of_mem mem
    · obtain ⟨own, knows⟩ := serial.members id ((others id eq).mp h)
      exact ⟨own, knows.congr frame.calls frame.finished⟩

/-- A step of the call that has the lock. -/
theorem inside (serial : Serial file (fun _ => False) order w) (mem : c ∈ w.calls)
    (hj : file.jobs c.id = some job)
    (inside : Inside file.place job w c.id (c.id ∈ order) e stage) (frame : Frame c.id w w')
    (alters : e.Alters stage stage' w.files w'.files)
    (confined : e.Confined stage w.files w'.files) :
    ∃ order', Serial file (· = c.id) order' w' ∧ (c.id ∈ order' ↔ stage'.Committed) := by
  obtain ⟨now, here, replayed⟩ := serial.current
  have ⟨⟨placed, raw, understands⟩, _, _, _, commits⟩ := inside
  cases alters with
  | same same iff =>
    rw [placed, here] at same
    have serial' := serial.advance mem hj inside frame confined ⟨now, same, replayed⟩ serial.once
      fun _ _ => .rfl
    exact ⟨order, serial', commits.trans iff.symm⟩
  | commit change mode ready here' before after =>
    have fresh : c.id ∉ order := before ∘ commits.mp
    have known := ready.here
    rw [placed, here] at known
    obtain ⟨rfl, rfl⟩ := Node.file.inj (Option.some.inj known)
    have replays : file.jobs.replay (utf8Bytes change.before) c.id = some (utf8 change.after) := by
      simp [EditJobs.replay, hj, edited, understands, Except.toOption, ready.edited]
    have current : ∃ now, w'.files.node? file.place = some (.file now file.mode) ∧
        (order ++ [c.id]).foldlM file.jobs.replay file.content = some now := by
      refine ⟨_, placed ▸ here', ?_⟩
      rw [List.foldlM_append, replayed]
      simp [replays]
    have once : (order ++ [c.id]).Nodup := by
      refine List.nodup_append.mpr ⟨serial.once, List.nodup_singleton _, ?_⟩
      rintro id h _ mem rfl
      exact fresh (List.mem_singleton.mp mem ▸ h)
    have serial' := serial.advance mem hj inside frame confined current once fun id ne => by
      simp [ne]
    exact ⟨order ++ [c.id], serial', iff_of_true (by simp) after⟩

end Inside

end Serial

end CodeIntel
