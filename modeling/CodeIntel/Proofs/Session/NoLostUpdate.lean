import CodeIntel.Proofs.Basic
import CodeIntel.Proofs.Session.OwnStep
import Mathlib.Logic.Relation

namespace CodeIntel

section Turns

open EditFile World

variable {file : SharedFile} {order : List Holder} {w w' : Calls}
  {c : Call (Except ToolError Output)}

/-- What may happen next where several calls edit a file: one of them takes a step or an operation
of it fails, it fills a file in part, another call takes a step that leaves alone what the edits
rely on, a call is cancelled or starts, or time passes and others use the files and the server. -/
inductive Turn (file : SharedFile) : Calls → Calls → Prop
  | edit {w : Calls} (id : Holder) (abortFirst : Bool) (own : (file.jobs id).isSome)
      (names : ∀ c, w.call? id = some c → Names file w c) : Turn file w (w.step abortFirst id).1
  | reply {w : Calls} {c : Call (Except ToolError Output)} {q : Ask} {next : q.Reply → Steps}
      {reply : q.Reply} {t : Tree} (mem : c ∈ w.calls) (own : (file.jobs c.id).isSome)
      (activity : c.activity = .calling (.ask q next)) (onFiles : (w.fileReply q).isSome)
      (answers : Answers ⟨w.cwd, fun _ => true, False⟩ (fun _ => False) c.cancelled w.files q reply t)
      (names : Names file w c) :
      Turn file w
        (({ w with files := t } : Calls).settleCall { c with activity := .calling (next reply) })
  | part {w : Calls} {c : Call (Except ToolError Output)} {p : Path} {text : String}
      {next : Except FileError Unit → Steps} {part : List UInt8} {t : Tree} (mem : c ∈ w.calls)
      (own : (file.jobs c.id).isSome) (activity : c.activity = .calling (.ask (.write p text) next))
      (isPart : part <+: utf8Bytes text) (written : w.files.write (w.cwd.join p) part = .ok t) :
      Turn file w { w with files := t }
  | other {w : Calls} (id : Holder) (abortFirst : Bool) (foreign : file.jobs id = none)
      (undisturbed : Undisturbed file w.files (w.step abortFirst id).1.files) :
      Turn file w (w.step abortFirst id).1
  | cancel {w : Calls} (id : Holder) : Turn file w (w.cancel id)
  | start {w : Calls} (activity : Activity (Except ToolError Output)) (cancelled : Bool)
      (begins : ∀ job, file.jobs (w.lastCall + 1) = some job →
        activity = .calling (run job.caller job.json).run) :
      Turn file w (w.start activity cancelled).1
  | pass {w : Calls} (now : Nat) (files : Tree) (backend : Backend)
      (undisturbed : Undisturbed file w.files files) :
      Turn file w { w with now := now, files := files, backend := backend }

/-- The calls before any edit of the file has begun. -/
structure Gathered (file : SharedFile) (w : Calls) : Prop extends Numbered w where
  proper : file.place.Proper
  above : w.files.Above file.place
  here : w.files.node? file.place = some (.file file.content file.mode)
  reached : ∀ p, file.paths p → w.files.realPath p = .ok (Tree.pathOf file.place)
  unused : ∀ n, w.names < n → w.files.node? (temporaryPlace file.place (nameOf n)) = none
  begin : ∀ c ∈ w.calls, ∀ job, file.jobs c.id = some job →
    c.activity = .calling (run job.caller job.json).run
  early : ∀ f ∈ w.finished, file.jobs f.id = none

theorem Gathered.serial (gathered : Gathered file w) : Serial file (fun _ => False) [] w := by
  refine ⟨gathered.toNumbered, gathered.proper, gathered.above, gathered.reached,
    ⟨file.content, gathered.here, rfl⟩, gathered.unused, .nil, ?_, ?_, nofun⟩
  · intro c h _ job hj
    rw [gathered.begin c h job hj]
    exact doing_run (by simp)
  · intro f hf own
    rw [gathered.early f hf] at own
    cases own

namespace Serial

theorem edit {id : Holder} (serial : Serial file (fun _ => False) order w)
    (own : (file.jobs id).isSome) (names : ∀ c, w.call? id = some c → Names file w c)
    (abortFirst : Bool) :
    ∃ order', Serial file (fun _ => False) order' (w.step abortFirst id).1 := by
  cases found : w.call? id with
  | none => exact ⟨order, (step_of_none found abortFirst).symm ▸ serial⟩
  | some c =>
    obtain ⟨mem, rfl⟩ := mem_of_call? found
    obtain ⟨job, hj⟩ := Option.isSome_iff_exists.mp own
    obtain ⟨order', serial', arrived⟩ := serial.own mem hj (names c found) abortFirst
    have there : c ∈ (w.stepActivity abortFirst c).1.calls :=
      (frame_stepActivity w abortFirst c).calls ▸ mem
    rw [step_of_call? found]
    refine ⟨order', serial'.settle there ?_⟩
    intro job' hj'
    cases hj.symm.trans hj'
    exact arrived

theorem other {id : Holder} (serial : Serial file (fun _ => False) order w)
    (foreign : file.jobs id = none) (abortFirst : Bool)
    (undisturbed : Undisturbed file w.files (w.step abortFirst id).1.files) :
    Serial file (fun _ => False) order (w.step abortFirst id).1 := by
  cases found : w.call? id with
  | none => exact (step_of_none found abortFirst).symm ▸ serial
  | some c =>
    obtain ⟨mem, rfl⟩ := mem_of_call? found
    have frame := frame_stepActivity w abortFirst c
    have there : c ∈ (w.stepActivity abortFirst c).1.calls := frame.calls ▸ mem
    rw [step_of_call? found] at undisturbed ⊢
    rw [files_settleCall] at undisturbed
    refine (serial.frame frame undisturbed).settle there ?_
    intro job hj
    cases foreign.symm.trans hj

/-- An operation on files of a call that edits the file comes about or fails. -/
theorem onFiles {q : Ask} {next : q.Reply → Steps} {reply : q.Reply} {t : Tree}
    (serial : Serial file (fun _ => False) order w) (mem : c ∈ w.calls)
    (own : (file.jobs c.id).isSome) (activity : c.activity = .calling (.ask q next))
    (onFiles : (w.fileReply q).isSome)
    (answers : Answers ⟨w.cwd, fun _ => true, False⟩ (fun _ => False) c.cancelled w.files q reply t)
    (names : Names file w c) :
    ∃ order', Serial file (fun _ => False) order'
      (({ w with files := t } : Calls).settleCall { c with activity := .calling (next reply) }) := by
  obtain ⟨job, hj⟩ := Option.isSome_iff_exists.mp own
  obtain ⟨⟨w', reply'⟩, eq⟩ := Option.isSome_iff_exists.mp onFiles
  have locks : Locks c.id w { w with files := t } q reply := by
    cases q with
    | enterFile => cases eq
    | leaveFile => cases eq
    | _ => exact rfl
  obtain ⟨order', serial', arrived⟩ := serial.replied mem hj activity (frame_files w c.id t) locks
    (answers.mono nofun) (by
      rintro p rfl
      exact names p next activity)
  refine ⟨order', serial'.settle mem ?_⟩
  intro job' hj'
  cases hj.symm.trans hj'
  exact arrived

/-- Whoever cancels a call, the edits stay what they are. -/
theorem cancel (serial : Serial file (fun _ => False) order w) (id : Holder) :
    Serial file (fun _ => False) order (w.cancel id) := by
  refine ⟨serial.toNumbered.cancel id, serial.proper, serial.above, serial.reached, serial.current,
    serial.unused, serial.once, ?_, serial.results, ?_⟩
  · intro c h _ job hj
    obtain ⟨old, mem, same, activity⟩ := mem_cancel h
    rw [← activity, ← same]
    exact (serial.doing old mem nofun job (same ▸ hj)).same rfl rfl rfl
  · intro other h
    refine (serial.members other h).imp_right (Or.imp_left fun calls => ?_)
    rwa [ids_cancel]

theorem start (serial : Serial file (fun _ => False) order w)
    (activity : Activity (Except ToolError Output)) (cancelled : Bool)
    (begins : ∀ job, file.jobs (w.lastCall + 1) = some job →
      activity = .calling (run job.caller job.json).run) :
    Serial file (fun _ => False) order (w.start activity cancelled).1 := by
  refine ⟨serial.toNumbered.start activity cancelled, serial.proper, serial.above, serial.reached,
    serial.current, serial.unused, serial.once, ?_, serial.results, ?_⟩
  · intro c h _ job hj
    rcases List.mem_append.mp h with h | h
    · exact (serial.doing c h id job hj).same rfl rfl rfl
    · cases List.mem_singleton.mp h
      rw [begins job hj]
      refine doing_run fun there => ?_
      exact Nat.not_succ_le_self _ (serial.le_lastCall (serial.members _ there).2)
  · intro id h
    refine (serial.members id h).imp_right (Or.imp_left fun calls => ?_)
    simp only [World.start, List.map_append]
    exact List.mem_append_left _ calls

theorem pass {now : Nat} {files : Tree} {backend : Backend}
    (serial : Serial file (fun _ => False) order w) (undisturbed : Undisturbed file w.files files) :
    Serial file (fun _ => False) order
      { w with now := now, files := files, backend := backend } := by
  have frame : Frame (w.lastCall + 1) w
      { w with now := now, files := files, backend := backend } :=
    ⟨rfl, rfl, rfl, rfl, Nat.le_refl _, fun _ _ _ held => held⟩
  refine (serial.frame frame undisturbed).whole fun c h new => ?_
  exact absurd (new ▸ serial.known c h) (Nat.not_succ_le_self _)

theorem turn (serial : Serial file (fun _ => False) order w) (turn : Turn file w w') :
    ∃ order', Serial file (fun _ => False) order' w' := by
  cases turn with
  | edit id abortFirst own names => exact serial.edit own names abortFirst
  | reply mem own activity onFiles answers names =>
    exact serial.onFiles mem own activity onFiles answers names
  | part mem own activity _ written =>
    obtain ⟨job, hj⟩ := Option.isSome_iff_exists.mp own
    exact serial.part mem hj activity written
  | other id abortFirst foreign undisturbed =>
    exact ⟨order, serial.other foreign abortFirst undisturbed⟩
  | cancel id => exact ⟨order, serial.cancel id⟩
  | start activity cancelled begins => exact ⟨order, serial.start activity cancelled begins⟩
  | pass now files backend undisturbed => exact ⟨order, serial.pass undisturbed⟩

theorem of_turns {w₀ : Calls} (gathered : Gathered file w₀)
    (turns : Relation.ReflTransGen (Turn file) w₀ w) :
    ∃ order, Serial file (fun _ => False) order w := by
  induction turns with
  | refl => exact ⟨[], gathered.serial⟩
  | tail _ turn ih =>
    obtain ⟨order, serial⟩ := ih
    exact serial.turn turn

end Serial

end Turns

open EditFile World

variable {file : SharedFile} {w w₀ : Calls}

/-- The calls take steps in this order. -/
def inTurn (w : Calls) (schedule : List Holder) : Calls :=
  schedule.foldl (fun w id => (w.step false id).1) w

/-- Whether a call asks about none but these paths. -/
def asksOnly (paths : List Path) (w : Calls) (c : Call (Except ToolError Output)) : Bool :=
  match c.activity with
  | .calling (.ask (.realPath p) _) => paths.contains (w.cwd.join p)
  | _ => true

theorem names_of_asksOnly {paths : List Path} {c : Call (Except ToolError Output)}
    (mem : ∀ p ∈ paths, file.paths p) (h : asksOnly paths w c = true) : Names file w c := by
  intro p next activity
  rw [asksOnly, activity] at h
  exact mem _ (List.contains_iff_mem.mp h)

/-- Whether the calls ask about none but these paths on the way. -/
def allAskOnly (paths : List Path) (w : Calls) : List Holder → Bool
  | [] => true
  | id :: schedule =>
    (w.call? id).all (asksOnly paths w) && allAskOnly paths (w.step false id).1 schedule

theorem turns_inTurn {paths : List Path} {schedule : List Holder}
    (own : ∀ id ∈ schedule, (file.jobs id).isSome) (mem : ∀ p ∈ paths, file.paths p)
    (all : allAskOnly paths w schedule = true) :
    Relation.ReflTransGen (Turn file) w (inTurn w schedule) := by
  induction schedule generalizing w with
  | nil => exact .refl
  | cons id schedule ih =>
    obtain ⟨first, rest⟩ := Bool.and_eq_true_iff.mp all
    have named : ∀ c, w.call? id = some c → Names file w c := by
      intro c called
      rw [called] at first
      exact names_of_asksOnly mem first
    have turn := Turn.edit id false (own id List.mem_cons_self) named
    exact .head turn (ih (fun other h => own other (List.mem_cons_of_mem id h)) rest)

/-- The file holds what comes of the edits of the calls that succeed, one after the other, each
made on what the one before it left. The other calls contribute nothing. -/
theorem no_update_is_lost (gathered : Gathered file w₀)
    (turns : Relation.ReflTransGen (Turn file) w₀ w) :
    ∃ (order : List Holder) (now : List UInt8),
      order.Nodup ∧ w.files.node? file.place = some (.file now file.mode) ∧
      order.foldlM file.jobs.replay file.content = some now ∧
      (∀ f ∈ w.finished, (file.jobs f.id).isSome →
        (f.id ∈ order ↔ ∃ output, f.result = .ok output)) ∧
      (∀ id ∈ order, (file.jobs id).isSome ∧ w.Knows id) ∧
      ((∀ c ∈ w.calls, file.jobs c.id = none) → ∀ id, id ∈ order ↔
        (file.jobs id).isSome ∧ ∃ f ∈ w.finished, f.id = id ∧ ∃ output, f.result = .ok output) := by
  obtain ⟨order, serial⟩ := Serial.of_turns gathered turns
  obtain ⟨now, here, replayed⟩ := serial.current
  refine ⟨order, now, serial.once, here, replayed, serial.results, serial.members, ?_⟩
  intro ended id
  constructor
  · intro h
    obtain ⟨own, calls | finished⟩ := serial.members id h
    · obtain ⟨c, mem, rfl⟩ := List.mem_map.mp calls
      rw [ended c mem] at own
      cases own
    · obtain ⟨f, hf, rfl⟩ := List.mem_map.mp finished
      exact ⟨own, f, hf, rfl, (serial.results f hf own).mp h⟩
  · rintro ⟨own, f, hf, rfl, output, ok⟩
    exact (serial.results f hf own).mpr ⟨output, ok⟩

theorem edits_through_link_and_path_both_stand :
    let line (n : Nat) (text : String) : Json := .object
      [("endLine", .nat n), ("newText", .string text), ("startLine", .nat n)]
    let edit (n : Nat) (text path : String) : EditJob := ⟨⟨⟨.ofString "/", .ofString "/"⟩, 3⟩,
      .object [("edits", .array [line n text]), ("filePath", .string path)]⟩
    let jobs : EditJobs := fun id => [(1, edit 1 "x\n" "/l"), (2, edit 2 "y" "/f")].lookup id
    let paths := [Path.ofString "/l", Path.ofString "/f"]
    let file : SharedFile := ⟨[[0x66]], (· ∈ paths), jobs, [0x61, 0x0A, 0x62], 0o600⟩
    let t : Tree := ⟨[([[0x66]], .file [0x61, 0x0A, 0x62] 0o600), ([[0x6C]], .link ⟨[0x66]⟩)]⟩
    let calls : List (Call (Except ToolError Output)) := [1, 2].map fun id =>
      ⟨id, false, .calling (((jobs id).map fun job => (run job.caller job.json).run).getD
        (.done (.error .cancelled)))⟩
    let w : Calls := { World.new t (.ofString "/") (.standIn ⟨0, fun _ => .error (.process ""), []⟩)
      with lastCall := 2, calls := calls }
    ∃ w', Gathered file w ∧ Relation.ReflTransGen (Turn file) w w' ∧ w'.calls = [] ∧
      w'.files.node? [[0x66]] = some (.file [0x78, 0x0A, 0x79] 0o600) ∧
      ∃ (order : List Holder), order.foldlM jobs.replay [0x61, 0x0A, 0x62] =
        some [0x78, 0x0A, 0x79] ∧ 1 ∈ order ∧ 2 ∈ order := by
  intro line edit jobs paths file t calls w
  have lead : ∀ p ∈ paths, (t.realPath p).toOption = some (Tree.pathOf [[0x66]]) := by
    decide +kernel
  have gathered : Gathered file w := by
    refine ⟨⟨by decide, by decide, nofun⟩, by decide, by decide, rfl, ?_, ?_, ?_, nofun⟩
    · exact fun p named => toOption_eq_some_iff.mp (lead p named)
    · exact fun n _ => Tree.node?_temporaryPlace (by decide)
    · intro c h job hj
      rcases List.mem_pair.mp h with rfl | rfl
      · cases hj
        rfl
      · cases hj
        rfl
  let schedule : List Holder := (List.replicate 30 [2, 1]).flatten
  have turns : Relation.ReflTransGen (Turn file) w (inTurn w schedule) :=
    turns_inTurn (by decide +kernel) (fun _ h => h) (by decide +kernel)
  have ended : (inTurn w schedule).calls = [] := List.isEmpty_iff.mp (by decide +kernel)
  have now : (inTurn w schedule).files.node? [[0x66]] = some (.file [0x78, 0x0A, 0x79] 0o600) := by
    decide +kernel
  have succeed : ∀ id ∈ [1, 2], (jobs id).isSome ∧ ∃ f ∈ (inTurn w schedule).finished,
      f.id = id ∧ f.result.isOk = true := by
    decide +kernel
  obtain ⟨order, left, _, here, replayed, _, _, final⟩ := no_update_is_lost gathered turns
  have stand : ∀ id ∈ [1, 2], id ∈ order := by
    intro id h
    obtain ⟨own, f, mem, same, ok⟩ := succeed id h
    exact (final (by simp [ended]) id).mpr ⟨own, f, mem, same, isOk_iff.mp ok⟩
  cases now.symm.trans here
  exact ⟨_, gathered, turns, ended, now, order, replayed, stand 1 (by simp), stand 2 (by simp)⟩

end CodeIntel
