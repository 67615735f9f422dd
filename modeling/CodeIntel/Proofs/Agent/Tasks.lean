import CodeIntel.Proofs.Agent.Account
import Mathlib.Logic.Hydra

namespace CodeIntel.Agent.Serving

variable {server : Server} {input : List UInt8} {s s' : Serving} {answer : Nat → Option Response}
  {extra : List Response} {t t' : Task} {before after : List Task}

theorem mem_middle {u : Task} : u ∈ before ++ t :: after ↔ u = t ∨ u ∈ before ++ after := by
  rw [List.perm_middle.mem_iff, List.mem_cons]

namespace Account

/-- The other tasks have other numbers. -/
theorem number_ne {u : Task} (account : s.Account input answer extra)
    (tasks : s.tasks = before ++ t :: after) (mem : u ∈ before ++ after) : u.number ≠ t.number := by
  have numbers := account.numbers
  rw [tasks, List.perm_middle.map _ |>.nodup_iff, List.map_cons, List.nodup_cons] at numbers
  intro same
  exact numbers.1 (same ▸ List.mem_map_of_mem mem)

theorem mem_task (tasks : s.tasks = before ++ t :: after) : t ∈ s.tasks :=
  tasks ▸ List.mem_append_right before List.mem_cons_self

/-- The work on a request goes on, and no response comes of it yet. -/
theorem replace {c : Conversation} {history : List Happening}
    (account : s.Account input answer extra) (tasks : s.tasks = before ++ t :: after) (t' : Task)
    (number : t'.number = t.number) (id : t'.id = t.id)
    (reading : ∀ done, Reading input done s.coming s.conversation extra →
      Reading input done s.coming c extra)
    (written : c.written = s.conversation.written) (jobs : c.jobs = s.conversation.jobs)
    (tripped : ∀ k, Tripped history k ↔ Tripped s.history k)
    (belongs : Belongs s.lines history t')
    (others : ∀ u ∈ before ++ after, Belongs s.lines s.history u → Belongs s.lines history u)
    (inFlight : ∀ e ∈ c.inFlight, ∃ u ∈ before ++ t' :: after, u.id = e.1 ∧ u.number = e.2 ∧
      u.IsHandling)
    (names : (c.inFlight.map Prod.fst).Nodup)
    (known : ∀ k, .released k ∈ history → k < s.lines.length)
    (cancelled : ∀ j k rest, .took j (some k) :: rest <:+ history →
      .took j (some k) :: rest <:+ s.history) :
    ({ s with conversation := c, tasks := before ++ t' :: after, history := history } :
      Serving).Account input answer extra := by
  have numbers : (before ++ t' :: after).map Task.number = s.tasks.map Task.number := by
    simp [tasks, number]
  have there : ∀ k, (∃ u ∈ before ++ t' :: after, u.number = k) ↔ ∃ u ∈ s.tasks, u.number = k := by
    intro k
    rw [← List.mem_map, ← List.mem_map, numbers]
  obtain ⟨done, read, old⟩ := account.reading
  refine ⟨⟨done, read, reading done old⟩, account.later, ?_, written ▸ account.written, ?_,
    numbers ▸ account.numbers, ?_, inFlight, names, known, ?_, written ▸ account.flushed⟩
  · intro k line found
    rcases account.owed k line found with ⟨under, unanswered⟩ | ⟨gone, owed⟩
    · exact .inl ⟨(there k).mpr under, unanswered⟩
    · refine .inr ⟨?_, ?_⟩
      · intro u mem eq
        obtain ⟨u', mem', eq'⟩ := (there k).mp ⟨u, mem, eq⟩
        exact gone u' mem' eq'
      · rw [propext (tripped k)]
        exact owed
  · rw [jobs, account.jobs, tasks]
    simp [number, id]
  · intro u mem
    rcases mem_middle.mp mem with rfl | mem
    · exact belongs
    · exact others u mem (account.belongs u (tasks ▸ mem_middle.mpr (.inr mem)))
  · exact fun j k rest suffix => account.cancelled j k rest (cancelled j k rest suffix)

theorem tell {q : Ask} {next : q.Reply → CallPlan Response} (account : s.Account input answer extra)
    (tasks : s.tasks = before ++ t :: after) (asks : t.progress = .handling (.ask q next))
    (reply : q.Reply) :
    ({ s with tasks := before ++ { t with progress := .handling (next reply) } :: after } :
      Serving).Account input answer extra := by
  have belongs := account.belongs t (mem_task tasks)
  have handling : t.IsHandling := ⟨_, asks⟩
  have faithful : (Plan.ask q next).Outcomes (Response.Answers t.id) := by
    have faithful := belongs.faithful
    unfold Task.IsFaithful at faithful
    rwa [asks] at faithful
  refine account.replace tasks { t with progress := .handling (next reply) } rfl rfl
    (fun _ same => same) rfl rfl (fun _ => .rfl)
    ⟨belongs.made, faithful reply, belongs.tripped, fun _ => belongs.inFlight handling⟩
    (fun _ _ same => same) ?_ account.names account.known (fun _ _ _ same => same)
  intro e mem
  obtain ⟨u, there, id, number, plan⟩ := account.inFlight e mem
  rw [tasks] at there
  rcases mem_middle.mp there with rfl | other
  · exact ⟨_, mem_middle.mpr (.inl rfl), id, number, _, rfl⟩
  · exact ⟨u, mem_middle.mpr (.inr other), id, number, plan⟩

theorem jobs_nodup (account : s.Account input answer extra) :
    (s.conversation.jobs.map Prod.fst).Nodup := by
  rw [account.jobs, List.map_map]
  exact account.numbers

theorem released_eq (account : s.Account input answer extra)
    (tasks : s.tasks = before ++ t :: after) :
    s.conversation.released t.number =
      { s.conversation with inFlight := s.conversation.inFlight.eraseP fun e => e.1 = t.id } := by
  have job : (t.number, t.id) ∈ s.conversation.jobs :=
    account.jobs ▸ List.mem_map_of_mem (mem_task tasks)
  unfold Conversation.released
  split
  next none =>
    have other := List.find?_eq_none.mp none _ job
    simp at other
  next number id first =>
    have same : number = t.number := by simpa using List.find?_some first
    subst same
    have eq := List.inj_on_of_nodup_map account.jobs_nodup (List.mem_of_find?_eq_some first) job rfl
    cases eq
    rfl

theorem release {response : Response} (account : s.Account input answer extra)
    (tasks : s.tasks = before ++ t :: after) (done : t.progress = .handling (.done response)) :
    ({ s with
      conversation := s.conversation.released t.number
      tasks := before ++ { t with progress := .released response } :: after
      history := .released t.number :: s.history } : Serving).Account input answer extra := by
  have belongs := account.belongs t (mem_task tasks)
  have faithful : response.Answers t.id := by
    have faithful := belongs.faithful
    unfold Task.IsFaithful at faithful
    rwa [done] at faithful
  rw [account.released_eq tasks]
  refine account.replace tasks { t with progress := .released response } rfl rfl ?_ rfl rfl
    (fun k => tripped_released) ?_ ?_ ?_ ?_ ?_ ?_
  · exact fun _ reading => reading.congr rfl rfl rfl rfl
  · exact ⟨belongs.made, faithful, belongs.tripped.trans tripped_released.symm, nofun⟩
  · intro u mem belongs
    refine ⟨belongs.made, belongs.faithful, belongs.tripped.trans tripped_released.symm, ?_⟩
    exact fun handling => (belongs.inFlight handling).released (account.number_ne tasks mem)
  · intro e mem
    obtain ⟨mem, other⟩ := mem_eraseP_of_nodup_map account.names mem
    obtain ⟨u, there, id, number, plan⟩ := account.inFlight e mem
    rw [tasks] at there
    rcases mem_middle.mp there with rfl | there
    · exact absurd id.symm other
    · exact ⟨u, mem_middle.mpr (.inr there), id, number, plan⟩
  · exact account.names.sublist (List.eraseP_sublist.map _)
  · intro k mem
    rcases List.mem_cons.mp mem with same | mem
    · cases same
      exact account.number_lt (mem_task tasks)
    · exact account.known k mem
  · intro j k rest suffix
    rcases List.suffix_cons_iff.mp suffix with same | suffix
    · cases same
    · exact suffix

theorem answered_eq (account : s.Account input answer extra)
    (tasks : s.tasks = before ++ t :: after) (response : Response) :
    s.conversation.answered t.number t.tripped response =
      { s.conversation with
        jobs := (before ++ after).map fun t => (t.number, t.id)
        written := s.conversation.written ++ if t.tripped then [] else [response] } := by
  have apart : ∀ j ∈ before.map fun t => (t.number, t.id), ¬ (decide (j.1 = t.number) = true) := by
    intro j mem
    obtain ⟨u, there, rfl⟩ := List.mem_map.mp mem
    simpa using account.number_ne tasks (List.mem_append_left after there)
  have jobs : (s.conversation.jobs.eraseP fun j => j.1 = t.number) =
      (before ++ after).map fun t => (t.number, t.id) := by
    rw [account.jobs, tasks, List.map_append, List.map_cons, List.eraseP_append_right _ apart,
      List.eraseP_cons_of_pos (by simp), List.map_append]
  have here : (s.conversation.jobs.any fun j => j.1 = t.number) = true := by
    rw [account.jobs, List.any_map]
    exact List.any_eq_true.mpr ⟨t, mem_task tasks, by simp⟩
  unfold Conversation.answered
  rw [if_pos here]
  simp only [jobs]
  cases t.tripped <;> simp [Conversation.write]

theorem answered {response : Response} (account : s.Account input answer extra)
    (tasks : s.tasks = before ++ t :: after) (released : t.progress = .released response) :
    ∃ answer', ({ s with
      conversation := s.conversation.answered t.number t.tripped response
      tasks := before ++ after } : Serving).Account input answer' extra := by
  have belongs := account.belongs t (mem_task tasks)
  have faithful : response.Answers t.id := by
    have faithful := belongs.faithful
    unfold Task.IsFaithful at faithful
    rwa [released] at faithful
  obtain ⟨line, method, params, found, meaning⟩ := belongs.made
  have less := account.number_lt (mem_task tasks)
  have unanswered : answer t.number = none := by
    rcases account.owed t.number line found with ⟨_, unanswered⟩ | ⟨gone, _⟩
    · exact unanswered
    · exact absurd rfl (gone t (mem_task tasks))
  have owes := owes_lineMeaning line
  rw [meaning] at owes
  let r? := if t.tripped then none else some response
  have owed : Owed (Tripped s.history t.number) line r? := by
    cases tripped : t.tripped with
    | true =>
      simp only [r?, tripped, if_true]
      exact owes.1 _ (belongs.tripped.mp tripped)
    | false =>
      simp only [r?, tripped]
      refine owes.2 _ response (fun yes => ?_) faithful
      rw [belongs.tripped.mpr yes] at tripped
      cases tripped
  rw [account.answered_eq tasks]
  obtain ⟨done, read, reading⟩ := account.reading
  refine ⟨Function.update answer t.number r?, ⟨done, read, reading.congr rfl rfl rfl rfl⟩, ?_, ?_,
    ?_, rfl, ?_, ?_, ?_, account.names, account.known, account.cancelled, ?_⟩
  · intro k le
    rw [Function.update_of_ne (Nat.ne_of_gt (Nat.lt_of_lt_of_le less le))]
    exact account.later k le
  · intro k other found'
    by_cases same : k = t.number
    · subst same
      cases found.symm.trans found'
      rw [Function.update_self]
      exact .inr ⟨fun u mem => account.number_ne tasks mem, owed⟩
    · rw [Function.update_of_ne same]
      rcases account.owed k other found' with ⟨⟨u, mem, number⟩, unanswered⟩ | ⟨gone, owed⟩
      · rw [tasks] at mem
        rcases mem_middle.mp mem with rfl | mem
        · exact absurd number.symm same
        · exact .inl ⟨⟨u, mem, number⟩, unanswered⟩
      · refine .inr ⟨fun u mem => gone u ?_, owed⟩
        exact tasks ▸ mem_middle.mpr (.inr mem)
  · cases tripped : t.tripped with
    | true =>
      have same : Function.update answer t.number none = answer := by
        rw [← unanswered, Function.update_eq_self]
      simp only [r?, tripped, if_true, same, List.append_nil]
      exact account.written
    | false =>
      simp only [r?, tripped]
      refine (account.written.append_right [response]).trans ?_
      refine List.perm_append_comm.trans ?_
      exact (perm_update less unanswered).symm.append_right extra
  · have numbers := account.numbers
    rw [tasks, List.perm_middle.map _ |>.nodup_iff, List.map_cons, List.nodup_cons] at numbers
    exact numbers.2
  · exact fun u mem => account.belongs u (tasks ▸ mem_middle.mpr (.inr mem))
  · intro e mem
    obtain ⟨u, there, id, number, plan, handling⟩ := account.inFlight e mem
    rw [tasks] at there
    rcases mem_middle.mp there with rfl | there
    · cases released.symm.trans handling
    · exact ⟨u, there, id, number, plan, handling⟩
  · rw [List.length_append]
    exact Nat.le_add_right_of_le account.flushed

theorem flush (account : s.Account input answer extra)
    (more : s.flushed < s.conversation.written.length) :
    ({ s with flushed := s.flushed + 1 } : Serving).Account input answer extra :=
  { account with flushed := more }

theorem step (account : s.Account input answer extra) (step : Step server s s') :
    ∃ answer' extra', s'.Account input answer' extra' := by
  cases step with
  | come listening more some => exact ⟨answer, extra, account.come listening more some⟩
  | close listening all still => exact ⟨answer, extra, account.close listening all⟩
  | read found => exact account.read found server
  | tell tasks asks reply => exact ⟨answer, extra, account.tell tasks asks reply⟩
  | release tasks done => exact ⟨answer, extra, account.release tasks done⟩
  | answer tasks released =>
    obtain ⟨answer', account'⟩ := account.answered tasks released
    exact ⟨answer', extra, account'⟩
  | flush more => exact ⟨answer, extra, account.flush more⟩

theorem of_run (run : Run server input s) : ∃ answer extra, s.Account input answer extra := by
  induction run with
  | refl => exact ⟨fun _ => none, [], account_start input⟩
  | tail _ step ih =>
    obtain ⟨answer, extra, account⟩ := ih
    exact account.step step

end Account

end CodeIntel.Agent.Serving

namespace CodeIntel.Agent

open Relation

/-- The steps that bring the work on a request nearer to its end. -/
inductive Progress.Nearer : Progress → Progress → Prop
  | told {q : Ask} (next : q.Reply → CallPlan Response) (reply : q.Reply) :
      Nearer (.handling (next reply)) (.handling (.ask q next))
  | released (plan : CallPlan Response) (response : Response) :
      Nearer (.released response) (.handling plan)

theorem Progress.wellFounded_nearer : WellFounded Progress.Nearer := by
  have released : ∀ response, Acc Nearer (.released response) := fun response =>
    ⟨_, fun _ nearer => by cases nearer⟩
  refine ⟨fun progress => ?_⟩
  cases progress with
  | released response => exact released response
  | handling plan =>
    induction plan with
    | done response =>
      refine ⟨_, fun _ nearer => ?_⟩
      cases nearer with
      | released => exact released _
    | ask q next ih =>
      refine ⟨_, fun _ nearer => ?_⟩
      cases nearer with
      | told _ reply => exact ih reply
      | released => exact released _

theorem reply_nonempty (q : Ask) : Nonempty q.Reply := by
  cases q with
  | present => exact ⟨true⟩
  | enterFile => exact ⟨true⟩
  | leaveFile => exact ⟨()⟩
  | cancelled => exact ⟨true⟩
  | untilCancelled => exact ⟨()⟩
  | freshName => exact ⟨""⟩
  | query => exact ⟨.error .cancelled⟩
  | _ => exact ⟨.error default⟩

namespace Serving

variable {server : Server} {input : List UInt8} {s s' : Serving} {answer : Nat → Option Response}
  {extra : List Response}

/-- How much there is still to read. -/
def toRead (coming : List UInt8) (c : Conversation) : Nat :=
  2 * coming.length + c.unread.length + (if c.closed then 0 else 1) + if c.listening then 1 else 0

/-- The work on all requests. -/
def workOf (tasks : List Task) : Multiset Progress := Multiset.ofList (tasks.map Task.progress)

/-- What is still to be read, to be worked on and to be written. -/
def toDo (s : Serving) : Nat × Multiset Progress × Nat :=
  (toRead s.coming s.conversation, workOf s.tasks, s.conversation.written.length - s.flushed)

/-- There is less to read, or as much, and less to work on, or as much, and less to write. -/
def Less : Nat × Multiset Progress × Nat → Nat × Multiset Progress × Nat → Prop :=
  Prod.Lex (· < ·) (Prod.Lex (CutExpand Progress.Nearer) (· < ·))

theorem wellFounded_less : WellFounded Less :=
  WellFounded.prod_lex wellFounded_lt
    (WellFounded.prod_lex Progress.wellFounded_nearer.cutExpand wellFounded_lt)

theorem toRead_released (c : Conversation) (job : Holder) (coming : List UInt8) :
    toRead coming (c.released job) = toRead coming c ∧ (c.released job).written = c.written := by
  unfold Conversation.released
  split <;> exact ⟨rfl, rfl⟩

theorem toRead_answered (c : Conversation) (job : Holder) (cancelled : Bool) (response : Response)
    (coming : List UInt8) : toRead coming (c.answered job cancelled response) = toRead coming c := by
  unfold Conversation.answered
  split
  · cases cancelled <;> rfl
  · rfl

theorem toRead_takeLine (c : Conversation) (line : String) (coming : List UInt8) :
    toRead coming (c.takeLine line).1 = toRead coming c := by
  unfold Conversation.takeLine
  split
  · rfl
  · rfl
  · rfl
  · split <;> rfl

theorem toRead_fulfil (c : Conversation) (duty : Duty) :
    toRead (s.fulfil server c duty).coming (s.fulfil server c duty).conversation =
      toRead s.coming c := by
  have coming : ∀ trips, (s.note trips).coming = s.coming := by
    intro trips
    unfold note
    split <;> rfl
  cases duty <;> simp only [fulfil, coming]
  rfl

theorem toRead_readLine {c c' : Conversation} {duty : Duty} (found : c.readLine? = some (c', duty))
    (coming : List UInt8) : toRead coming c' < toRead coming c := by
  unfold Conversation.readLine? at found
  split at found
  · cases found
  next hears =>
  have listening : c.listening = true := by simpa using hears
  have tells : (readLine c.closed c.unread).Tells c.unread [] c.closed := readLine_tells fun _ => rfl
  split at found
  next => cases found
  next =>
    cases found
    simp [toRead, listening]
  next =>
    cases found
    simp [toRead, listening, Conversation.write]
  next =>
    cases found
    simp [toRead, listening]
  next text rest isLine =>
    rw [isLine] at tells
    have same := toRead_takeLine { c with unread := rest } text coming
    rw [Option.some.inj found] at same
    have shorter := tells.1
    rw [same]
    simp only [toRead]
    omega

theorem workOf_middle (before after : List Task) (t : Task) :
    workOf (before ++ t :: after) = workOf (before ++ after) + {t.progress} := by
  have perm : (before ++ t :: after).Perm (before ++ after ++ [t]) :=
    List.perm_middle.trans (List.perm_append_singleton t _).symm
  unfold workOf
  rw [Multiset.coe_eq_coe.mpr (perm.map Task.progress), List.map_append, ← Multiset.coe_add]
  rfl

theorem step_less (step : Step server s s') : Less s'.toDo s.toDo := by
  cases step with
  | @come part rest listening more some =>
    refine .left _ _ ?_
    have longer : 0 < part.length := List.length_pos_of_ne_nil some
    simp only [toRead, more, List.length_append]
    omega
  | close listening all still =>
    refine .left _ _ ?_
    simp [toRead, still]
  | read found =>
    refine .left _ _ ?_
    rw [toRead_fulfil]
    exact toRead_readLine found s.coming
  | @tell t before after q next tasks asks reply =>
    refine .right _ (.left _ _ ?_)
    have nearer : Progress.Nearer (.handling (next reply)) t.progress := asks ▸ .told next reply
    rw [tasks, workOf_middle, workOf_middle]
    exact cutExpand_add_single _ nearer
  | @release t before after response tasks done =>
    have reads := (toRead_released s.conversation t.number s.coming).1
    have nearer : Progress.Nearer (.released response) t.progress := done ▸ .released _ response
    unfold Less toDo
    rw [reads, tasks, workOf_middle, workOf_middle]
    exact .right _ (.left _ _ (cutExpand_add_single _ nearer))
  | @answer t before after response tasks released =>
    have reads := toRead_answered s.conversation t.number t.tripped response s.coming
    unfold Less toDo
    rw [reads, tasks, workOf_middle]
    refine .right _ (.left _ _ ?_)
    exact ⟨0, t.progress, fun _ none => absurd none (Multiset.notMem_zero _), (add_zero _).symm⟩
  | flush more =>
    refine .right _ (.right _ ?_)
    simp only
    omega

/-- Nothing goes on forever. -/
theorem wellFounded_step (server : Server) :
    WellFounded fun s' s : Serving => Step server s s' :=
  Subrelation.wf step_less (InvImage.wf toDo wellFounded_less)

theorem exists_step_of_task {t : Task} (mem : t ∈ s.tasks) (server : Server) :
    ∃ s', Step server s s' := by
  obtain ⟨before, after, tasks⟩ := List.append_of_mem mem
  cases progress : t.progress with
  | released response => exact ⟨_, .answer tasks progress⟩
  | handling plan =>
    cases plan with
    | done response => exact ⟨_, .release tasks progress⟩
    | ask q next =>
      obtain ⟨reply⟩ := reply_nonempty q
      exact ⟨_, .tell tasks progress reply⟩

theorem exists_step_of_listening (listening : s.conversation.listening = true) (server : Server) :
    ∃ s', Step server s s' := by
  by_cases all : s.coming = []
  · cases closed : s.conversation.closed with
    | false => exact ⟨_, .close listening all closed⟩
    | true =>
      have tells : (readLine s.conversation.closed s.conversation.unread).Tells
        s.conversation.unread [] s.conversation.closed := readLine_tells fun _ => rfl
      cases found : s.conversation.readLine? with
      | some taken => exact ⟨_, .read found⟩
      | none =>
        unfold Conversation.readLine? at found
        split at found
        next deaf =>
          rw [listening] at deaf
          cases deaf
        next =>
          split at found
          next waits =>
            rw [waits] at tells
            exact absurd (closed.symm.trans tells) nofun
          all_goals cases found
  · exact ⟨_, .come listening (List.append_nil s.coming).symm all⟩

/-- A conversation that is not over goes on. -/
theorem Account.goes_on (account : s.Account input answer extra) (server : Server)
    (still : s.isOver = false) : ∃ s', Step server s s' := by
  by_cases more : s.flushed < s.conversation.written.length
  · exact ⟨_, .flush more⟩
  · cases tasks : s.tasks with
    | cons t rest => exact exists_step_of_task (tasks ▸ List.mem_cons_self) server
    | nil =>
      have flushed := account.flushed
      have all : s.flushed = s.conversation.written.length := by omega
      have jobs := account.jobs
      rw [tasks] at jobs
      refine exists_step_of_listening ?_ server
      simpa [isOver, Conversation.isOver, jobs, all] using still

end Serving

end CodeIntel.Agent
