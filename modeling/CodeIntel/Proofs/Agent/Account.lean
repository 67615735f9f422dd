import CodeIntel.Proofs.Agent.Serving
import CodeIntel.Proofs.Basic
import Mathlib.Data.List.Nodup
import Mathlib.Logic.Function.Basic

namespace CodeIntel.Agent

/-- How much of an input has been read, and what the end of the reading has written and left. -/
inductive Reading (input : List UInt8) (done : List (List UInt8)) (coming : List UInt8)
    (c : Conversation) : List Response → Prop
  | listening (listening : c.listening = true) (fault : c.fault = none)
      (all : c.closed = true → coming = [])
      (lines : linesOf input = done ++ linesOf (c.unread ++ coming)) : Reading input done coming c []
  | finished (deaf : c.listening = false) (fault : c.fault = none)
      (lines : linesOf input = done ∨ linesOf input = done ++ [[0x0D]]) :
      Reading input done coming c []
  | tooLong {bad : List UInt8} {others : List (List UInt8)} (deaf : c.listening = false)
      (fault : c.fault = none) (lines : linesOf input = done ++ bad :: others)
      (long : greatestLine < bad.length) :
      Reading input done coming c
        [.failure none ErrorObject.invalidRequest "Message too long"]
  | notText {bad : List UInt8} {others : List (List UInt8)} (deaf : c.listening = false)
      (fault : c.fault = some (.io "Unable to decode input as UTF8"))
      (lines : linesOf input = done ++ bad :: others) (fits : bad.length ≤ greatestLine)
      (noText : lineText? bad = none) : Reading input done coming c []

theorem Reading.congr {input coming : List UInt8} {done : List (List UInt8)} {c c' : Conversation}
    {extra : List Response} (reading : Reading input done coming c extra)
    (listening : c'.listening = c.listening) (fault : c'.fault = c.fault)
    (closed : c'.closed = c.closed) (unread : c'.unread = c.unread) :
    Reading input done coming c' extra := by
  cases reading with
  | listening hears noFault all lines =>
    exact .listening (listening.trans hears) (fault.trans noFault) (closed ▸ all) (unread ▸ lines)
  | finished deaf noFault lines =>
    exact .finished (listening.trans deaf) (fault.trans noFault) lines
  | tooLong deaf noFault lines long =>
    exact .tooLong (listening.trans deaf) (fault.trans noFault) lines long
  | notText deaf isFault lines fits noText =>
    exact .notText (listening.trans deaf) (fault.trans isFault) lines fits noText

namespace Task

/-- The response of a task, once it has one, is to the request with its identifier. -/
def IsFaithful (t : Task) : Prop :=
  match t.progress with
  | .handling plan => plan.Outcomes (Response.Answers t.id)
  | .released response => response.Answers t.id

def IsHandling (t : Task) : Prop := ∃ plan, t.progress = .handling plan

instance (t : Task) : Decidable t.IsHandling :=
  match eq : t.progress with
  | .handling plan => .isTrue ⟨plan, eq⟩
  | .released response => .isFalse <| by
    rintro ⟨plan, handles⟩
    rw [eq] at handles
    cases handles

end Task

namespace Serving

/-- What a task has to do with the line that made it, and with the past. -/
structure Belongs (lines : List String) (history : List Happening) (t : Task) : Prop where
  made : ∃ line method params, lines[t.number]? = some line ∧
    lineMeaning line = .request t.id method params
  faithful : t.IsFaithful
  tripped : t.tripped = true ↔ Tripped history t.number
  inFlight : t.IsHandling → InFlight history t.number

/-- The token of a request was tripped by a line that cancels its identifier, while it was in
flight. -/
structure IsCancelled (lines : List String) (before : List Happening) (j k : Nat) : Prop where
  inFlight : InFlight before k
  names : ∃ line other id method params, lines[j]? = some line ∧ lines[k]? = some other ∧
    lineMeaning line = .cancellation id ∧ lineMeaning other = .request id method params

/-- What has become of each line of an input: its response, if it has one. -/
structure Account (input : List UInt8) (s : Serving) (answer : Nat → Option Response)
    (extra : List Response) : Prop where
  reading : ∃ done, List.Forall₂ IsRead done s.lines ∧
    Reading input done s.coming s.conversation extra
  later : ∀ k, s.lines.length ≤ k → answer k = none
  owed : ∀ k line, s.lines[k]? = some line →
    (∃ t ∈ s.tasks, t.number = k) ∧ answer k = none ∨
      (∀ t ∈ s.tasks, t.number ≠ k) ∧ Owed (Tripped s.history k) line (answer k)
  written : s.conversation.written.Perm ((List.range s.lines.length).filterMap answer ++ extra)
  jobs : s.conversation.jobs = s.tasks.map fun t => (t.number, t.id)
  numbers : (s.tasks.map Task.number).Nodup
  belongs : ∀ t ∈ s.tasks, Belongs s.lines s.history t
  inFlight : ∀ e ∈ s.conversation.inFlight, ∃ t ∈ s.tasks, t.id = e.1 ∧ t.number = e.2 ∧ t.IsHandling
  names : (s.conversation.inFlight.map Prod.fst).Nodup
  known : ∀ k, .released k ∈ s.history → k < s.lines.length
  cancelled : ∀ j k before, .took j (some k) :: before <:+ s.history →
    IsCancelled s.lines before j k
  flushed : s.flushed ≤ s.conversation.written.length

variable {server : Server} {input : List UInt8} {s s' : Serving} {answer : Nat → Option Response}
  {extra : List Response} {history : List Happening} {lines : List String} {j k : Nat}
  {trips : Option Nat}

theorem tripped_took : Tripped (.took j trips :: history) k ↔ trips = some k ∨ Tripped history k := by
  constructor
  · rintro ⟨i, mem⟩
    rcases List.mem_cons.mp mem with same | mem
    · cases same
      exact .inl rfl
    · exact .inr ⟨i, mem⟩
  · rintro (rfl | ⟨i, mem⟩)
    · exact ⟨j, List.mem_cons_self⟩
    · exact ⟨i, List.mem_cons_of_mem _ mem⟩

theorem tripped_released : Tripped (.released j :: history) k ↔ Tripped history k := by
  constructor
  · rintro ⟨i, mem⟩
    rcases List.mem_cons.mp mem with same | mem
    · cases same
    · exact ⟨i, mem⟩
  · rintro ⟨i, mem⟩
    exact ⟨i, List.mem_cons_of_mem _ mem⟩

theorem InFlight.took (inFlight : InFlight history k) : InFlight (.took j trips :: history) k := by
  refine ⟨List.mem_cons_of_mem _ inFlight.1, fun mem => ?_⟩
  rcases List.mem_cons.mp mem with same | mem
  · cases same
  · exact inFlight.2 mem

theorem InFlight.released (inFlight : InFlight history k) (other : k ≠ j) :
    InFlight (.released j :: history) k := by
  refine ⟨List.mem_cons_of_mem _ inFlight.1, fun mem => ?_⟩
  rcases List.mem_cons.mp mem with same | mem
  · cases same
    exact other rfl
  · exact inFlight.2 mem

theorem getElem?_concat {α : Type} {items : List α} {item other : α}
    (h : items[k]? = some item) : (items ++ [other])[k]? = some item := by
  rw [List.getElem?_append_left (List.getElem?_eq_some_iff.mp h).1]
  exact h

theorem getElem?_concat_cases {α : Type} {items : List α} {item other : α}
    (h : (items ++ [other])[k]? = some item) :
    items[k]? = some item ∨ k = items.length ∧ item = other := by
  rw [List.getElem?_append] at h
  split at h
  · exact .inl h
  next above =>
    obtain ⟨at_, eq⟩ := List.getElem?_eq_some_iff.mp h
    simp only [List.length_singleton] at at_
    have zero : k - items.length = 0 := by omega
    exact .inr ⟨by omega, by simpa [zero] using eq.symm⟩

theorem IsCancelled.concat {before : List Happening} (cancelled : IsCancelled lines before j k)
    (line : String) : IsCancelled (lines ++ [line]) before j k := by
  obtain ⟨inFlight, first, second, id, method, params, h₁, h₂, names⟩ := cancelled
  exact ⟨inFlight, first, second, id, method, params, getElem?_concat h₁, getElem?_concat h₂, names⟩

theorem account_start (input : List UInt8) : (start input).Account input (fun _ => none) [] := by
  refine ⟨⟨[], .nil, .listening rfl rfl nofun rfl⟩, fun _ _ => rfl, nofun, .nil, rfl, .nil, nofun,
    nofun, .nil, nofun, ?_, Nat.le_refl _⟩
  intro j k before suffix
  exact absurd (List.suffix_nil.mp suffix) (List.cons_ne_nil _ _)

namespace Account

/-- The responses of all lines, after one more has got one. -/
theorem perm_update {n : Nat} {r : Response} (less : k < n) (unanswered : answer k = none) :
    ((List.range n).filterMap (Function.update answer k (some r))).Perm
      (r :: (List.range n).filterMap answer) := by
  have mem : k ∈ List.range n := List.mem_range.mpr less
  have apart : ∀ i ∈ (List.range n).erase k, Function.update answer k (some r) i = answer i := by
    intro i there
    have other : i ≠ k := by
      rintro rfl
      exact List.Nodup.not_mem_erase List.nodup_range there
    exact Function.update_of_ne other _ _
  have split := List.perm_cons_erase mem
  have new := split.filterMap (Function.update answer k (some r))
  have old := split.filterMap answer
  rw [List.filterMap_cons_some (Function.update_self k (some r) answer), List.filterMap_congr apart] at new
  rw [List.filterMap_cons_none unanswered] at old
  exact new.trans (old.symm.cons r)

theorem filterMap_concat (answer : Nat → Option Response) (n : Nat) (r? : Option Response) :
    (List.range (n + 1)).filterMap (Function.update answer n r?) =
      (List.range n).filterMap answer ++ r?.toList := by
  have before : ∀ i ∈ List.range n, Function.update answer n r? i = answer i := fun i less =>
    Function.update_of_ne (Nat.ne_of_lt (List.mem_range.mp less)) _ _
  rw [List.range_succ, List.filterMap_append, List.filterMap_congr before]
  cases r? <;> simp

theorem number_trip (t : Task) : (t.trip trips).number = t.number := by
  unfold Task.trip
  split <;> rfl

theorem id_trip (t : Task) : (t.trip trips).id = t.id := by
  unfold Task.trip
  split <;> rfl

theorem progress_trip (t : Task) : (t.trip trips).progress = t.progress := by
  unfold Task.trip
  split <;> rfl

theorem map_trip_none (tasks : List Task) : tasks.map (Task.trip none) = tasks := by
  refine (List.map_congr_left fun t _ => ?_).trans tasks.map_id
  simp [Task.trip]

theorem exists_number_trip {tasks : List Task} :
    (∃ t ∈ tasks.map (Task.trip trips), t.number = k) ↔ ∃ t ∈ tasks, t.number = k := by
  constructor
  · rintro ⟨_, mem, rfl⟩
    obtain ⟨t, there, rfl⟩ := List.mem_map.mp mem
    exact ⟨t, there, (number_trip t).symm⟩
  · rintro ⟨t, mem, rfl⟩
    exact ⟨t.trip trips, List.mem_map_of_mem mem, number_trip t⟩

/-- A task whose token may have been tripped by a line that was read. -/
theorem belongs_trip {t : Task} (belongs : Belongs lines history t) (line : String) (j : Nat) :
    Belongs (lines ++ [line]) (.took j trips :: history) (t.trip trips) := by
  obtain ⟨made, method, params, found, meaning⟩ := belongs.made
  refine ⟨⟨made, method, params, ?_, ?_⟩, ?_, ?_, ?_⟩
  · rw [number_trip]
    exact getElem?_concat found
  · rw [id_trip]
    exact meaning
  · unfold Task.IsFaithful
    rw [progress_trip, id_trip]
    exact belongs.faithful
  · rw [number_trip, tripped_took]
    unfold Task.trip
    split
    next this => exact iff_of_true rfl (.inl this.symm)
    next other => rw [belongs.tripped, or_iff_right (Ne.symm other)]
  · rintro ⟨plan, handling⟩
    rw [number_trip]
    rw [progress_trip] at handling
    exact (belongs.inFlight ⟨plan, handling⟩).took

theorem number_lt {t : Task} (account : s.Account input answer extra) (mem : t ∈ s.tasks) :
    t.number < s.lines.length := by
  obtain ⟨line, _, _, found, _⟩ := (account.belongs t mem).made
  exact (List.getElem?_eq_some_iff.mp found).1

/-- A line was read that no request came of; a token may have been tripped. -/
theorem took {c : Conversation} {text : String} {r? : Option Response}
    (account : s.Account input answer []) (trips : Option Nat)
    (reading : ∃ done, List.Forall₂ IsRead done (s.lines ++ [text]) ∧
      Reading input done s.coming c [])
    (owed : ∀ tripped, Owed tripped text r?)
    (written : c.written = s.conversation.written ++ r?.toList)
    (jobs : c.jobs = s.conversation.jobs) (names : c.inFlight = s.conversation.inFlight)
    (trip : ∀ k, trips = some k → IsCancelled (s.lines ++ [text]) s.history s.lines.length k ∧
      ∃ t ∈ s.tasks, t.number = k) :
    ({ s with
      conversation := c
      lines := s.lines ++ [text]
      tasks := s.tasks.map (Task.trip trips)
      history := .took s.lines.length trips :: s.history } : Serving).Account input
        (Function.update answer s.lines.length r?) [] := by
  refine ⟨reading, ?_, ?_, ?_, ?_, ?_, ?_, ?_, names ▸ account.names, ?_, ?_, ?_⟩
  · intro k le
    rw [List.length_append, List.length_singleton] at le
    rw [Function.update_of_ne (by omega)]
    exact account.later k (by omega)
  · intro k line found
    rcases getElem?_concat_cases found with old | ⟨rfl, rfl⟩
    · have less := (List.getElem?_eq_some_iff.mp old).1
      rw [Function.update_of_ne (Nat.ne_of_lt less)]
      rcases account.owed k line old with ⟨there, unanswered⟩ | ⟨gone, owed⟩
      · exact .inl ⟨exists_number_trip.mpr there, unanswered⟩
      · refine .inr ⟨?_, ?_⟩
        · intro t mem eq
          obtain ⟨u, mem, eq⟩ := exists_number_trip.mp ⟨t, mem, eq⟩
          exact gone u mem eq
        · have same : Tripped (.took s.lines.length trips :: s.history) k ↔ Tripped s.history k := by
            rw [tripped_took, or_iff_right]
            intro this
            obtain ⟨u, mem, eq⟩ := (trip k this).2
            exact gone u mem eq
          rw [propext same]
          exact owed
    · refine .inr ⟨?_, ?_⟩
      · intro t mem eq
        obtain ⟨u, mem, eq⟩ := exists_number_trip.mp ⟨t, mem, eq⟩
        exact absurd eq (Nat.ne_of_lt (account.number_lt mem))
      · rw [Function.update_self]
        exact owed _
  · rw [List.length_append, List.length_singleton, filterMap_concat, written, List.append_nil]
    have old := account.written
    rw [List.append_nil] at old
    exact old.append_right _
  · rw [jobs, account.jobs, List.map_map]
    exact List.map_congr_left fun t _ => by simp [number_trip, id_trip]
  · rw [List.map_map]
    have same : Task.number ∘ Task.trip trips = Task.number := funext number_trip
    rw [same]
    exact account.numbers
  · intro t mem
    obtain ⟨u, there, rfl⟩ := List.mem_map.mp mem
    exact belongs_trip (account.belongs u there) text _
  · intro e mem
    rw [names] at mem
    obtain ⟨t, there, id, number, plan, handling⟩ := account.inFlight e mem
    refine ⟨t.trip trips, List.mem_map_of_mem there, (id_trip t).trans id,
      (number_trip t).trans number, plan, (progress_trip t).trans handling⟩
  · intro k mem
    rcases List.mem_cons.mp mem with same | mem
    · cases same
    · rw [List.length_append]
      exact Nat.lt_add_right _ (account.known k mem)
  · intro j k before suffix
    rcases List.suffix_cons_iff.mp suffix with same | suffix
    · cases same
      exact (trip k rfl).1
    · exact (account.cancelled j k before suffix).concat text
  · rw [written, List.length_append]
    exact Nat.le_add_right_of_le account.flushed

/-- A line was read that makes a request. -/
theorem takeUp {c : Conversation} {text method : String} {id : RequestId} {params : Option Json}
    (account : s.Account input answer [])
    (reading : ∃ done, List.Forall₂ IsRead done (s.lines ++ [text]) ∧
      Reading input done s.coming c [])
    (meaning : lineMeaning text = .request id method params)
    (written : c.written = s.conversation.written)
    (jobs : c.jobs = s.conversation.jobs) (names : c.inFlight = s.conversation.inFlight)
    (server : Server) :
    ({ s with
      conversation := c.started id s.lines.length
      lines := s.lines ++ [text]
      tasks := s.tasks ++
        [⟨s.lines.length, id, false, .handling (server.handle id method params)⟩]
      history := .took s.lines.length none :: s.history } : Serving).Account input answer [] := by
  have new : ∀ t ∈ s.tasks, t.number ≠ s.lines.length := fun t mem =>
    Nat.ne_of_lt (account.number_lt mem)
  have untripped : ¬ Tripped s.history s.lines.length := by
    rintro ⟨j, mem⟩
    obtain ⟨before, after, eq⟩ := List.append_of_mem mem
    have suffix : .took j (some s.lines.length) :: after <:+ s.history := ⟨before, eq.symm⟩
    obtain ⟨_, _, _, _, _, _, found, _⟩ := (account.cancelled _ _ _ suffix).names
    exact absurd (List.getElem?_eq_some_iff.mp found).1 (Nat.lt_irrefl _)
  have unreleased : .released s.lines.length ∉ s.history := fun mem =>
    Nat.lt_irrefl _ (account.known _ mem)
  refine ⟨?_, ?_, ?_, ?_, ?_, ?_, ?_, ?_, ?_, ?_, ?_, ?_⟩
  · obtain ⟨done, read, reading⟩ := reading
    exact ⟨done, read, reading.congr rfl rfl rfl rfl⟩
  · intro k le
    rw [List.length_append, List.length_singleton] at le
    exact account.later k (by omega)
  · intro k line found
    rcases getElem?_concat_cases found with old | ⟨rfl, rfl⟩
    · have less := (List.getElem?_eq_some_iff.mp old).1
      rcases account.owed k line old with ⟨⟨t, mem, number⟩, unanswered⟩ | ⟨gone, owed⟩
      · exact .inl ⟨⟨t, List.mem_append_left _ mem, number⟩, unanswered⟩
      · refine .inr ⟨?_, ?_⟩
        · intro t mem
          rcases List.mem_append.mp mem with mem | mem
          · exact gone t mem
          · rw [List.mem_singleton.mp mem]
            exact (Nat.ne_of_lt less).symm
        · have same : Tripped (.took s.lines.length none :: s.history) k ↔ Tripped s.history k := by
            rw [tripped_took, or_iff_right nofun]
          rw [propext same]
          exact owed
    · refine .inl ⟨⟨_, List.mem_append_right _ List.mem_cons_self, rfl⟩, ?_⟩
      exact account.later _ (Nat.le_refl _)
  · have unanswered := account.later s.lines.length (Nat.le_refl _)
    rw [List.length_append, List.length_singleton, List.range_succ, List.filterMap_append]
    simpa [Conversation.started, unanswered, written] using account.written
  · simp [Conversation.started, jobs, account.jobs]
  · rw [List.map_append, List.nodup_append]
    refine ⟨account.numbers, List.nodup_singleton _, ?_⟩
    intro n mem m single
    obtain ⟨t, there, rfl⟩ := List.mem_map.mp mem
    rw [List.mem_singleton.mp single]
    exact new t there
  · intro t mem
    rcases List.mem_append.mp mem with mem | mem
    · have belongs := account.belongs t mem
      obtain ⟨made, method, params, found, meaning⟩ := belongs.made
      refine ⟨⟨made, method, params, getElem?_concat found, meaning⟩, belongs.faithful, ?_, ?_⟩
      · rw [tripped_took, or_iff_right nofun]
        exact belongs.tripped
      · exact fun handling => (belongs.inFlight handling).took
    · rw [List.mem_singleton.mp mem]
      refine ⟨⟨text, method, params, ?_, meaning⟩, server.handle_answers id method params, ?_, ?_⟩
      · simp
      · rw [tripped_took, or_iff_right nofun]
        exact iff_of_false nofun untripped
      · intro _
        refine ⟨List.mem_cons_self, fun mem => ?_⟩
        rcases List.mem_cons.mp mem with same | mem
        · cases same
        · exact unreleased mem
  · intro e mem
    rcases List.mem_cons.mp mem with rfl | mem
    · exact ⟨_, List.mem_append_right _ List.mem_cons_self, rfl, rfl, _, rfl⟩
    · rw [names] at mem
      obtain ⟨t, there, belongs⟩ := account.inFlight e (List.mem_filter.mp mem).1
      exact ⟨t, List.mem_append_left _ there, belongs⟩
  · refine List.nodup_cons.mpr ⟨?_, ?_⟩
    · intro mem
      obtain ⟨e, there, same⟩ := List.mem_map.mp mem
      simpa [same] using (List.mem_filter.mp there).2
    · rw [names]
      exact account.names.sublist (List.filter_sublist.map _)
  · intro k mem
    rcases List.mem_cons.mp mem with same | mem
    · cases same
    · rw [List.length_append]
      exact Nat.lt_add_right _ (account.known k mem)
  · intro j k before suffix
    rcases List.suffix_cons_iff.mp suffix with same | suffix
    · cases same
    · exact (account.cancelled j k before suffix).concat text
  · exact written ▸ account.flushed

/-- Bytes come or no more will, or the reading ends, and no line is read. -/
theorem unread {c : Conversation} {coming : List UInt8} {extra' : List Response}
    (account : s.Account input answer extra)
    (reading : ∀ done, Reading input done s.coming s.conversation extra →
      Reading input done coming c (extra ++ extra'))
    (written : c.written = s.conversation.written ++ extra')
    (jobs : c.jobs = s.conversation.jobs) (names : c.inFlight = s.conversation.inFlight) :
    ({ s with coming := coming, conversation := c } : Serving).Account input answer
      (extra ++ extra') := by
  obtain ⟨done, read, before⟩ := account.reading
  refine { account with
    reading := ⟨done, read, reading done before⟩, written := ?_, jobs := jobs.trans account.jobs
    inFlight := names ▸ account.inFlight, names := names ▸ account.names, flushed := ?_ }
  · rw [written, ← List.append_assoc]
    exact account.written.append_right extra'
  · rw [written, List.length_append]
    exact Nat.le_add_right_of_le account.flushed

theorem come {part rest : List UInt8} (account : s.Account input answer extra)
    (listening : s.conversation.listening = true) (more : s.coming = part ++ rest)
    (some : part ≠ []) :
    ({ s with
      coming := rest
      conversation := { s.conversation with unread := s.conversation.unread ++ part } } :
        Serving).Account input answer extra := by
  rw [← List.append_nil extra]
  refine account.unread ?_ (List.append_nil _).symm rfl rfl
  intro done reading
  rw [List.append_nil]
  cases reading with
  | listening _ fault all lines =>
    refine .listening listening fault (fun closed => ?_) ?_
    · have none := all closed
      rw [more] at none
      exact absurd (List.append_eq_nil_iff.mp none).1 some
    · rw [lines, more, List.append_assoc]
  | finished deaf => exact absurd (deaf.symm.trans listening) nofun
  | tooLong deaf => exact absurd (deaf.symm.trans listening) nofun
  | notText deaf => exact absurd (deaf.symm.trans listening) nofun

theorem close (account : s.Account input answer extra)
    (listening : s.conversation.listening = true) (all : s.coming = []) :
    ({ s with conversation := { s.conversation with closed := true } } : Serving).Account input
      answer extra := by
  rw [← List.append_nil extra]
  refine account.unread ?_ (List.append_nil _).symm rfl rfl
  intro done reading
  rw [List.append_nil]
  cases reading with
  | listening _ fault _ lines => exact .listening listening fault (fun _ => all) lines
  | finished deaf => exact absurd (deaf.symm.trans listening) nofun
  | tooLong deaf => exact absurd (deaf.symm.trans listening) nofun
  | notText deaf => exact absurd (deaf.symm.trans listening) nofun

/-- The reading ends without a line. -/
theorem stop {c : Conversation} {extra' : List Response} (account : s.Account input answer [])
    (noLine : s.nextLine? = none)
    (reading : ∀ done, linesOf input = done ++ linesOf (s.conversation.unread ++ s.coming) →
      s.conversation.fault = none → (s.conversation.closed = true → s.coming = []) →
      Reading input done s.coming c extra')
    (listening : s.conversation.listening = true)
    (written : c.written = s.conversation.written ++ extra')
    (jobs : c.jobs = s.conversation.jobs) (names : c.inFlight = s.conversation.inFlight) :
    (s.fulfil server c .nothing).Account input answer extra' := by
  have same : s.fulfil server c .nothing = { s with conversation := c } := by
    simp [fulfil, note, noLine]
  rw [same]
  refine account.unread (fun done before => ?_) written jobs names
  cases before with
  | listening _ fault all lines => exact reading done lines fault all
  | finished deaf => exact absurd (deaf.symm.trans listening) nofun
  | notText deaf => exact absurd (deaf.symm.trans listening) nofun

/-- A line is read and taken for what it means. -/
theorem takeLine {c : Conversation} {duty : Duty} {text : String} {rest : List UInt8}
    (account : s.Account input answer []) (isNext : s.nextLine? = some text)
    (reading : ∃ done, List.Forall₂ IsRead done (s.lines ++ [text]) ∧
      ∀ c : Conversation, c.listening = s.conversation.listening → c.closed = s.conversation.closed →
        c.fault = s.conversation.fault → c.unread = rest → Reading input done s.coming c [])
    (found : ({ s.conversation with unread := rest } : Conversation).takeLine text = (c, duty))
    (server : Server) : ∃ answer', (s.fulfil server c duty).Account input answer' [] := by
  obtain ⟨done, read, reading⟩ := reading
  have owes := owes_lineMeaning text
  have noted : ∀ trips, s.note trips = { s with
      lines := s.lines ++ [text], history := .took s.lines.length trips :: s.history } := by
    intro trips
    simp [note, isNext]
  -- A line that neither makes a request nor trips a token.
  have aside : ∀ (c' : Conversation) (r? : Option Response), (∀ tripped, Owed tripped text r?) →
      c'.written = s.conversation.written ++ r?.toList → c'.jobs = s.conversation.jobs →
      c'.inFlight = s.conversation.inFlight → Reading input done s.coming c' [] →
      ∃ answer', (s.fulfil server c' .nothing).Account input answer' [] := by
    intro c' r? owed written jobs names reading
    have taken := account.took none ⟨done, read, reading⟩ owed written jobs names nofun
    rw [map_trip_none] at taken
    refine ⟨Function.update answer s.lines.length r?, ?_⟩
    rw [fulfil, noted]
    exact taken
  unfold Conversation.takeLine at found
  split at found
  next meaning =>
    cases found
    rw [meaning] at owes
    exact aside _ none owes (List.append_nil _).symm rfl rfl (reading { s.conversation with unread := rest } rfl rfl rfl rfl)
  next r meaning =>
    cases found
    rw [meaning] at owes
    refine aside _ (some r) owes rfl rfl rfl ?_
    exact reading (({ s.conversation with unread := rest } : Conversation).write r) rfl rfl rfl rfl
  next id method params meaning =>
    cases found
    refine ⟨answer, ?_⟩
    rw [fulfil, noted]
    have reading := reading { s.conversation with unread := rest } rfl rfl rfl rfl
    exact account.takeUp ⟨done, read, reading⟩ meaning rfl rfl rfl server
  next id meaning =>
    rw [meaning] at owes
    split at found
    next job named =>
      cases found
      obtain ⟨⟨id', job'⟩, first, rfl⟩ := Option.map_eq_some_iff.mp named
      have same : id' = id := by simpa using List.find?_some first
      subst same
      obtain ⟨t, mem, rfl, rfl, handling⟩ := account.inFlight _ (List.mem_of_find?_eq_some first)
      obtain ⟨other, method, params, made, request⟩ := (account.belongs t mem).made
      have cancels : IsCancelled (s.lines ++ [text]) s.history s.lines.length t.number := by
        refine ⟨(account.belongs t mem).inFlight handling, text, other, t.id, method, params, ?_,
          getElem?_concat made, meaning, request⟩
        simp
      have taken := account.took (some t.number)
        ⟨done, read, reading { s.conversation with unread := rest } rfl rfl rfl rfl⟩ owes
        (List.append_nil _).symm rfl rfl (by
          rintro k ⟨⟩
          exact ⟨cancels, t, mem, rfl⟩)
      refine ⟨Function.update answer s.lines.length none, ?_⟩
      rw [fulfil, noted]
      exact taken
    next =>
      cases found
      exact aside _ none owes (List.append_nil _).symm rfl rfl (reading { s.conversation with unread := rest } rfl rfl rfl rfl)

theorem read {c : Conversation} {duty : Duty} (account : s.Account input answer extra)
    (found : s.conversation.readLine? = some (c, duty)) (server : Server) :
    ∃ answer' extra', (s.fulfil server c duty).Account input answer' extra' := by
  unfold Conversation.readLine? at found
  split at found
  · cases found
  next hears =>
  have listening : s.conversation.listening = true := by simpa using hears
  obtain ⟨done, read, reading⟩ := account.reading
  cases reading with
  | finished deaf => exact absurd (deaf.symm.trans listening) nofun
  | tooLong deaf => exact absurd (deaf.symm.trans listening) nofun
  | notText deaf => exact absurd (deaf.symm.trans listening) nofun
  | listening _ fault all lines =>
    have tells : (readLine s.conversation.closed s.conversation.unread).Tells s.conversation.unread
      s.coming s.conversation.closed := readLine_tells all
    have next := nextLine?.eq_def s
    split at found
    next => cases found
    next ended =>
      cases found
      rw [ended] at tells next
      obtain ⟨closed, unread⟩ := tells
      refine ⟨answer, [], account.stop next (fun done lines fault all => ?_) listening
        (List.append_nil _).symm rfl rfl⟩
      refine .finished rfl fault ?_
      rcases unread with unread | unread
      · refine .inl (lines.trans ?_)
        rw [all closed, unread, List.append_nil, linesOf_nil, List.append_nil]
      · refine .inr (lines.trans ?_)
        rw [all closed, unread, List.append_nil]
        rfl
    next long =>
      cases found
      rw [long] at tells next
      obtain ⟨bad, others, eq, long⟩ := tells
      refine ⟨answer, _, account.stop next (fun done lines fault _ => ?_) listening rfl rfl rfl⟩
      exact .tooLong rfl fault (lines.trans (congrArg _ eq)) long
    next noText =>
      cases found
      rw [noText] at tells next
      obtain ⟨bad, others, eq, fits, noText⟩ := tells
      refine ⟨answer, [], account.stop next (fun done lines _ _ => ?_) listening
        (List.append_nil _).symm rfl rfl⟩
      exact .notText rfl rfl (lines.trans (congrArg _ eq)) fits noText
    next text rest isLine =>
      rw [isLine] at tells next
      obtain ⟨_, line, isRead, eq⟩ := tells
      have later : ∀ c : Conversation, c.listening = s.conversation.listening →
          c.closed = s.conversation.closed → c.fault = s.conversation.fault → c.unread = rest →
          Reading input (done ++ [line]) s.coming c [] := by
        intro c listens closes faults unread
        refine .listening (listens.trans listening) (faults.trans fault) (closes ▸ all) ?_
        rw [lines, eq, unread, List.append_assoc]
        rfl
      obtain ⟨answer', after⟩ := account.takeLine next
        ⟨done ++ [line], List.rel_append read (.cons isRead .nil), later⟩ (Option.some.inj found) server
      exact ⟨answer', [], after⟩

end Account

end Serving

end CodeIntel.Agent
