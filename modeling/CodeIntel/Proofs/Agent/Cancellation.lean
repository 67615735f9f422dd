import CodeIntel.Proofs.Agent.EveryLine

namespace CodeIntel.Agent

/-- The identifier of the request that a line makes. -/
def LineMeaning.requestId? : LineMeaning → Option RequestId
  | .request id _ _ => some id
  | _ => none

/-- The line that something has happened to: it was read, or the request that it made was let go
of. -/
def Happening.line : Happening → Nat
  | took k _ => k
  | released k => k

namespace Serving

/-- The identifier of the request that one of the lines made. -/
def requestId? (lines : List String) (k : Nat) : Option RequestId :=
  lines[k]?.bind fun line => (lineMeaning line).requestId?

/-- The last that has happened to the requests with an identifier is that a line made one. -/
def IsLatest (lines : List String) (history : List Happening) (id : RequestId) (k : Nat) : Prop :=
  requestId? lines k = some id ∧ ∃ later trips earlier, history = later ++ .took k trips :: earlier ∧
    ∀ h ∈ later, requestId? lines h.line ≠ some id

/-- No request was taken up while another with its identifier was in flight. -/
def NeverReused (lines : List String) (history : List Happening) : Prop :=
  ∀ k trips before id, .took k trips :: before <:+ history → requestId? lines k = some id →
    ∀ j, InFlight before j → requestId? lines j ≠ some id

/-- A line is read that trips the token of a request with an identifier, one that is still worked
on, and no other token. -/
def Trips (s s' : Serving) (id : RequestId) : Prop :=
  ∃ t ∈ s.tasks, t.id = id ∧ t.IsHandling ∧
    s'.history = .took s.lines.length (some t.number) :: s.history ∧
    s'.tasks = s.tasks.map (Task.trip (some t.number))

/-- The line of the request that a cancellation of an identifier reaches, by what has happened. -/
def reached? (lines : List String) (id : RequestId) : List Happening → Option Nat
  | [] => none
  | .took k _ :: earlier =>
    if requestId? lines k = some id then some k else reached? lines id earlier
  | .released k :: earlier =>
    if requestId? lines k = some id then none else reached? lines id earlier

variable {lines : List String} {history : List Happening} {id : RequestId} {k : Nat}

theorem requestId?_concat (less : k < lines.length) (line : String) :
    requestId? (lines ++ [line]) k = requestId? lines k := by
  unfold requestId?
  rw [List.getElem?_append_left less]

theorem requestId?_length (lines : List String) (line : String) :
    requestId? (lines ++ [line]) lines.length = (lineMeaning line).requestId? := by
  simp [requestId?]

theorem Belongs.requestId {t : Task} (belongs : Belongs lines history t) :
    requestId? lines t.number = some t.id := by
  obtain ⟨line, method, params, found, meaning⟩ := belongs.made
  simp [requestId?, found, meaning, LineMeaning.requestId?]

theorem reached?_concat (known : ∀ h ∈ history, h.line < lines.length) (line : String) :
    reached? (lines ++ [line]) id history = reached? lines id history := by
  induction history with
  | nil => rfl
  | cons h earlier ih =>
    obtain ⟨less, others⟩ := List.forall_mem_cons.mp known
    cases h with
    | took j trips => rw [reached?, reached?, ih others, requestId?_concat (k := j) less]
    | released j => rw [reached?, reached?, ih others, requestId?_concat (k := j) less]

theorem reached?_eq_some_iff : reached? lines id history = some k ↔ IsLatest lines history id k := by
  induction history with
  | nil =>
    refine ⟨nofun, fun ⟨_, later, _, _, eq, _⟩ => ?_⟩
    cases later <;> cases eq
  | cons h earlier ih =>
    -- What holds of the earlier happenings goes on to hold if this one is to another identifier.
    have aside : requestId? lines h.line ≠ some id →
        (IsLatest lines (h :: earlier) id k ↔ IsLatest lines earlier id k) := by
      intro other
      constructor
      · rintro ⟨isId, later, trips, before, eq, quiet⟩
        cases later with
        | nil =>
          cases eq
          exact absurd isId other
        | cons first later =>
          cases eq
          exact ⟨isId, later, trips, before, rfl, (List.forall_mem_cons.mp quiet).2⟩
      · rintro ⟨isId, later, trips, before, rfl, quiet⟩
        exact ⟨isId, h :: later, trips, before, rfl, List.forall_mem_cons.mpr ⟨other, quiet⟩⟩
    cases h with
    | took j trips =>
      unfold reached?
      split
      next isId =>
        constructor
        · rintro ⟨⟩
          exact ⟨isId, [], trips, earlier, rfl, nofun⟩
        · rintro ⟨_, later, _, before, eq, quiet⟩
          cases later with
          | nil =>
            cases eq
            rfl
          | cons first later =>
            obtain ⟨rfl, _⟩ := List.cons.inj eq
            exact absurd isId (List.forall_mem_cons.mp quiet).1
      next other => exact ih.trans (aside other).symm
    | released j =>
      unfold reached?
      split
      next isId =>
        refine ⟨nofun, fun ⟨_, later, _, before, eq, quiet⟩ => ?_⟩
        cases later with
        | nil => cases eq
        | cons first later =>
          obtain ⟨rfl, _⟩ := List.cons.inj eq
          exact absurd isId (List.forall_mem_cons.mp quiet).1
      next other => exact ih.trans (aside other).symm

theorem jobOf?_started (c : Conversation) (id other : RequestId) (job : Holder) :
    (c.started id job).jobOf? other = if other = id then some job else c.jobOf? other := by
  unfold Conversation.jobOf? Conversation.started
  rw [find?_cons_filter_ne]
  split <;> rfl

theorem jobOf?_erased {c : Conversation} (names : (c.inFlight.map Prod.fst).Nodup)
    (id other : RequestId) :
    ({ c with inFlight := c.inFlight.eraseP fun e => e.1 = id } : Conversation).jobOf? other =
      if other = id then none else c.jobOf? other := by
  unfold Conversation.jobOf?
  split
  next eq =>
    have gone : ∀ e ∈ c.inFlight.eraseP fun e => e.1 = id, e.1 ≠ other := fun e mem =>
      eq ▸ (mem_eraseP_of_nodup_map names mem).2
    rw [List.find?_eq_none.mpr (by simpa using gone)]
    rfl
  next ne => rw [find?_eraseP_of_ne ne]

/-- What a line asks for. -/
def dutyOf (c : Conversation) (line : String) : Duty :=
  match lineMeaning line with
  | .request id method params => .start id method params
  | .cancellation id => ((c.jobOf? id).map Duty.cancel).getD .nothing
  | _ => .nothing

variable {server : Server} {input : List UInt8} {s s' : Serving} {c : Conversation} {duty : Duty}

theorem takeLine_inFlight (c : Conversation) (line : String) :
    (c.takeLine line).1.inFlight = c.inFlight := by
  unfold Conversation.takeLine
  split
  · rfl
  · rfl
  · rfl
  · split <;> rfl

theorem takeLine_duty (c : Conversation) (line : String) :
    (c.takeLine line).2 = dutyOf c line := by
  unfold Conversation.takeLine dutyOf
  cases lineMeaning line with
  | cancellation id => cases named : c.jobOf? id <;> simp [named]
  | _ => rfl

/-- What is read leaves the identifiers of requests as they are, and the duty is that of the
line. -/
theorem readLine?_eq_some (found : s.conversation.readLine? = some (c, duty)) :
    c.inFlight = s.conversation.inFlight ∧
      duty = match s.nextLine? with
        | some line => dutyOf s.conversation line
        | none => .nothing := by
  unfold Conversation.readLine? at found
  unfold nextLine?
  split at found
  · cases found
  · split at found
    next => cases found
    next isRead =>
      cases found
      rw [isRead]
      exact ⟨rfl, rfl⟩
    next isRead =>
      cases found
      rw [isRead]
      exact ⟨rfl, rfl⟩
    next isRead =>
      cases found
      rw [isRead]
      exact ⟨rfl, rfl⟩
    next text rest isRead =>
      have inFlight := takeLine_inFlight { s.conversation with unread := rest } text
      have duty := takeLine_duty { s.conversation with unread := rest } text
      rw [Option.some.inj found] at inFlight duty
      rw [isRead]
      exact ⟨inFlight, duty⟩

/-- By what has happened so far one can tell which request a cancellation reaches. -/
structure Tracks (s : Serving) : Prop where
  reached : ∀ id, s.conversation.jobOf? id = reached? s.lines id s.history
  known : ∀ h ∈ s.history, h.line < s.lines.length
  once : ∀ j before, .released j :: before <:+ s.history → InFlight before j

theorem tracks_start (input : List UInt8) : (start input).Tracks :=
  ⟨fun _ => rfl, nofun, fun _ _ suffix => absurd (List.suffix_nil.mp suffix) (List.cons_ne_nil _ _)⟩

namespace Tracks

/-- A line was read. -/
theorem took {line : String} {trips : Option Nat} {tasks : List Task} (tracks : s.Tracks)
    (reached : ∀ id, c.jobOf? id =
      if (lineMeaning line).requestId? = some id then some s.lines.length
      else s.conversation.jobOf? id) :
    ({ s with
      conversation := c, lines := s.lines ++ [line], tasks := tasks
      history := .took s.lines.length trips :: s.history } : Serving).Tracks := by
  refine ⟨fun id => ?_, List.forall_mem_cons.mpr ⟨?_, ?_⟩, ?_⟩
  · rw [reached, tracks.reached]
    simp only [reached?, requestId?_length, reached?_concat tracks.known]
  · simp [Happening.line]
  · intro h mem
    rw [List.length_append]
    exact Nat.lt_add_right _ (tracks.known h mem)
  · intro j before suffix
    rcases List.suffix_cons_iff.mp suffix with same | suffix
    · cases same
    · exact tracks.once j before suffix

theorem fulfil (tracks : s.Tracks) (found : s.conversation.readLine? = some (c, duty))
    (server : Server) : (s.fulfil server c duty).Tracks := by
  obtain ⟨inFlight, asked⟩ := readLine?_eq_some found
  have same : ∀ id, c.jobOf? id = s.conversation.jobOf? id := fun id => by
    rw [Conversation.jobOf?, inFlight, Conversation.jobOf?]
  cases next : s.nextLine? with
  | none =>
    rw [next] at asked
    cases asked
    simp only [Serving.fulfil, note, next]
    exact ⟨fun id => (same id).trans (tracks.reached id), tracks.known, tracks.once⟩
  | some line =>
    rw [next] at asked
    simp only at asked
    -- Where the line makes no request, the identifiers name what they named before.
    have aside : (lineMeaning line).requestId? = none → ∀ id, c.jobOf? id =
        if (lineMeaning line).requestId? = some id then some s.lines.length
        else s.conversation.jobOf? id := by
      intro none id
      rw [none, if_neg (Option.some_ne_none id).symm, same]
    unfold dutyOf at asked
    cases meaning : lineMeaning line with
    | nothing | refused =>
      rw [meaning] at asked aside
      cases asked
      simp only [Serving.fulfil, note, next]
      exact tracks.took (meaning ▸ aside rfl)
    | cancellation id =>
      rw [meaning] at asked aside
      simp only at asked
      cases named : s.conversation.jobOf? id with
      | none =>
        rw [named] at asked
        cases asked
        simp only [Serving.fulfil, note, next]
        exact tracks.took (meaning ▸ aside rfl)
      | some job =>
        rw [named] at asked
        cases asked
        simp only [Serving.fulfil, note, next]
        exact tracks.took (meaning ▸ aside rfl)
    | request id method params =>
      rw [meaning] at asked
      cases asked
      simp only [Serving.fulfil, note, next]
      refine tracks.took fun other => ?_
      rw [jobOf?_started, meaning, same]
      by_cases eq : other = id
      · simp [LineMeaning.requestId?, eq]
      · simp [LineMeaning.requestId?, eq, Ne.symm eq]

theorem release {t : Task} {before after : List Task} {response : Response}
    {answer : Nat → Option Response} {extra : List Response} (tracks : s.Tracks)
    (account : s.Account input answer extra) (tasks : s.tasks = before ++ t :: after)
    (done : t.progress = .handling (.done response)) :
    ({ s with
      conversation := s.conversation.released t.number
      tasks := before ++ { t with progress := .released response } :: after
      history := .released t.number :: s.history } : Serving).Tracks := by
  have belongs := account.belongs t (Account.mem_task tasks)
  have isId := belongs.requestId
  refine ⟨fun id => ?_, List.forall_mem_cons.mpr ⟨account.number_lt (Account.mem_task tasks),
    tracks.known⟩, ?_⟩
  · rw [account.released_eq tasks, jobOf?_erased account.names, reached?, isId, tracks.reached]
    by_cases eq : id = t.id
    · simp [eq]
    · simp [eq, Ne.symm eq]
  · intro j before suffix
    rcases List.suffix_cons_iff.mp suffix with same | suffix
    · cases same
      exact belongs.inFlight ⟨_, done⟩
    · exact tracks.once j before suffix

theorem of_run (run : Run server input s) : s.Tracks := by
  induction run with
  | refl => exact tracks_start input
  | tail run step tracks =>
    obtain ⟨answer, extra, account⟩ := Account.of_run run
    cases step with
    | read found => exact tracks.fulfil found server
    | release tasks done => exact tracks.release account tasks done
    | answer tasks released =>
      refine ⟨fun id => ?_, tracks.known, tracks.once⟩
      rw [account.answered_eq tasks]
      exact tracks.reached id
    | _ => exact ⟨tracks.reached, tracks.known, tracks.once⟩

end Tracks

theorem NeverReused.earlier {h : Happening} (never : NeverReused lines (h :: history)) :
    NeverReused lines history :=
  fun k trips before id suffix => never k trips before id (suffix.trans (List.suffix_cons h history))

theorem InFlight.earlier {h : Happening} (inFlight : InFlight (h :: history) k)
    (other : h ≠ .took k none) : InFlight history k :=
  ⟨(List.mem_cons.mp inFlight.1).resolve_left (Ne.symm other),
    fun mem => inFlight.2 (List.mem_cons_of_mem h mem)⟩

/-- Where identifiers are never reused, at most one request with an identifier is in flight. -/
theorem NeverReused.unique (never : NeverReused lines history) {i j : Nat}
    (first : InFlight history i) (second : InFlight history j)
    (hi : requestId? lines i = some id) (hj : requestId? lines j = some id) : i = j := by
  induction history with
  | nil => cases first.1
  | cons h earlier ih =>
    by_cases isFirst : h = .took i none
    · by_cases isSecond : h = .took j none
      · cases isFirst.symm.trans isSecond
        rfl
      · subst isFirst
        exact absurd hj (never i none earlier id (List.suffix_refl _) hi j (second.earlier isSecond))
    · by_cases isSecond : h = .took j none
      · subst isSecond
        exact absurd hi (never j none earlier id (List.suffix_refl _) hj i (first.earlier isFirst))
      · exact ih never.earlier (first.earlier isFirst) (second.earlier isSecond)

theorem NeverReused.reached (never : NeverReused lines history)
    (once : ∀ j before, .released j :: before <:+ history → InFlight before j)
    (inFlight : InFlight history k) (isId : requestId? lines k = some id) :
    ∃ j, reached? lines id history = some j := by
  induction history with
  | nil => cases inFlight.1
  | cons h earlier ih =>
    have later : h ≠ .took k none → ∃ j, reached? lines id earlier = some j := fun other =>
      ih never.earlier (fun j before suffix => once j before (suffix.trans (List.suffix_cons h earlier)))
        (inFlight.earlier other)
    cases h with
    | took j trips =>
      unfold reached?
      split
      · exact ⟨j, rfl⟩
      next other =>
        refine later fun same => ?_
        cases same
        exact other isId
    | released j =>
      unfold reached?
      split
      next isId' =>
        -- Both requests were in flight when the first of them was let go of.
        have same := never.earlier.unique (inFlight.earlier nofun)
          (once j earlier (List.suffix_refl _)) isId isId'
        exact absurd (same ▸ List.mem_cons_self) inFlight.2
      next => exact later nofun

/-- What a cancellation of an identifier comes to. -/
structure Cancels (s s' : Serving) (id : RequestId) : Prop where
  /-- It reaches a request that is worked on, unless the last that has happened to the requests
  with the identifier is that one of them was let go of. -/
  trips_iff : Trips s s' id ↔ ∃ k, IsLatest s.lines s.history id k
  otherwise : ¬ Trips s s' id → s'.tasks = s.tasks
  /-- It reaches the request where no request came with the identifier of one in flight. -/
  ofNeverReused : NeverReused s.lines s.history →
    (∃ t ∈ s.tasks, t.id = id ∧ t.IsHandling) → Trips s s' id

variable {line : String}

/-- A line that cancels an identifier trips the token of the request that the identifier names. -/
theorem fulfil_cancellation (found : s.conversation.readLine? = some (c, duty))
    (next : s.nextLine? = some line) (cancels : lineMeaning line = .cancellation id)
    (server : Server) :
    (s.fulfil server c duty).history =
        .took s.lines.length (s.conversation.jobOf? id) :: s.history ∧
      (s.fulfil server c duty).tasks = s.tasks.map (Task.trip (s.conversation.jobOf? id)) := by
  obtain ⟨_, asked⟩ := readLine?_eq_some found
  rw [next] at asked
  unfold dutyOf at asked
  simp only [cancels] at asked
  cases named : s.conversation.jobOf? id with
  | none =>
    rw [named] at asked
    cases asked
    simp only [fulfil, note, next]
    exact ⟨rfl, (Account.map_trip_none s.tasks).symm⟩
  | some job =>
    rw [named] at asked
    cases asked
    simp only [fulfil, note, next]
    exact ⟨rfl, rfl⟩

theorem Account.trips_iff {answer : Nat → Option Response} {extra : List Response}
    (account : s.Account input answer extra)
    (history : s'.history = .took s.lines.length (s.conversation.jobOf? id) :: s.history)
    (tasks : s'.tasks = s.tasks.map (Task.trip (s.conversation.jobOf? id))) :
    Trips s s' id ↔ ∃ k, s.conversation.jobOf? id = some k := by
  constructor
  · rintro ⟨t, _, _, _, trips, _⟩
    rw [history] at trips
    exact ⟨t.number, (Happening.took.inj (List.cons.inj trips).1).2⟩
  · rintro ⟨k, named⟩
    obtain ⟨⟨id', job⟩, first, rfl⟩ := Option.map_eq_some_iff.mp named
    have same : id' = id := by simpa using List.find?_some first
    subst same
    obtain ⟨t, mem, isId, number, handling⟩ := account.inFlight _ (List.mem_of_find?_eq_some first)
    simp only at isId number
    subst number
    rw [named] at history tasks
    exact ⟨t, mem, isId, handling, history, tasks⟩

end Serving

open Serving

/-- In every run a cancellation reaches the latest request with its identifier, as long as none
with that identifier has ended since it was made. -/
theorem cancellation_reaches_latest_request {server : Server} {input : List UInt8} {s : Serving}
    (run : Run server input s) {c : Conversation} {duty : Duty}
    (found : s.conversation.readLine? = some (c, duty)) {line : String}
    (next : s.nextLine? = some line) {id : RequestId}
    (cancels : lineMeaning line = .cancellation id) :
    Cancels s (s.fulfil server c duty) id := by
  have tracks := Tracks.of_run run
  obtain ⟨answer, extra, account⟩ := Account.of_run run
  obtain ⟨history, tasks⟩ := fulfil_cancellation found next cancels server
  have trips := account.trips_iff history tasks
  refine ⟨?_, ?_, ?_⟩
  · rw [trips, tracks.reached]
    exact exists_congr fun k => reached?_eq_some_iff
  · intro untripped
    have none : s.conversation.jobOf? id = none := by
      cases named : s.conversation.jobOf? id with
      | none => rfl
      | some k => exact absurd (trips.mpr ⟨k, named⟩) untripped
    rw [tasks, none, Account.map_trip_none]
  · rintro never ⟨t, mem, rfl, handling⟩
    have belongs := account.belongs t mem
    rw [trips, tracks.reached]
    exact never.reached tracks.once (belongs.inFlight handling) belongs.requestId

namespace Serving

/-- A server with a tool that waits until it is cancelled. -/
def blocking : Server :=
  (Server.new "t" "1").addTool ⟨"block", "", .null, fun _ _ => do
    Plan.query Ask.untilCancelled
    pure (.error "cancelled")⟩

def pingLine : String := "\x7b\"jsonrpc\":\"2.0\",\"id\":1,\"method\":\"ping\"\x7d"

def blockLine : String :=
  "\x7b\"jsonrpc\":\"2.0\",\"id\":1,\"method\":\"tools/call\",\"params\":" ++
    "\x7b\"name\":\"block\"\x7d\x7d"

def cancelLine : String :=
  "\x7b\"jsonrpc\":\"2.0\",\"method\":\"notifications/cancelled\"," ++
    "\"params\":\x7b\"requestId\":1\x7d\x7d"

theorem cancelLine_cancels : lineMeaning cancelLine = .cancellation (.number 1) := by
  have isOne : (match lineMeaning cancelLine with
      | .cancellation id => decide (id = .number 1)
      | _ => false) = true := by decide +kernel
  split at isOne
  next id meaning => rw [meaning, of_decide_eq_true isOne]
  next => cases isOne

end Serving

theorem blocking_request_is_reached :
    ∃ s s', Run blocking (utf8Bytes (blockLine ++ "\n" ++ cancelLine ++ "\n")) s ∧
      s.nextLine? = some cancelLine ∧ Step blocking s s' ∧ Trips s s' (.number 1) := by
  have run := run_play blocking (utf8Bytes (blockLine ++ "\n" ++ cancelLine ++ "\n")) 2
  generalize made : play blocking (utf8Bytes (blockLine ++ "\n" ++ cancelLine ++ "\n")) 2 = s at run
  obtain ⟨next, reads, latest⟩ : s.nextLine? = some cancelLine ∧
      s.conversation.readLine?.isSome = true ∧
      reached? s.lines (.number 1) s.history = some 0 := by
    subst made
    decide +kernel
  obtain ⟨⟨c, duty⟩, found⟩ := Option.isSome_iff_exists.mp reads
  have cancels := cancellation_reaches_latest_request run found next cancelLine_cancels
  exact ⟨s, _, run, next, .read found, cancels.trips_iff.mpr ⟨0, reached?_eq_some_iff.mp latest⟩⟩

/-- The ping has ended, the other request waits, and the cancellation is to be read next. -/
def Serving.pingEnded : Serving :=
  let both := play blocking (utf8Bytes (pingLine ++ "\n" ++ blockLine ++ "\n" ++ cancelLine ++ "\n")) 3
  both.nextTask?.getD both

/-- A request is worked on, and another with its identifier has ended: a cancellation of the
identifier reaches neither. -/
theorem running_request_is_not_reached :
    ∃ s s', Run blocking (utf8Bytes (pingLine ++ "\n" ++ blockLine ++ "\n" ++ cancelLine ++ "\n")) s ∧
      (∃ t ∈ s.tasks, t.id = .number 1 ∧ t.IsHandling) ∧ s.nextLine? = some cancelLine ∧
      lineMeaning cancelLine = .cancellation (.number 1) ∧
      Step blocking s s' ∧ s'.lines = s.lines ++ [cancelLine] ∧ ¬ Trips s s' (.number 1) := by
  have run : Run blocking
      (utf8Bytes (pingLine ++ "\n" ++ blockLine ++ "\n" ++ cancelLine ++ "\n")) pingEnded := by
    have run := run_play blocking
      (utf8Bytes (pingLine ++ "\n" ++ blockLine ++ "\n" ++ cancelLine ++ "\n")) 3
    unfold pingEnded
    cases next : (play blocking
        (utf8Bytes (pingLine ++ "\n" ++ blockLine ++ "\n" ++ cancelLine ++ "\n")) 3).nextTask? with
    | none => simpa [next] using run
    | some s =>
      have later : Run blocking
          (utf8Bytes (pingLine ++ "\n" ++ blockLine ++ "\n" ++ cancelLine ++ "\n")) s :=
        run.tail (step_of_nextTask? next blocking)
      simpa [next] using later
  obtain ⟨waiting, next, effect⟩ : (∃ t ∈ pingEnded.tasks, t.id = .number 1 ∧ t.IsHandling) ∧
      pingEnded.nextLine? = some cancelLine ∧
      ((pingEnded.next? blocking).map fun s' => (s'.lines, s'.tasks.any Task.tripped)) =
        some (pingEnded.lines ++ [cancelLine], false) := by decide +kernel
  obtain ⟨s', step, effect⟩ := Option.map_eq_some_iff.mp effect
  refine ⟨pingEnded, s', run, waiting, next, cancelLine_cancels, step_of_next? step,
    congrArg Prod.fst effect, ?_⟩
  rintro ⟨t, mem, _, _, _, tasks⟩
  have tripped : (s'.tasks.any Task.tripped) = true := by
    rw [tasks]
    exact List.any_eq_true.mpr ⟨_, List.mem_map_of_mem mem, by simp [Task.trip]⟩
  exact Bool.noConfusion (tripped.symm.trans (congrArg Prod.snd effect))

end CodeIntel.Agent
