import CodeIntel.Proofs.Basic
import CodeIntel.Proofs.Publications.Turns

namespace CodeIntel

namespace Link

/-- No deed touches what the server says. -/
theorem line_advance {α : Type} (link : Link) (m : Moment) (h : Holder) (work : Work α) :
    (link.advance m h work).1.notices = link.notices ∧
      (link.advance m h work).1.incoming = link.incoming := by
  cases work with
  | done a => exact ⟨rfl, rfl⟩
  | ask d next =>
    rw [(link.advance_ask m h d next).1]
    by_cases leaves : d.LeavesDocuments
    · have beside := link.beside_perform m h leaves
      exact ⟨beside.notices, beside.incoming⟩
    · cases d with
      | enterDocuments | leaveDocuments | setDocument => exact ⟨rfl, rfl⟩
      | _ => exact absurd trivial leaves

end Link

namespace Press

/-- The notifications are looked at in the order in which the server sent them. -/
structure InLine (s : Press) : Prop where
  length : s.places.length = s.link.notices.length
  sorted : s.places.Pairwise (· < ·)
  heard : ∀ place ∈ s.places, s.heard ≤ place
  ahead : ∀ place ∈ s.places, place < s.read
  reach : s.heard ≤ s.read
  incoming : s.link.incoming.length ≤ s.pace.length

/-- What arrived after so many publications was sent after what had been looked at by then. -/
def Dates (s : Press) (mark : Mark) : Prop :=
  mark.heard ≤ s.heard ∧
    ∀ i a, s.arrived[i]? = some a → mark.since ≤ i → mark.heard ≤ a.place

/-- All that is on record of what had been looked at is right. -/
structure Dated (s : Press) : Prop where
  told : ∀ sent, s.told = some sent → s.Dates sent.mark
  counted : ∀ h job, s.jobs h = some job → s.Dates job.notes.counted
  looked : ∀ h job sent, s.jobs h = some job → job.notes.looked = some sent → s.Dates sent.mark

variable {client : Client} {p : Path} {s s' : Press} {h : Holder} {m : Moment}

theorem InLine.congr (line : s.InLine) (places : s'.places = s.places) (heard : s'.heard = s.heard)
    (pace : s'.pace = s.pace) (notices : s'.link.notices = s.link.notices)
    (incoming : s'.link.incoming = s.link.incoming) : s'.InLine := by
  have read : s'.read = s.read := by simp only [Press.read, pace, incoming]
  refine ⟨?_, ?_, ?_, ?_, ?_, ?_⟩
  · rw [places, notices, line.length]
  · exact places ▸ line.sorted
  · exact places ▸ heard ▸ line.heard
  · exact places ▸ read ▸ line.ahead
  · exact heard ▸ read ▸ line.reach
  · rw [incoming, pace]
    exact line.incoming

/-- The reader puts a notification behind those that wait. -/
theorem InLine.hears {link : Link} (line : s.InLine) (hears : s.link.Hears link) :
    InLine { s with
      link := link
      places := s.places ++
        List.replicate (link.notices.length - s.link.notices.length) s.read } := by
  have incoming := line.incoming
  have less := hears.incoming
  have ahead := line.ahead
  have reach := line.reach
  have further : s.read ≤ s.pace.length - link.incoming.length := Nat.sub_le_sub_left less _
  have short : link.incoming.length ≤ s.pace.length := Nat.le_trans less incoming
  obtain same | ⟨notice, more, less⟩ := hears.notices
  · rw [same, Nat.sub_self, List.replicate_zero, List.append_nil]
    exact ⟨same ▸ line.length, line.sorted, line.heard,
      fun place mem => Nat.lt_of_lt_of_le (ahead place mem) further,
      Nat.le_trans reach further, short⟩
  · have one : link.notices.length - s.link.notices.length = 1 := by simp [more]
    have strictly : s.read < s.pace.length - link.incoming.length := by
      unfold Press.read
      omega
    rw [one, List.replicate_one]
    refine ⟨?_, ?_, fun place mem => ?_, fun place mem => ?_, Nat.le_trans reach further, short⟩
    · simp [more, line.length]
    · refine List.pairwise_append.mpr ⟨line.sorted, List.pairwise_singleton _ _, ?_⟩
      intro place mem last here
      cases List.mem_singleton.mp here
      exact ahead place mem
    · rcases List.mem_append.mp mem with old | new
      · exact line.heard place old
      · cases List.mem_singleton.mp new
        exact reach
    · rcases List.mem_append.mp mem with old | new
      · exact Nat.lt_of_lt_of_le (ahead place old) further
      · cases List.mem_singleton.mp new
        exact strictly

theorem InLine.notice {first : String × Json} {rest : List (String × Json)} (line : s.InLine)
    (waits : s.link.notices = first :: rest) : (s.notice first).InLine := by
  have length := line.length
  have sorted := line.sorted
  have ahead := line.ahead
  have after : (s.notice first).link = { s.link with
      notices := rest, publications := s.link.publications.receive first.1 first.2 } := by
    simp only [Press.notice, Link.noticeStep, waits]
  have read : (s.notice first).read = s.read := by simp only [Press.read, after]; rfl
  cases places : s.places with
  | nil =>
    rw [places, waits] at length
    cases length
  | cons place later =>
    rw [places, waits] at length
    rw [places, List.pairwise_cons] at sorted
    rw [places] at ahead
    have left : (s.notice first).places = later := by simp [Press.notice, places]
    have reached : (s.notice first).heard = place + 1 := by simp [Press.notice, places]
    refine ⟨?_, left ▸ sorted.2, ?_, ?_, ?_, ?_⟩
    · rw [left, after]
      exact Nat.succ.inj length
    · rw [left, reached]
      exact sorted.1
    · rw [left, read]
      exact fun next mem => ahead next (List.mem_cons_of_mem _ mem)
    · rw [reached, read]
      exact ahead place List.mem_cons_self
    · rw [after]
      exact line.incoming

theorem InLine.step (line : s.InLine) (mute : s.link.reader.Mute) (step : Step client p s s') :
    s'.InLine := by
  cases step with
  | begin | finish | drop | pass | take => exact line.congr rfl rfl rfl rfl rfl
  | advance under m now informs =>
    obtain ⟨notices, incoming⟩ := s.link.line_advance m _ _
    exact line.congr rfl rfl rfl notices incoming
  | read m => exact line.hears (Link.hears_readerStep mute m)
  | notice waits => exact line.notice waits
  | say isOpen bytes =>
    have read : (s.say bytes).read = s.read := by
      simp only [Press.read, Press.say, List.length_append, List.length_replicate]
      omega
    refine ⟨line.length, line.sorted, line.heard, read ▸ line.ahead, read ▸ line.reach, ?_⟩
    have incoming := line.incoming
    simp only [Press.say, List.length_append, List.length_replicate]
    omega
  | other beside reader outgoing =>
    exact line.congr rfl rfl rfl beside.notices beside.incoming

theorem Dates.notice {mark : Mark} {first : String × Json} (dates : s.Dates mark)
    (line : s.InLine) : (s.notice first).Dates mark := by
  have next : s.heard ≤ s.places.headD s.heard := by
    cases places : s.places with
    | nil => exact le_rfl
    | cons place later => exact line.heard place (places ▸ List.mem_cons_self)
  refine ⟨Nat.le_succ_of_le (Nat.le_trans dates.1 next), fun i a found since => ?_⟩
  simp only [Press.notice] at found
  by_cases old : i < s.arrived.length
  · rw [List.getElem?_append_left old] at found
    exact dates.2 i a found since
  · rw [List.getElem?_append_right (Nat.le_of_not_lt old)] at found
    have new := List.mem_of_getElem? found
    obtain ⟨x, _, rfl⟩ := Option.map_eq_some_iff.mp (Option.mem_toList.mp new)
    exact Nat.le_trans dates.1 next

theorem dates_mark (count : s.link.publications.count = s.arrived.length) : s.Dates s.mark := by
  refine ⟨le_rfl, fun i a found since => ?_⟩
  have short := (List.getElem?_eq_some_iff.mp found).1
  exact absurd (count ▸ since) (Nat.not_le_of_lt short)

theorem counted_notesNext (s : Press) (job : Job) :
    (s.notesNext job).counted = s.mark ∨ (s.notesNext job).counted = job.notes.counted := by
  unfold notesNext
  split
  · exact .inl rfl
  all_goals exact .inr rfl

theorem looked_notesNext (s : Press) (job : Job) :
    (s.notesNext job).looked = s.told ∨ (s.notesNext job).looked = job.notes.looked := by
  unfold notesNext
  split
  next => exact .inr rfl
  next => exact .inl rfl
  all_goals exact .inr rfl

theorem Dated.put {job? : Option Job} (dated : s.Dated) (arrived : s'.arrived = s.arrived)
    (heard : s'.heard = s.heard) (jobs : s'.jobs = Function.update s.jobs h job?)
    (told : ∀ sent, s'.told = some sent → s.Dates sent.mark)
    (counted : ∀ job, job? = some job → s.Dates job.notes.counted)
    (looked : ∀ job sent, job? = some job → job.notes.looked = some sent → s.Dates sent.mark) :
    s'.Dated := by
  have still {mark : Mark} (dates : s.Dates mark) : s'.Dates mark :=
    ⟨heard ▸ dates.1, arrived ▸ dates.2⟩
  refine ⟨fun sent some => still (told sent some), fun h' job under => ?_,
    fun h' job sent under some => ?_⟩
  · rw [jobs] at under
    by_cases same : h' = h
    · subst same
      rw [Function.update_self] at under
      exact still (counted job under)
    · rw [Function.update_of_ne same] at under
      exact still (dated.counted h' job under)
  · rw [jobs] at under
    by_cases same : h' = h
    · subst same
      rw [Function.update_self] at under
      exact still (looked job sent under some)
    · rw [Function.update_of_ne same] at under
      exact still (dated.looked h' job sent under some)

theorem Dated.advance {cwd : Path} {job : Job} {told : Option Sending} (dated : s.Dated)
    (count : s.link.publications.count = s.arrived.length) (under : s.jobs h = some job)
    (informs : Informs p cwd s job told) : (s.advance m h job told).Dated := by
  refine dated.put rfl rfl rfl (fun sent some => ?_) ?_ ?_
  · cases informs with
    | text =>
      cases some
      exact dated.counted h job under
    | nothing => exact dated.told sent some
  · rintro _ ⟨⟩
    obtain now | before := counted_notesNext s job
    · exact now ▸ dates_mark count
    · exact before ▸ dated.counted h job under
  · rintro _ sent ⟨⟩ some
    obtain now | before := looked_notesNext s job
    · exact dated.told sent (now ▸ some)
    · exact dated.looked h job sent under (before ▸ some)

theorem Dated.step (dated : s.Dated) (line : s.InLine)
    (count : s.link.publications.count = s.arrived.length) (step : Step client p s s') :
    s'.Dated := by
  cases step with
  | begin _ idle q =>
    refine dated.put rfl rfl rfl dated.told ?_ ?_
    · rintro _ ⟨⟩
      exact ⟨Nat.zero_le _, fun _ _ _ _ => Nat.zero_le _⟩
    · rintro _ _ ⟨⟩ ⟨⟩
  | advance under m now informs => exact dated.advance count under informs
  | finish under | drop under => exact dated.put rfl rfl rfl dated.told nofun nofun
  | notice waits =>
    exact ⟨fun sent some => (dated.told sent some).notice line,
      fun h job under => (dated.counted h job under).notice line,
      fun h job sent under some => (dated.looked h job sent under some).notice line⟩
  | read | say | take | pass | other => exact ⟨dated.told, dated.counted, dated.looked⟩

/-- A report was on its way when a text was sent: the server said it before it had the text to its
end, and it had not been looked at when the text was about to be sent. -/
def Crosses (s : Press) (sent : Sending) (a : Arrival) : Prop :=
  sent.mark.heard ≤ a.place ∧ ¬ s.SaidAfter a sent

/-- A report on the document is new since a text was sent, as far as can be told from its arrival.
If no report on the document was on its way when the text was sent, the server said it after it had
the text. -/
structure IsNew (p : Path) (s : Press) (sent : Sending) (a : Arrival) : Prop where
  about : a.publication.path.same p = true
  arrived : ∃ i, s.arrived[i]? = some a ∧ sent.mark.since ≤ i
  unheard : sent.mark.heard ≤ a.place
  after : (∀ b ∈ s.arrived, b.publication.path.same p = true → ¬ s.Crosses sent b) →
    s.SaidAfter a sent

theorem timely_of_run {room now : Nat} (run : s.Run client p room now) (alike : s.Alike client p) :
    s.InLine ∧ s.Dated := by
  induction run with
  | refl => exact ⟨⟨rfl, .nil, nofun, nofun, le_rfl, le_rfl⟩, nofun, nofun, nofun⟩
  | tail run step ih =>
    obtain ⟨line, dated⟩ := ih (alike.before step)
    obtain ⟨stances, sound⟩ := sound_of_run run (alike.before step)
    have count : Publications.count _ = _ := (congrArg _ sound.recorded).trans
      ((Publications.count_record _).trans (List.length_map _))
    exact ⟨line.step sound.mute step, dated.step line count step⟩

end Press

/-- Whatever else is done over the connection, a list of diagnostics that is returned before the
wait for them has run out is a report on the document that is new since the last text of it was
sent, as of when the wait looked the document up. -/
theorem published_lists_are_new {client : Client} {p path : Path} {room now : Nat} {s : Press}
    {h : Holder} {diagnostics : List Diagnostic} {notes : Notes} (run : s.Run client p room now)
    (alike : s.Alike client p) (unasked : client.features.diagnostics = false)
    (same : path.same p = true)
    (ended : s.jobs h = some ⟨.diagnostics path, .done (.ok (some diagnostics)), notes⟩)
    (soon : notes.now < notes.start + client.config.diagnosticsWaitMs) :
    ∃ sent a, notes.looked = some sent ∧ a.publication.diagnostics = diagnostics ∧
      Press.IsNew p s sent a := by
  obtain ⟨stances, sound⟩ := Press.sound_of_run run alike
  obtain ⟨_, dated⟩ := Press.timely_of_run run alike
  cases sound.stands h _ ended with
  | elsewhere others => exact absurd ⟨path, rfl, same⟩ others
  | about concerns meets fits =>
    have finds : Press.Finds client (.ok (some diagnostics)) (stances h) := by
      simpa [Press.Ends, unasked] using meets
    obtain late | ⟨n, since, seen, looked, new⟩ := finds.2 diagnostics rfl
    · have passed := fits.recorded.late _ late
      rw [← fits.recorded.start] at passed
      exact absurd passed (Nat.not_le_of_lt soon)
    · obtain ⟨i, a, rfl, found, about, rfl⟩ := fits.recorded.seen n diagnostics seen
      obtain ⟨sent, eq, rfl⟩ := Option.map_eq_some_iff.mp (fits.recorded.looked.trans looked)
      have since : sent.mark.since ≤ i := Nat.le_of_lt_succ new
      have unheard := (dated.looked h _ sent ended eq).2 i a found since
      refine ⟨sent, a, eq, rfl, about, ⟨i, found, since⟩, unheard, fun clear => ?_⟩
      exact not_not.mp fun before =>
        clear a (List.mem_of_getElem? found) about ⟨unheard, before⟩

namespace Press

/-- A text as the server is told of it. -/
inductive Word
  | opened (language text : String)
  | changed (version : Int) (text : String)

namespace Word

def text : Word → String
  | opened _ text | changed _ text => text

def bytes (uri : Uri) : Word → List UInt8
  | opened language text => openMessage uri language text
  | changed version text => changeMessage uri version text

theorem tells {p cwd : Path} {uri : Uri} (word : Word) (named : p.uri cwd = .ok uri) :
    Tells p cwd word.text (word.bytes uri) := by
  cases word with
  | opened language text => exact .opened named language
  | changed version text => exact .changed named version

end Word

/-- A step that can be played. -/
inductive Move
  | begin (h : Holder) (q : Query)
  /-- A query takes a step that writes nothing. -/
  | turn (h : Holder)
  | tell (h : Holder) (word : Word)
  | say (text : String)
  | read
  | notice
  /-- The server takes all that is under way. -/
  | take

/-- A query writes all of a message. -/
def tell? (s : Press) (uri : Uri) (h : Holder) (word : Word) (job : Job) : Option Press :=
  match job.work with
  | .ask (.write bytes) _ =>
    match s.link.write bytes with
    | (after, some (.ok ())) =>
      if bytes = word.bytes uri then
        some (s.advance ⟨s.now, default, default⟩ h job
          (some ⟨job.notes.counted, s.taken + after.outgoing.length⟩))
      else none
    | _ => none
  | _ => none

def turn? (s : Press) (h : Holder) (job : Job) : Option Press :=
  match job.work with
  | .ask (.write _) _ => none
  | _ => some (s.advance ⟨s.now, default, default⟩ h job s.told)

def play? (client : Client) (uri : Uri) (s : Press) : Move → Option Press
  | .begin h q =>
    if h ≠ Link.readerHolder ∧ (s.jobs h).isNone then
      some { s.put h (some (job client q s.now)) with begun := q :: s.begun }
    else none
  | .turn h => (s.jobs h).bind (s.turn? h)
  | .tell h word => (s.jobs h).bind (s.tell? uri h word)
  | .say text => if s.link.finished then none else some (s.say (Frame.encode (utf8Bytes text)))
  | .read => some (s.readerStep ⟨s.now, default, default⟩)
  | .notice =>
    match s.link.notices with
    | [] => none
    | first :: _ => some (s.notice first)
  | .take => some (s.take s.link.outgoing.length)

theorem step_of_play? {uri : Uri} {move : Move} (named : p.uri client.cwd = .ok uri)
    (played : s.play? client uri move = some s') : Step client p s s' := by
  cases move with
  | begin h q =>
    simp only [play?] at played
    split at played
    next free =>
      cases played
      exact .begin free.1 (Option.isNone_iff_eq_none.mp free.2) q
    next => cases played
  | turn h =>
    obtain ⟨job, under, turned⟩ := Option.bind_eq_some_iff.mp played
    unfold turn? at turned
    split at turned
    next => cases turned
    next other =>
      cases turned
      refine .advance under _ rfl (.nothing fun bytes next writes => ?_)
      exact absurd writes (other bytes next)
  | tell h word =>
    obtain ⟨job, under, told⟩ := Option.bind_eq_some_iff.mp played
    unfold tell? at told
    split at told
    next bytes next writes =>
      split at told
      next after wrote =>
        split at told
        next message =>
          cases told
          have informs := Informs.text writes (by rw [wrote]) (message ▸ word.tells named)
          rw [wrote] at informs
          exact .advance under _ rfl informs
        next => cases told
      next => cases told
    next => cases told
  | say text =>
    simp only [play?] at played
    split at played
    next => cases played
    next isOpen =>
      cases played
      exact .say (Bool.eq_false_iff.mpr isOpen) _
  | read =>
    cases played
    exact .read _
  | notice =>
    simp only [play?] at played
    split at played
    next => cases played
    next waits =>
      cases played
      exact .notice waits
  | take =>
    cases played
    exact .take le_rfl

theorem run_of_play {room now : Nat} {uri : Uri} {moves : List Move} (run : s.Run client p room now)
    (named : p.uri client.cwd = .ok uri) (played : moves.foldlM (play? client uri) s = some s') :
    s'.Run client p room now :=
  run.trans (reflTransGen_of_foldlM (Step client p) played fun _ _ _ => step_of_play? named)

def gopher : Client := ⟨.ofCommand "gopls", default, default⟩

def report : String :=
  "\x7b\"jsonrpc\":\"2.0\",\"method\":\"textDocument/publishDiagnostics\",\"params\":\x7b" ++
    "\"uri\":\"file:///a\",\"diagnostics\":[]\x7d\x7d"

def page : Path := .ofString "/a"

def turns (h : Holder) (n : Nat) : List Move := List.replicate n (.turn h)

/-- A text is opened, the server takes it and says a report, and then something else happens. -/
def session (next : List Move) : List Move :=
  .begin 1 (.changed page "x") :: turns 1 5 ++ .tell 1 (.opened "plaintext" "x") :: turns 1 3 ++
    [.take, .say report] ++ next ++ [.read, .notice] ++ .begin 3 (.diagnostics page) :: turns 3 9

/-- The text is changed. -/
def edit : List Move :=
  .begin 2 (.changed page "y") :: turns 2 6 ++ .tell 2 (.changed 2 "y") :: turns 2 3

/-- What a wait has noted that returned an empty report, the last text that was sent, and the
report that arrived. -/
def outcome? (s : Press) : Option (Path × Notes × Sending × Arrival) :=
  match s.jobs 3, s.told, s.arrived with
  | some ⟨.diagnostics path, .done (.ok (some [])), notes⟩, some sent, [a] =>
    some (path, notes, sent, a)
  | _, _, _ => none

/-- Whether a wait has returned the report in time, and looked up the last text that was sent. -/
def returned (s : Press) (path : Path) (notes : Notes) (sent : Sending) (a : Arrival) : Bool :=
  decide (path = page) && decide (notes.looked = some sent) && decide (notes.now = notes.start) &&
    a.publication.diagnostics.isEmpty && s.begun.all fun q => q.path?.all fun path => path.same page

/-- A wait for diagnostics has returned the one report that arrived, in time, after it had looked up
the last text that was sent. -/
structure Returns (s : Press) (notes : Notes) (sent : Sending) (a : Arrival) : Prop where
  run : s.Run gopher page 4096 0
  alike : s.Alike gopher page
  ended :
    s.jobs 3 = some ⟨.diagnostics page, .done (.ok (some a.publication.diagnostics)), notes⟩
  soon : notes.now < notes.start + gopher.config.diagnosticsWaitMs
  looked : notes.looked = some sent
  told : s.told = some sent
  arrived : s.arrived = [a]

def uri : Uri := (page.uri gopher.cwd).toOption.getD default

theorem returns_of_play (moves : List Move) (check : Press → Sending → Arrival → Bool)
    (played : ((page.uri gopher.cwd).isOk &&
      (moves.foldlM (play? gopher uri) (.fresh 4096 0)).any fun s =>
        s.outcome?.any fun o => s.returned o.1 o.2.1 o.2.2.1 o.2.2.2 && check s o.2.2.1 o.2.2.2) =
      true) :
    ∃ s notes sent a, Returns s notes sent a ∧ check s sent a = true := by
  obtain ⟨found, played⟩ := Bool.and_eq_true_iff.mp played
  obtain ⟨uri', named⟩ := isOk_iff.mp found
  have named : page.uri gopher.cwd = .ok uri := by
    rw [named]
    simp [uri, named, Except.toOption]
  obtain ⟨s, reached, ended⟩ := (Option.any_eq_true _ _).mp played
  obtain ⟨⟨path, notes, sent, a⟩, outcome, checks⟩ := (Option.any_eq_true _ _).mp ended
  obtain ⟨returned, checked⟩ := Bool.and_eq_true_iff.mp checks
  simp only [Press.returned, Bool.and_eq_true, decide_eq_true_eq, List.isEmpty_iff,
    List.all_eq_true] at returned
  obtain ⟨⟨⟨⟨rfl, looked⟩, now⟩, empty⟩, only⟩ := returned
  unfold outcome? at outcome
  split at outcome
  next job told arrived =>
    cases outcome
    refine ⟨s, notes, sent, a, ⟨run_of_play .refl named reached, ?_, ?_, ?_, looked, told, arrived⟩,
      checked⟩
    · intro q path' uri uri' mem about _ _ _
      have all := only q mem
      rw [about] at all
      exact all
    · rw [empty]
      exact job
    · rw [now]
      exact Nat.lt_add_of_pos_right (by decide)
  next => cases outcome

end Press

theorem report_on_text_is_new : ∃ s notes sent a, Press.Returns s notes sent a ∧
    s.SaidAfter a sent ∧ Press.IsNew Press.page s sent a := by
  obtain ⟨s, notes, sent, a, returns, late⟩ := Press.returns_of_play (Press.session [])
    (fun s sent a => (s.pace[a.place]?).any fun taken => decide (sent.ends ≤ taken))
    (by decide +kernel)
  obtain ⟨taken, said, after⟩ := (Option.any_eq_true _ _).mp late
  obtain ⟨sent', a', looked, _, new⟩ := published_lists_are_new returns.run returns.alike rfl
    (by simp [Path.same]) returns.ended returns.soon
  cases looked.symm.trans returns.looked
  obtain ⟨i, found, _⟩ := new.arrived
  have mem : a' ∈ [a] := returns.arrived ▸ List.mem_of_getElem? found
  cases List.mem_singleton.mp mem
  exact ⟨s, notes, sent, a, returns, ⟨taken, said, of_decide_eq_true after⟩, new⟩

/-- A report that the server said before it had the text is returned as one on the text, for only
its arrival is compared with the sending. -/
theorem report_crosses_text : ∃ s notes sent a, Press.Returns s notes sent a ∧
    ¬ s.SaidAfter a sent := by
  obtain ⟨s, notes, sent, a, returns, early⟩ := Press.returns_of_play (Press.session Press.edit)
    (fun s sent a => (s.pace[a.place]?).all fun taken => decide (taken < sent.ends))
    (by decide +kernel)
  refine ⟨s, notes, sent, a, returns, fun ⟨taken, said, after⟩ => ?_⟩
  rw [said] at early
  exact absurd after (Nat.not_le_of_lt (of_decide_eq_true early))

end CodeIntel
