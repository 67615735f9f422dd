import CodeIntel.Proofs.Publications.Agreement

namespace CodeIntel

namespace Press

open Stance

/-- A step of a query leaves it to all others how they stand to the document, and the documents in
agreement with what the server was told, unless it has them for itself. -/
structure Turns (client : Client) (p : Path) (m : Moment) (h : Holder) (s : Press) (job : Job)
    (told : Option Sending) (x x' : Stance) : Prop where
  stands : Stands client p (s.advance m h job told) h (s.jobNext m h job) x'
  allows : ∀ h', h' ≠ h → Allows p h' s (s.advance m h job told)
  agrees : x'.inside = none →
    (x.inside = none ∧ (s.advance m h job told).kept p = s.kept p ∧
      (s.advance m h job told).since? = s.since?) ∨
    (s.advance m h job told).kept p = (s.advance m h job told).since?

variable {client : Client} {p : Path} {s s' : Press} {h : Holder} {q : Query} {notes : Notes}
  {x x' : Stance} {m : Moment} {d : Deed} {next : d.Reply → Work (Except ServerError q.Reply)}
  {told : Option Sending}

theorem Recorded.tick (recorded : Recorded p s notes x) :
    Recorded p s { notes with now := s.now } x :=
  ⟨recorded.counted, recorded.looked, recorded.seen, recorded.start,
    fun deadline late => Nat.le_trans (recorded.late deadline late) recorded.now, Nat.le_refl _⟩

theorem Recorded.advance (recorded : Recorded p s notes x) (m : Moment) (h : Holder) (job : Job)
    (told : Option Sending) (inside : Option Inside) (isOpen : Bool) :
    Recorded p (s.advance m h job told) { notes with now := s.now }
      { x with inside := inside, isOpen := isOpen } :=
  have ticks := recorded.tick
  ⟨ticks.counted, ticks.looked, ticks.seen, ticks.start, ticks.late, ticks.now⟩

/-- Nothing but the lock of the documents changes, and whoever has it keeps it. -/
theorem allows_of_kept (documents : s'.link.documents = s.link.documents)
    (held : s.link.documentsLock.holder = some h → s'.link.documentsLock.holder = some h)
    (told : s'.told = s.told) (arrived : s'.arrived = s.arrived) (now : s'.now = s.now) :
    Allows p h s s' := by
  refine ⟨fun mine => ⟨held mine, ?_, ?_⟩, fun some => ?_, ?_, ?_⟩
  · simp only [kept, documents]
  · simp only [since?, told]
  · rw [told, some]
  · exact arrived ▸ List.prefix_rfl
  · rw [now]

theorem allows_of_beside (beside : s.link.Beside s'.link) (told : s'.told = s.told)
    (arrived : s'.arrived = s.arrived) (now : s'.now = s.now) (h : Holder) : Allows p h s s' :=
  allows_of_kept beside.documents (fun held => by rw [beside.documentsLock, held]) told arrived now

/-- Somebody has the documents for himself, and nobody else has. -/
theorem allows_of_held (held : s.link.documentsLock.holder = some h)
    (told : s.told.isSome → s'.told.isSome) (arrived : s'.arrived = s.arrived)
    (now : s'.now = s.now) (h' : Holder) (ne : h' ≠ h) : Allows p h' s s' := by
  refine ⟨fun other => ?_, told, ?_, ?_⟩
  · exact absurd (Option.some.inj (other.symm.trans held)) ne
  · exact arrived ▸ List.prefix_rfl
  · rw [now]

theorem beside_advance (s : Press) (m : Moment) (h : Holder) (notes : Notes)
    (next : d.Reply → Work (Except ServerError q.Reply)) (told : Option Sending)
    (leaves : d.LeavesDocuments) :
    s.link.Beside (s.advance m h ⟨q, .ask d next, notes⟩ told).link := by
  change s.link.Beside (s.link.advance m h (.ask d next)).1
  rw [(s.link.advance_ask m h d next).1]
  exact s.link.beside_perform m h leaves

/-- A publication that is stored for the document has arrived with its number. -/
theorem published_of_latest
    (recorded : s.link.publications = .record (s.arrived.map Arrival.publication))
    {path : Path} (same : path.same p = true) {n : Nat} {diagnostics : List Diagnostic}
    (latest : s.link.publications.latest.get? path = some (n, diagnostics)) :
    s.Published p n diagnostics := by
  have newest := Publications.newest_record path (s.arrived.map Arrival.publication)
  rw [← recorded, latest] at newest
  generalize eq : s.arrived.map Arrival.publication = all at newest
  cases newest with
  | @some before after found here _ =>
    have there : (s.arrived.map Arrival.publication)[before.length]? = some found := by simp [eq]
    rw [List.getElem?_map, Option.map_eq_some_iff] at there
    obtain ⟨a, arrived, rfl⟩ := there
    refine ⟨before.length, a, rfl, arrived, ?_, rfl⟩
    exact PathTable.same_iff.mpr ((PathTable.same_iff.mp here).trans (PathTable.same_iff.mp same))

section About

variable (concerns : q.Concerns p) (fits : Fits p s h notes x)

include concerns fits

/-- A step that has nothing to do with the documents. -/
theorem turns_beside (leaves : d.LeavesDocuments)
    (recorded : Recorded p s (s.notesNext ⟨q, .ask d next, notes⟩) x')
    (inside : x'.inside = x.inside) (isOpen : x'.isOpen = x.isOpen)
    (meets : (s.link.advance m h (.ask d next)).2.1.Meets (rule p client.cwd) (Ends client q) x') :
    Turns client p m h s ⟨q, .ask d next, notes⟩ s.told x x' := by
  have beside := beside_advance s m h notes next s.told leaves
  have allows (h' : Holder) := allows_of_beside (p := p) beside rfl rfl rfl h'
  have fits' : Fits p s h (s.notesNext ⟨q, .ask d next, notes⟩) x' :=
    ⟨inside ▸ fits.inside, isOpen ▸ fits.isOpen, recorded⟩
  refine ⟨.about concerns meets (fits'.allow (allows h)), fun h' _ => allows h', fun outside => ?_⟩
  refine .inl ⟨inside ▸ outside, ?_, rfl⟩
  simp only [kept, beside.documents]

/-- A step that is not on record either. -/
theorem turns_still (leaves : d.LeavesDocuments)
    (note : s.notesNext ⟨q, .ask d next, notes⟩ = { notes with now := s.now })
    (waits : (Plan.ask d next).Meets (rule p client.cwd) (Ends client q) x)
    (goes : ∀ reply, (next reply).Meets (rule p client.cwd) (Ends client q) x) :
    Turns client p m h s ⟨q, .ask d next, notes⟩ s.told x x := by
  refine turns_beside concerns fits leaves (note ▸ fits.recorded.tick) rfl rfl ?_
  rw [(s.link.advance_ask m h d next).2]
  cases (s.link.perform m h d).2 with
  | none => exact waits
  | some reply => exact goes reply

theorem turns_published {path : Path}
    {next : Option (Nat × List Diagnostic) → Work (Except ServerError q.Reply)}
    (recorded : s.link.publications = .record (s.arrived.map Arrival.publication))
    (meets : (Plan.ask (.published path) next : Work _).Meets (rule p client.cwd)
      (Ends client q) x) :
    ∃ x', Turns client p m h s ⟨q, .ask (.published path) next, notes⟩ s.told x x' := by
  refine ⟨_, turns_beside concerns fits trivial ?_ ?_ ?_ (meets _)⟩
  · refine { fits.recorded.tick with seen := fun n diagnostics seen => ?_ }
    simp only at seen
    split at seen
    next here => exact published_of_latest recorded here seen
    next => cases seen
  · rfl
  · rfl

theorem turns_update {seen deadline : Nat} {next : Bool → Work (Except ServerError q.Reply)}
    (now : m.now = s.now)
    (meets : (Plan.ask (.update seen deadline) next : Work _).Meets (rule p client.cwd)
      (Ends client q) x) :
    ∃ x', Turns client p m h s ⟨q, .ask (.update seen deadline) next, notes⟩ s.told x x' := by
  have more := meets.2.1
  have late := meets.2.2
  have work := (s.link.advance_ask m h (.update seen deadline) next).2
  rw [Link.perform_update] at work
  by_cases news : seen < s.link.publications.count
  · rw [if_pos news] at work
    refine ⟨x, turns_beside concerns fits trivial fits.recorded.tick rfl rfl ?_⟩
    rw [work]
    exact more
  · rw [if_neg news] at work
    by_cases passed : deadline ≤ m.now
    · rw [if_pos passed] at work
      have recorded : Recorded p s { notes with now := s.now }
          { x with late := some deadline } := by
        refine { fits.recorded.tick with late := ?_ }
        rintro _ ⟨⟩
        exact now ▸ passed
      refine ⟨_, turns_beside concerns fits trivial recorded rfl rfl ?_⟩
      rw [work]
      exact late
    · rw [if_neg passed] at work
      refine ⟨x, turns_beside concerns fits trivial fits.recorded.tick rfl rfl ?_⟩
      rw [work]
      exact meets

theorem turns_document {path : Path} {next : Option Document → Work (Except ServerError q.Reply)}
    (meets : (Plan.ask (.document path) next : Work _).Meets (rule p client.cwd)
      (Ends client q) x) :
    ∃ x', Turns client p m h s ⟨q, .ask (.document path) next, notes⟩ s.told x x' := by
  obtain ⟨same, i, inside, found⟩ := meets
  obtain ⟨_, kept, told⟩ := fits.inside i inside
  have meets := found (s.link.documents.get? path)
    (by rw [kept, PathTable.get?_congr _ same]; rfl)
  have recorded : Recorded p s { notes with looked := s.told, now := s.now }
      { x with looked := i.told } := { fits.recorded.tick with looked := told.symm }
  exact ⟨_, turns_beside concerns fits trivial recorded rfl rfl meets⟩

theorem turns_setDocument {path : Path} {document : Document}
    {next : Unit → Work (Except ServerError q.Reply)}
    (meets : (Plan.ask (.setDocument path document) next : Work _).Meets (rule p client.cwd)
      (Ends client q) x) :
    ∃ x', Turns client p m h s ⟨q, .ask (.setDocument path document) next, notes⟩ s.told x x' := by
  obtain ⟨same, i, inside, set⟩ := meets
  obtain ⟨held, _, told⟩ := fits.inside i inside
  refine ⟨_, .about concerns set ⟨?_, fits.isOpen, fits.recorded.advance ..⟩,
    allows_of_held held id rfl rfl, fun out => absurd out (Option.some_ne_none _)⟩
  rintro _ ⟨⟩
  refine ⟨held, ?_, told⟩
  change _ = ((s.link.documents.set path document).get? p).map _
  rw [PathTable.get?_set_of_same _ same]
  rfl

theorem turns_leaveDocuments {next : Unit → Work (Except ServerError q.Reply)}
    (meets : (Plan.ask .leaveDocuments next : Work _).Meets (rule p client.cwd)
      (Ends client q) x) :
    ∃ x', Turns client p m h s ⟨q, .ask .leaveDocuments next, notes⟩ s.told x x' := by
  obtain ⟨since, inside, left⟩ := meets
  obtain ⟨held, kept, told⟩ := fits.inside _ inside
  refine ⟨_, .about concerns left ⟨nofun, fun isOpen => ?_, fits.recorded.advance ..⟩,
    allows_of_held held id rfl rfl, fun _ => .inr (kept.symm.trans told)⟩
  have some : s.since?.isSome = true := told ▸ isOpen
  exact Option.isSome_map.symm.trans some

theorem turns_enterDocuments {next : Unit → Work (Except ServerError q.Reply)}
    (agrees : (∀ h', s.link.documentsLock.holder = some h' → h' = h) → s.kept p = s.since?)
    (meets : (Plan.ask .enterDocuments next : Work _).Meets (rule p client.cwd)
      (Ends client q) x) :
    ∃ x', Turns client p m h s ⟨q, .ask .enterDocuments next, notes⟩ s.told x x' := by
  have outside := meets.1
  have entered := meets.2
  obtain ⟨after, work⟩ := s.link.advance_ask m h .enterDocuments next
  replace after : (s.advance m h ⟨q, .ask .enterDocuments next, notes⟩ s.told).link =
      { s.link with documentsLock := s.link.documentsLock.request h } := after
  simp only [Link.perform] at work
  have others (h' : Holder) (held : s.link.documentsLock.holder = some h') :
      (s.link.documentsLock.request h).holder = some h' := Lock.holder_request_of_some held h
  have allows (h' : Holder) : Allows p h' s
      (s.advance m h ⟨q, .ask .enterDocuments next, notes⟩ s.told) :=
    allows_of_kept (by rw [after]) (fun held => by rw [after]; exact others h' held) rfl rfl rfl
  have kept : (s.advance m h ⟨q, .ask .enterDocuments next, notes⟩ s.told).kept p = s.kept p := by
    simp only [Press.kept, after]
  by_cases mine : (s.link.documentsLock.request h).holder = some h
  · have agree : s.kept p = s.since? := agrees fun h' held =>
      Option.some.inj ((others h' held).symm.trans mine)
    have goes := entered s.since? fun isOpen => Option.isSome_map.trans (fits.isOpen isOpen)
    have recorded := fits.recorded.advance m h ⟨q, .ask .enterDocuments next, notes⟩ s.told
      (some ⟨s.since?, s.since?⟩) x.isOpen
    rw [if_pos mine] at work
    refine ⟨{ x with inside := some ⟨s.since?, s.since?⟩ }, .about concerns ?_
      ⟨?_, fits.isOpen, recorded⟩, fun h' _ => allows h',
      fun out => absurd out (Option.some_ne_none _)⟩
    · change (s.link.advance m h (.ask .enterDocuments next)).2.1.Meets _ _ _
      rw [work]
      exact goes
    · rintro _ ⟨⟩
      exact ⟨by rw [after]; exact mine, (kept.trans agree).symm, rfl⟩
  · have recorded := fits.recorded.advance m h ⟨q, .ask .enterDocuments next, notes⟩ s.told
      x.inside x.isOpen
    rw [if_neg mine] at work
    refine ⟨x, .about concerns ?_ ⟨?_, fits.isOpen, recorded⟩, fun h' _ => allows h',
      fun _ => .inl ⟨outside, kept, rfl⟩⟩
    · change (s.link.advance m h (.ask .enterDocuments next)).2.1.Meets _ _ _
      rw [work]
      exact meets
    · exact fun i inside => by cases outside.symm.trans inside

theorem turns_write {bytes : List UInt8}
    {next : Except ServerError Unit → Work (Except ServerError q.Reply)}
    (informs : Informs p client.cwd s ⟨q, .ask (.write bytes) next, notes⟩ told)
    (meets : (Plan.ask (.write bytes) next : Work _).Meets (rule p client.cwd)
      (Ends client q) x) :
    ∃ x', Turns client p m h s ⟨q, .ask (.write bytes) next, notes⟩ told x x' := by
  obtain ⟨failed, sent, silent⟩ := meets.2
  have work : (s.link.advance m h (.ask (.write bytes) next)).2.1 =
      ((s.link.write bytes).2.map next).getD (.ask (.write bytes) next) :=
    (s.link.advance_ask m h (.write bytes) next).2
  cases informs with
  | @text text _ _ writes whole tells =>
    cases writes
    obtain ⟨i, inside, goes⟩ := sent text tells
    obtain ⟨held, kept, _⟩ := fits.inside i inside
    have beside := beside_advance (d := .write bytes) s m h notes next
      (some ⟨notes.counted, s.taken + (s.link.write bytes).1.outgoing.length⟩) trivial
    refine ⟨{ x with inside := some { i with told := some x.counted } }, .about concerns ?_
      ⟨?_, fun _ => rfl, fits.recorded.advance ..⟩,
      allows_of_held held (fun _ => rfl) rfl rfl, fun out => absurd out (Option.some_ne_none _)⟩
    · change (s.link.advance m h (.ask (.write bytes) next)).2.1.Meets _ _ _
      rw [work, whole]
      exact goes
    · rintro _ ⟨⟩
      refine ⟨by rw [beside.documentsLock, held], ?_, congrArg some fits.recorded.counted.symm⟩
      rw [kept]
      simp only [Press.kept, beside.documents]
  | nothing none =>
    refine ⟨x, turns_beside concerns fits trivial fits.recorded.tick rfl rfl ?_⟩
    rw [work]
    cases wrote : (s.link.write bytes).2 with
    | none => exact meets
    | some result =>
      cases result with
      | error e => exact failed e
      | ok _ => exact silent (none bytes next rfl wrote)

/-- A step of a query about the document. -/
theorem turns_about {work : Work (Except ServerError q.Reply)}
    (recorded : s.link.publications = .record (s.arrived.map Arrival.publication))
    (agrees : (∀ h', s.link.documentsLock.holder = some h' → h' = h) → x.inside = none →
      s.kept p = s.since?)
    (now : m.now = s.now) (informs : Informs p client.cwd s ⟨q, work, notes⟩ told)
    (meets : work.Meets (rule p client.cwd) (Ends client q) x) :
    ∃ x', Turns client p m h s ⟨q, work, notes⟩ told x x' := by
  by_cases writes : ∃ bytes next, work = .ask (.write bytes) next
  · obtain ⟨bytes, next, rfl⟩ := writes
    exact turns_write concerns fits informs meets
  obtain rfl : told = s.told := by
    cases informs with
    | text eq => exact absurd ⟨_, _, eq⟩ writes
    | nothing => rfl
  cases work with
  | done result =>
    have beside : s.link.Beside (s.advance m h ⟨q, .done result, notes⟩ s.told).link :=
      .refl s.link
    have allows (h' : Holder) := allows_of_beside (p := p) beside rfl rfl rfl h'
    have fits' : Fits p s h { notes with now := s.now } x :=
      ⟨fits.inside, fits.isOpen, fits.recorded.tick⟩
    exact ⟨x, .about concerns meets (fits'.allow (allows h)), fun h' _ => allows h',
      fun outside => .inl ⟨outside, rfl, rfl⟩⟩
  | ask d next =>
    cases d with
    | write bytes => exact absurd ⟨bytes, next, rfl⟩ writes
    | enterDocuments =>
      exact turns_enterDocuments concerns fits (fun mine => agrees mine meets.1) meets
    | leaveDocuments => exact turns_leaveDocuments concerns fits meets
    | document path => exact turns_document concerns fits meets
    | setDocument path document => exact turns_setDocument concerns fits meets
    | published path => exact turns_published concerns fits recorded meets
    | update seen deadline => exact turns_update concerns fits now meets
    | now =>
      refine ⟨_, turns_beside concerns fits trivial ?_ ?_ ?_ (meets m.now)⟩
      · exact { fits.recorded.tick with start := now.symm }
      · rfl
      · rfl
    | arrivals =>
      refine ⟨_, turns_beside concerns fits trivial ?_ ?_ ?_ (meets s.link.publications.count)⟩
      · exact { fits.recorded.tick with counted := rfl }
      · rfl
      · rfl
    | readText | await | enterWriter =>
      exact ⟨x, turns_still concerns fits trivial rfl meets meets.2⟩
    | register | forget | leaveWriter | writerOpen | closeWriter =>
      exact ⟨x, turns_still concerns fits trivial rfl meets meets⟩

end About

/-- Nothing is told of the document for a query about another one. -/
theorem told_of_elsewhere {job : Job} (others : ¬ job.query.Concerns p)
    (alike : s.Alike client p) (begun : job.query ∈ s.begun)
    (keeps : job.work.Asks (Deed.KeepsTo job.query client.cwd))
    (informs : Informs p client.cwd s job told) : told = s.told := by
  cases informs with
  | nothing => rfl
  | text writes _ tells =>
    rw [writes] at keeps
    have writes' : job.query.Writes client.cwd _ := keeps.1
    obtain ⟨path, uri, uri', about, named, named', text⟩ := writes'.same_uri tells
    exact absurd ⟨path, about, alike _ path uri uri' begun about named named' text⟩ others

/-- A step of a query about another document. -/
theorem turns_elsewhere {job : Job} (others : ¬ job.query.Concerns p) (outside : x.inside = none)
    (keeps : job.work.Asks (Deed.KeepsTo job.query client.cwd)) :
    Turns client p m h s job s.told x x := by
  obtain ⟨q, work, notes⟩ := job
  have stands : Stands client p (s.advance m h ⟨q, work, notes⟩ s.told) h
      (s.jobNext m h ⟨q, work, notes⟩) x :=
    .elsewhere others (s.link.asks_advance m h keeps) outside
  suffices (s.advance m h ⟨q, work, notes⟩ s.told).kept p = s.kept p ∧ ∀ h', h' ≠ h →
      s.link.documentsLock.holder = some h' →
        (s.advance m h ⟨q, work, notes⟩ s.told).link.documentsLock.holder = some h' by
    refine ⟨stands, fun h' ne => ?_, fun outside => .inl ⟨outside, this.1, rfl⟩⟩
    exact ⟨fun held => ⟨this.2 h' ne held, this.1, rfl⟩, id, List.prefix_rfl, le_rfl⟩
  cases work with
  | done result => exact ⟨rfl, fun _ _ held => held⟩
  | ask d next =>
    have after : (s.advance m h ⟨q, .ask d next, notes⟩ s.told).link = (s.link.perform m h d).1 :=
      (s.link.advance_ask m h d next).1
    unfold kept
    rw [after]
    by_cases leaves : d.LeavesDocuments
    · have beside := s.link.beside_perform m h leaves
      exact ⟨by rw [beside.documents], fun _ _ held => beside.documentsLock ▸ held⟩
    · cases d with
      | enterDocuments => exact ⟨rfl, fun h' _ held => Lock.holder_request_of_some held h⟩
      | leaveDocuments => exact ⟨rfl, fun h' ne held => Lock.holder_withdraw_of_ne held ne⟩
      | setDocument path document =>
        refine ⟨congrArg _ (PathTable.get?_set_of_not_same _ ?_ document), fun _ _ held => held⟩
        exact Bool.eq_false_iff.mpr fun same => others ⟨path, keeps.1, same⟩
      | _ => exact absurd trivial leaves

end Press

end CodeIntel

namespace CodeIntel

namespace Press

open Stance

variable {client : Client} {p : Path} {s s' : Press} {h : Holder} {q : Query} {notes : Notes}
  {x : Stance} {stances : Holder → Stance} {m : Moment}

theorem Sound.turn {job : Job} {told : Option Sending} (sound : Sound client p s stances)
    (alike : s.Alike client p) (under : s.jobs h = some job) (now : m.now = s.now)
    (informs : Informs p client.cwd s job told) :
    ∃ stances, Sound client p (s.advance m h job told) stances := by
  have turns : ∃ x', Turns client p m h s job told (stances h) x' := by
    cases sound.stands h job under with
    | about concerns meets fits =>
      refine turns_about concerns fits sound.recorded (fun mine outside => ?_) now informs meets
      refine sound.agrees fun h' => ?_
      by_cases same : h' = h
      · exact same ▸ outside
      · exact sound.outside mine h' same
    | elsewhere others keeps outside =>
      obtain rfl := told_of_elsewhere others alike (sound.begun h job under) keeps informs
      exact ⟨_, turns_elsewhere others outside keeps⟩
  obtain ⟨x', turns⟩ := turns
  have mute : (s.advance m h job told).link.reader.Mute := by
    have same : (s.link.advance m h job.work).1.reader = s.link.reader := by
      cases job.work with
      | done result => rfl
      | ask d next => rw [(s.link.advance_ask m h d next).1, s.link.reader_perform m h d]
    exact same.symm ▸ sound.mute
  refine ⟨Function.update stances h x', sound.put rfl (List.Subset.refl _) turns.allows ?_ ?_ nofun
    ?_ mute (Vigil.publications_advance ..) rfl⟩
  · rintro _ ⟨⟩
    exact sound.begun h job under
  · rintro _ ⟨⟩
    exact turns.stands
  · intro others outside
    obtain ⟨before, kept, since⟩ | agrees := turns.agrees outside
    · refine kept.trans (Eq.trans (sound.agrees fun h' => ?_) since.symm)
      by_cases same : h' = h
      · exact same ▸ before
      · exact others h' same
    · exact agrees

theorem Sound.begin (sound : Sound client p s stances) (idle : s.jobs h = none) (q : Query) :
    ∃ stances, Sound client p
      { s.put h (some (job client q s.now)) with begun := q :: s.begun } stances := by
  have recorded : Recorded p s ⟨⟨0, 0⟩, none, 0, s.now⟩ .initial :=
    ⟨rfl, rfl, nofun, rfl, nofun, le_rfl⟩
  have allows (h' : Holder) : Allows p h' s
      { s.put h (some (job client q s.now)) with begun := q :: s.begun } :=
    ⟨fun held => ⟨held, rfl, rfl⟩, id, List.prefix_rfl, le_rfl⟩
  refine ⟨Function.update stances h .initial, sound.put rfl (List.subset_cons_self _ _)
    (fun h' _ => allows h') ?_ ?_ (fun _ => rfl) ?_ sound.mute rfl rfl⟩
  · rintro _ ⟨⟩
    exact List.mem_cons_self
  · rintro _ ⟨⟩
    by_cases concerns : q.Concerns p
    · have fits : Fits p s h ⟨⟨0, 0⟩, none, 0, s.now⟩ .initial := ⟨nofun, nofun, recorded⟩
      exact .about concerns (ends_answer concerns rfl) (fits.allow (allows h))
    · exact .elsewhere concerns (client.keepsTo_answer q) rfl
  · intro others _
    refine sound.agrees fun h' => ?_
    by_cases same : h' = h
    · exact same ▸ sound.idle h idle
    · exact others h' same

theorem settled_of_suspends {α : Type} {goal : α → Stance → Prop} {cwd : Path} {d : Deed}
    {next : d.Reply → Work α} (suspends : d.Suspends)
    (meets : (Plan.ask d next).Meets (rule p cwd) goal x) : x.Settled := by
  cases d with
  | enterDocuments => exact settled_of_outside meets.1
  | readText | await | enterWriter | write | update => exact meets.1
  | _ => exact suspends.elim

theorem outside_of_ends {result : Except ServerError q.Reply} (ends : Ends client q result x) :
    x.inside = none := by
  cases q with
  | diagnostics path =>
    simp only [Ends] at ends
    split at ends
    · exact ends
    · exact ends.1
  | _ => exact ends

/-- A query comes to its end. -/
theorem Sound.finish {result : Except ServerError q.Reply} (sound : Sound client p s stances)
    (under : s.jobs h = some ⟨q, .done result, notes⟩) :
    ∃ stances, Sound client p (s.put h none) stances := by
  have outside : (stances h).inside = none := by
    cases sound.stands h _ under with
    | about concerns meets fits => exact outside_of_ends meets
    | elsewhere others keeps outside => exact outside
  refine ⟨Function.update stances h (stances h), sound.put rfl (List.Subset.refl _) ?_ nofun nofun
    (fun _ => outside) ?_ sound.mute rfl rfl⟩
  · exact fun h' _ => ⟨fun held => ⟨held, rfl, rfl⟩, id, List.prefix_rfl, le_rfl⟩
  · intro others _
    refine sound.agrees fun h' => ?_
    by_cases same : h' = h
    · exact same ▸ outside
    · exact others h' same

/-- A query is dropped while it waits. -/
theorem Sound.drop {d : Deed} {next : d.Reply → Work (Except ServerError q.Reply)}
    (sound : Sound client p s stances) (under : s.jobs h = some ⟨q, .ask d next, notes⟩)
    (suspends : d.Suspends) :
    ∃ stances, Sound client p { s.put h none with link := s.link.abandon h } stances := by
  refine ⟨Function.update stances h .initial, sound.put rfl (List.Subset.refl _) ?_ nofun nofun
    (fun _ => rfl) ?_ sound.mute rfl rfl⟩
  · exact fun h' ne => ⟨fun held => ⟨Lock.holder_withdraw_of_ne held ne, rfl, rfl⟩, id,
      List.prefix_rfl, le_rfl⟩
  · intro others _
    change s.kept p = s.since?
    cases inside : (stances h).inside with
    | none =>
      refine sound.agrees fun h' => ?_
      by_cases same : h' = h
      · exact same ▸ inside
      · exact others h' same
    | some i =>
      cases sound.stands h _ under with
      | about concerns meets fits =>
        obtain ⟨_, kept, told⟩ := fits.inside i inside
        rw [← kept, ← told, settled_of_suspends suspends meets i inside]
      | elsewhere _ _ outside => cases inside.symm.trans outside

/-- A notification is looked at. -/
theorem Sound.notice {first : String × Json} {rest : List (String × Json)}
    (sound : Sound client p s stances) (waits : s.link.notices = first :: rest) :
    Sound client p (s.notice first) stances := by
  obtain ⟨method, params⟩ := first
  have step : s.link.noticeStep.1 = { s.link with
      notices := rest, publications := s.link.publications.receive method params } := by
    simp only [Link.noticeStep, waits]
  have after : (s.notice (method, params)).link = _ := step
  refine sound.aside (fun h => ⟨fun held => ⟨?_, ?_, rfl⟩, id, List.prefix_append _ _, le_rfl⟩) rfl
    rfl ?_ rfl ?_ ?_
  · rw [after]
    exact held
  · simp only [kept, after]
  · simp only [kept, after]
  · rw [after]
    exact sound.mute
  · rw [after]
    simp only
    rw [sound.recorded]
    refine (Publications.receive_record _ (method, params)).trans (congrArg _ ?_)
    unfold Press.notice
    cases Publication.ofNotice? (method, params) <;> simp

/-- Something happens that has nothing to do with the documents. -/
theorem Sound.still {link : Link} {now taken : Nat} {pace places : List Nat}
    (sound : Sound client p s stances) (documents : link.documents = s.link.documents)
    (lock : link.documentsLock = s.link.documentsLock)
    (publications : link.publications = s.link.publications) (mute : link.reader.Mute)
    (later : s.now ≤ now) :
    Sound client p { s with link, now, taken, pace, places } stances := by
  refine sound.aside (fun h => ⟨fun held => ⟨?_, ?_, rfl⟩, id, List.prefix_rfl, later⟩) rfl
    rfl ?_ rfl mute (publications.trans sound.recorded)
  · exact lock ▸ held
  · simp only [kept, documents]
  · simp only [kept, documents]

theorem Sound.step (sound : Sound client p s stances) (alike : s.Alike client p)
    (step : Step client p s s') : ∃ stances, Sound client p s' stances := by
  cases step with
  | begin _ idle q => exact sound.begin idle q
  | advance under m now informs => exact sound.turn alike under now informs
  | finish under => exact sound.finish under
  | drop under suspends => exact sound.drop under suspends
  | read m =>
    have hears := Link.hears_readerStep sound.mute m
    exact ⟨stances, sound.still hears.documents hears.documentsLock hears.publications hears.mute
      le_rfl⟩
  | notice waits => exact ⟨stances, sound.notice waits⟩
  | say isOpen bytes => exact ⟨stances, sound.still rfl rfl rfl sound.mute le_rfl⟩
  | take under => exact ⟨stances, sound.still rfl rfl rfl sound.mute le_rfl⟩
  | pass later => exact ⟨stances, sound.still rfl rfl rfl sound.mute later⟩
  | other beside reader outgoing =>
    exact ⟨stances, sound.still beside.documents beside.documentsLock beside.publications
      (reader ▸ sound.mute) le_rfl⟩

theorem begun_step (step : Step client p s s') : s.begun <:+ s'.begun := by
  cases step with
  | begin => exact List.suffix_cons _ _
  | _ => exact List.suffix_rfl

theorem Alike.before (alike : s'.Alike client p) (step : Step client p s s') :
    s.Alike client p :=
  fun q path uri uri' mem => alike q path uri uri' ((begun_step step).subset mem)

theorem sound_of_run {room now : Nat} (run : s.Run client p room now) (alike : s.Alike client p) :
    ∃ stances, Sound client p s stances := by
  induction run with
  | refl =>
    exact ⟨fun _ => .initial, rfl, trivial, nofun, nofun, fun _ _ => rfl, fun _ => rfl⟩
  | tail _ step ih =>
    obtain ⟨stances, sound⟩ := ih (alike.before step)
    exact sound.step (alike.before step) step

end Press

end CodeIntel
