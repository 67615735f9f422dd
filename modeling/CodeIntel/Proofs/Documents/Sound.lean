import CodeIntel.Proofs.Documents.Conduct
import CodeIntel.Proofs.Documents.Dialogue
import CodeIntel.Proofs.Path.Steps
import CodeIntel.Proofs.Link.Table

namespace CodeIntel

theorem Path.same_symm {a b : Path} (same : a.same b = true) : b.same a = true :=
  PathTable.same_iff.mpr (PathTable.same_iff.mp same).symm

theorem PathTable.get?_congr {α : Type} (t : PathTable α) {p q : Path} (same : p.same q = true) :
    t.get? p = t.get? q := by
  unfold get?
  congr 2
  funext e
  rw [Bool.eq_iff_iff, same_iff, same_iff, same_iff.mp same]

theorem Link.documents_write (link : Link) (bytes : List UInt8) :
    (link.write bytes).1.documents = link.documents := by
  unfold write
  split <;> rfl

/-- Nothing but a new entry changes the documents. -/
theorem Link.documents_perform (link : Link) (m : Moment) (self : Holder) {d : Deed}
    (h : ∀ path document, d ≠ .setDocument path document) :
    (link.perform m self d).1.documents = link.documents := by
  cases d with
  | setDocument path document => exact absurd rfl (h path document)
  | write bytes => exact link.documents_write bytes
  | await n deadline =>
    rw [perform_await]
    split
    · rfl
    · split <;> rfl
  | update seen deadline =>
    rw [perform_update]
    split <;> rfl
  | _ => rfl

namespace Dialogue

open Incident Stand

variable {client : Client} {self : Holder} {m : Moment} {d d' : Dialogue} {p cwd : Path} {uri : Uri}
  {link : Link} {q : Query} {history : List Incident} {told : Option Copy}
  {goal : Except ServerError Unit → Stand → Prop}

/-- Where a document stands after some work took a step: what the server was told of it by then, and
what may follow. -/
def Follows (p : Path) (uri : Uri) (cwd : Path) (goal : Except ServerError Unit → Stand → Prop)
    (documents : PathTable Document) (history : List Incident)
    (work : Work (Except ServerError Unit)) : Prop :=
  ∃ told, Says cwd uri versionAfter history told ∧
    work.Meets (rule p uri) goal ⟨documents.get? p, told, textAt history⟩

theorem follows_write {message : List UInt8}
    {next : Except ServerError Unit → Work (Except ServerError Unit)} (visits : q.Visits cwd uri)
    (follows : Follows p uri cwd goal link.documents history (.ask (.write message) next)) :
    Follows p uri cwd goal (link.advance m self (.ask (.write message) next)).1.documents
      ((incident? link m q (.ask (.write message) next)).toList ++ history)
      (link.advance m self (.ask (.write message) next)).2.1 := by
  have ⟨told, record, ⟨told', takes, sent⟩, missed, misses, fails⟩ := follows
  obtain ⟨after, rest⟩ := link.advance_ask m self (.write message) next
  have kept : (link.advance m self (.ask (.write message) next)).1.documents = link.documents :=
    after ▸ link.documents_write message
  have replies : (link.perform m self (.write message)).2 = (link.write message).2 := rfl
  rw [rest, replies]
  rw [kept]
  simp only [incident?]
  cases (link.write message).2 with
  | none => exact follows
  | some result =>
    cases result with
    | ok _ => exact ⟨told', .wrote visits takes record, sent⟩
    | error e => exact ⟨missed, .failed visits misses record, fails e⟩

/-- A step that neither changes a document nor becomes known. -/
theorem follows_quiet {deed : Deed} {next : deed.Reply → Work (Except ServerError Unit)}
    (apart : ∀ path document, deed ≠ .setDocument path document)
    (quiet : incident? link m q (.ask deed next) = none)
    (record : Says cwd uri versionAfter history told)
    (waits : (Plan.ask deed next).Meets (rule p uri) goal
      ⟨link.documents.get? p, told, textAt history⟩)
    (goesOn : ∀ reply,
      (next reply).Meets (rule p uri) goal ⟨link.documents.get? p, told, textAt history⟩) :
    Follows p uri cwd goal (link.advance m self (.ask deed next)).1.documents
      ((incident? link m q (.ask deed next)).toList ++ history)
      (link.advance m self (.ask deed next)).2.1 := by
  obtain ⟨after, rest⟩ := link.advance_ask m self deed next
  rw [quiet, rest, after]
  refine ⟨told, record, ?_⟩
  rw [link.documents_perform m self apart]
  cases (link.perform m self deed).2 with
  | none => exact waits
  | some reply => exact goesOn reply

/-- A step of the work on a query about the document. -/
theorem follows_advance {work : Work (Except ServerError Unit)} (visits : q.Visits cwd uri)
    (follows : Follows p uri cwd goal link.documents history work) :
    Follows p uri cwd goal (link.advance m self work).1.documents
      ((incident? link m q work).toList ++ history) (link.advance m self work).2.1 := by
  cases work with
  | done a => exact follows
  | ask deed next =>
    have ⟨told, record, meets⟩ := follows
    cases deed with
    | write message => exact follows_write visits follows
    | readText path =>
      change Follows _ _ _ _ link.documents _ (next (m.files.readText (m.cwd.join path)))
      simp only [incident?]
      cases m.files.readText (m.cwd.join path) with
      | error cause => exact ⟨told, record, meets.1 cause⟩
      | ok text => exact ⟨told, .silent trivial record, meets.2 text⟩
    | document path =>
      refine ⟨told, record, ?_⟩
      change (next (link.documents.get? path)).Meets _ _ _
      rw [PathTable.get?_congr _ meets.1]
      exact meets.2
    | setDocument path document =>
      refine ⟨told, record, ?_⟩
      change (next ()).Meets _ _ (Stand.mk ((link.documents.set path document).get? p) _ _)
      rw [PathTable.get?_set_of_same _ meets.1]
      exact meets.2
    | writerOpen =>
      change Follows _ _ _ _ link.documents _ (next link.writable)
      simp only [incident?]
      cases link.writable with
      | true => exact ⟨told, record, meets.1⟩
      | false =>
        obtain ⟨told', misses, closed⟩ := meets.2
        exact ⟨told', .failed visits misses record, closed⟩
    | _ =>
      exact follows_quiet nofun rfl record meets meets

/-- What becomes known of a step: a text that is read, a message that is written, or a failure. -/
theorem incident?_cases {work : Work (Except ServerError Unit)} {incident : Incident}
    (happens : incident? link m q work = some incident) :
    (∃ text, incident = .read q text) ∨
      (∃ message next, work = .ask (.write message) next ∧ incident = .wrote q message) ∨
      incident = .failed q := by
  unfold incident? at happens
  split at happens
  next =>
    obtain ⟨text, _, rfl⟩ := Option.map_eq_some_iff.mp happens
    exact .inl ⟨text, rfl⟩
  next =>
    split at happens <;> cases happens
    exact .inr (.inr rfl)
  next message next =>
    split at happens <;> cases happens
    · exact .inr (.inl ⟨message, next, rfl, rfl⟩)
    · exact .inr (.inr rfl)
  next => cases happens

theorem query_incident? {work : Work (Except ServerError Unit)} {incident : Incident}
    (happens : incident? link m q work = some incident) : incident.query = q := by
  rcases incident?_cases happens with ⟨_, rfl⟩ | ⟨_, _, _, rfl⟩ | rfl <;> rfl

theorem writes_incident? {work : Work (Except ServerError Unit)} {q' : Query} {message : List UInt8}
    (keeps : work.Asks (Deed.KeepsTo q cwd))
    (happens : incident? link m q work = some (.wrote q' message)) : q'.Writes cwd message := by
  rcases incident?_cases happens with ⟨_, eq⟩ | ⟨_, _, rfl, eq⟩ | eq <;> cases eq
  exact keeps.1

theorem ne_ended_of_incident? {work : Work (Except ServerError Unit)} {incident : Incident}
    (happens : incident? link m q work = some incident) (q' : Query)
    (result : Except ServerError Unit) : incident ≠ .ended q' result := by
  rintro rfl
  rcases incident?_cases happens with ⟨_, eq⟩ | ⟨_, _, _, eq⟩ | eq <;> cases eq

/-- What happens for a query about another document. -/
theorem record_apart {work : Work (Except ServerError Unit)} (elsewhere : ¬ q.Visits cwd uri)
    (record : Says cwd uri versionAfter history told) :
    Says cwd uri versionAfter ((incident? link m q work).toList ++ history) told := by
  cases happens : incident? link m q work with
  | none => exact record
  | some incident => exact .apart (query_incident? happens ▸ elsewhere) record

theorem get?_advance_apart {work : Work (Except ServerError Unit)}
    (named : p.uri cwd = .ok uri) (elsewhere : ¬ q.Visits cwd uri)
    (keeps : work.Asks (Deed.KeepsTo q cwd)) :
    (link.advance m self work).1.documents.get? p = link.documents.get? p := by
  cases work with
  | done a => rfl
  | ask deed next =>
    rw [(link.advance_ask m self deed next).1]
    by_cases sets : ∃ path document, deed = .setDocument path document
    · obtain ⟨path, document, rfl⟩ := sets
      refine PathTable.get?_set_of_not_same _ (Bool.eq_false_iff.mpr fun same => elsewhere ?_) _
      exact ⟨path, keeps.1, Path.uri_of_same (Path.same_symm same) named⟩
    · rw [link.documents_perform m self fun path document eq => sets ⟨path, document, eq⟩]

/-- Whatever is done for a query keeps to its document. -/
structure Kept (client : Client) (d : Dialogue) : Prop where
  wrote : ∀ q message, .wrote q message ∈ d.history → q.Writes client.cwd message
  keeps : ∀ q work, d.current = some (q, work) → work.Asks (Deed.KeepsTo q client.cwd)

theorem asks_work (client : Client) (q : Query) :
    (work client q).Asks (Deed.KeepsTo q client.cwd) :=
  (closed_keepsTo q client.cwd).bind (client.keepsTo_answer q) fun _ => trivial

theorem Kept.step (kept : d.Kept client) (step : Step client self d d') : d'.Kept client := by
  cases step with
  | begin idle q =>
    refine ⟨fun q' message mem => kept.wrote q' message (by simpa using mem), ?_⟩
    rintro q' work ⟨⟩
    exact asks_work client q
  | @advance q work under m =>
    have keeps := kept.keeps q work under
    refine ⟨fun q' message mem => ?_, ?_⟩
    · rcases List.mem_append.mp mem with new | old
      · exact writes_incident? keeps (Option.mem_toList.mp new)
      · exact kept.wrote q' message old
    · rintro q' work' ⟨⟩
      exact d.link.asks_advance m self keeps
  | finish under =>
    exact ⟨fun q' message mem => kept.wrote q' message (by simpa using mem), nofun⟩
  | other same => exact ⟨kept.wrote, kept.keeps⟩

theorem kept_of_run {room : Nat} (run : d.Run client self room) : d.Kept client := by
  induction run with
  | refl => exact ⟨nofun, nofun⟩
  | tail _ step ih => exact ih.step step

/-- How the query under way, if any, stands to a document. -/
inductive Standing (client : Client) (p : Path) (uri : Uri) (documents : PathTable Document)
    (history : List Incident) : Option (Query × Work (Except ServerError Unit)) → Prop
  | idle {told : Option Copy} (record : Says client.cwd uri versionAfter history told)
      (agrees : Agrees (documents.get? p) told) : Standing client p uri documents history none
  | about {q : Query} {work : Work (Except ServerError Unit)} (visits : q.Visits client.cwd uri)
      (follows : Follows p uri client.cwd (Ends q) documents history work) :
      Standing client p uri documents history (some (q, work))
  | elsewhere {q : Query} {work : Work (Except ServerError Unit)} {told : Option Copy}
      (elsewhere : ¬ q.Visits client.cwd uri)
      (record : Says client.cwd uri versionAfter history told)
      (agrees : Agrees (documents.get? p) told) :
      Standing client p uri documents history (some (q, work))

theorem Standing.exists_told {documents : PathTable Document}
    {current : Option (Query × Work (Except ServerError Unit))}
    (standing : Standing client p uri documents history current) :
    ∃ told, Says client.cwd uri versionAfter history told := by
  cases standing with
  | idle record agrees => exact ⟨_, record⟩
  | about visits follows => exact follows.imp fun _ h => h.1
  | elsewhere elsewhere record agrees => exact ⟨_, record⟩

/-- When a query that was to tell the server a text has ended well, the server has this text. -/
def Delivers (client : Client) (uri : Uri) (history : List Incident) : Prop :=
  ∀ q before, .ended q (.ok ()) :: before <:+ history → q.Syncs → q.Visits client.cwd uri →
    ∃ changes text, textAt before = some text ∧
      Says client.cwd uri versionAfter before (some ⟨changes, text⟩)

/-- Every query about the document names it by this path. -/
def Alike (client : Client) (p : Path) (uri : Uri) (history : List Incident) : Prop :=
  ∀ q path, .begun q ∈ history → q.path? = some path → path.uri client.cwd = .ok uri →
    path.same p = true

theorem Delivers.cons {incident : Incident} (delivers : Delivers client uri history)
    (other : ∀ q, incident ≠ .ended q (.ok ())) : Delivers client uri (incident :: history) := by
  intro q before suffix
  rcases List.suffix_cons_iff.mp suffix with eq | old
  · exact absurd (List.cons.inj eq).1.symm (other q)
  · exact delivers q before old

theorem Delivers.ended {result : Except ServerError Unit} (delivers : Delivers client uri history)
    (ends : result = .ok () → q.Syncs → q.Visits client.cwd uri → ∃ changes text,
      textAt history = some text ∧
        Says client.cwd uri versionAfter history (some ⟨changes, text⟩)) :
    Delivers client uri (.ended q result :: history) := by
  intro q' before suffix syncs visits
  rcases List.suffix_cons_iff.mp suffix with eq | old
  · cases eq
    exact ends rfl syncs visits
  · exact delivers q' before old syncs visits

theorem Delivers.append {happens : Option Incident} (delivers : Delivers client uri history)
    (other : ∀ incident ∈ happens, ∀ q, incident ≠ .ended q (.ok ())) :
    Delivers client uri (happens.toList ++ history) := by
  cases happens with
  | none => exact delivers
  | some incident => exact delivers.cons (other incident rfl)

/-- The documents that are kept are what the server was told. -/
structure Sound (client : Client) (p : Path) (uri : Uri) (d : Dialogue) : Prop where
  standing : Standing client p uri d.link.documents d.history d.current
  delivers : Delivers client uri d.history

theorem standing_begin {documents : PathTable Document}
    (alike : Alike client p uri (.begun q :: history))
    (record : Says client.cwd uri versionAfter history told)
    (agrees : Agrees (documents.get? p) told) :
    Standing client p uri documents (.begun q :: history) (some (q, work client q)) := by
  have record' : Says client.cwd uri versionAfter (.begun q :: history) told :=
    .silent trivial record
  by_cases visits : q.Visits client.cwd uri
  · have ⟨path, about, named⟩ := visits
    have same := alike q path List.mem_cons_self about named
    refine .about visits ⟨told, record', meets_work about same named agrees ?_⟩
    rintro path text rfl
    rfl
  · exact .elsewhere visits record' agrees

theorem sound_finish {result : Except ServerError Unit} (sound : Sound client p uri d)
    (under : d.current = some (q, .done result)) :
    Sound client p uri
      { d with current := none, history := .ended q result :: d.history } := by
  have standing := sound.standing
  rw [under] at standing
  cases standing with
  | about visits follows =>
    obtain ⟨told, record, agrees, text⟩ := follows
    refine ⟨.idle (.silent trivial record) agrees, sound.delivers.ended fun ok syncs _ => ?_⟩
    obtain ⟨⟨changes, t⟩, rfl, eq⟩ := text syncs ok
    exact ⟨changes, t, eq, record⟩
  | elsewhere elsewhere record agrees =>
    refine ⟨.idle (.silent trivial record) agrees, sound.delivers.ended fun _ _ visits => ?_⟩
    exact absurd visits elsewhere

theorem Sound.step (sound : Sound client p uri d) (kept : d.Kept client)
    (named : p.uri client.cwd = .ok uri) (alike : Alike client p uri d'.history)
    (step : Step client self d d') : Sound client p uri d' := by
  have standing := sound.standing
  cases step with
  | begin idle q =>
    rw [idle] at standing
    cases standing with
    | idle record agrees =>
      exact ⟨standing_begin alike record agrees, sound.delivers.cons nofun⟩
  | @advance q work under m =>
    have delivers : Delivers client uri ((incident? d.link m q work).toList ++ d.history) :=
      sound.delivers.append fun incident happens q' => ne_ended_of_incident? happens q' (.ok ())
    rw [under] at standing
    refine ⟨?_, delivers⟩
    cases standing with
    | about visits follows => exact .about visits (follows_advance visits follows)
    | elsewhere elsewhere record agrees =>
      refine .elsewhere elsewhere (record_apart elsewhere record) ?_
      have same : (d.link.advance m self work).1.documents.get? p = d.link.documents.get? p :=
        get?_advance_apart named elsewhere (kept.keeps q work under)
      exact same.symm ▸ agrees
  | finish under => exact sound_finish sound under
  | @other link same =>
    refine ⟨?_, sound.delivers⟩
    rw [same]
    exact standing

theorem Step.history_suffix (step : Step client self d d') : d.history <:+ d'.history := by
  cases step with
  | begin | finish => exact List.suffix_cons _ _
  | advance => exact List.suffix_append _ _
  | other => exact List.suffix_rfl

theorem sound_of_run {room : Nat} (run : d.Run client self room)
    (named : p.uri client.cwd = .ok uri) (alike : Alike client p uri d.history) :
    Sound client p uri d := by
  induction run with
  | refl =>
    have delivers : Delivers client uri [] := fun q before suffix =>
      (List.cons_ne_nil _ _ (List.suffix_nil.mp suffix)).elim
    exact ⟨.idle .nothing .unopened, delivers⟩
  | tail run step ih =>
    have earlier : Alike client p uri _ := fun q path mem =>
      alike q path (step.history_suffix.subset mem)
    exact (ih earlier).step (kept_of_run run) named alike step

end Dialogue

end CodeIntel
