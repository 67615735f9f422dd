import CodeIntel.Link.Step
import CodeIntel.Proofs.Documents.Dialogue
import CodeIntel.Proofs.Sync.Queries
import Mathlib.Data.List.Induction
import Mathlib.Logic.Function.Basic

namespace CodeIntel

/-- Diagnostics that a server published for a file of this machine. -/
structure Publication where
  path : Path
  diagnostics : List Diagnostic

/-- What a notification publishes, if anything. -/
def Publication.ofNotice? (notice : String × Json) : Option Publication :=
  if notice.1 = "textDocument/publishDiagnostics" then
    match PublishedDiagnostics.decode notice.2 with
    | .error _ => none
    | .ok published =>
      match published.uri.filePath with
      | .error _ => none
      | .ok path => some ⟨path, published.diagnostics⟩
  else none

/-- Of all publications, the last one for a path, with its number in the order of arrival. -/
inductive Newest (path : Path) : List Publication → Option (Nat × List Diagnostic) → Prop
  | none {arrived : List Publication} (others : ∀ x ∈ arrived, x.path.same path = false) :
      Newest path arrived none
  | some {before after : List Publication} {x : Publication} (here : x.path.same path = true)
      (others : ∀ y ∈ after, y.path.same path = false) :
      Newest path (before ++ x :: after) (some (before.length + 1, x.diagnostics))

namespace Newest

variable {path : Path} {arrived : List Publication} {x : Publication}
  {newest newest' : Option (Nat × List Diagnostic)}

theorem snoc_of_same (here : x.path.same path = true) :
    Newest path (arrived ++ [x]) (Option.some (arrived.length + 1, x.diagnostics)) :=
  Newest.some here nofun

theorem snoc_of_not_same (newest : Newest path arrived newest') (other : x.path.same path = false) :
    Newest path (arrived ++ [x]) newest' := by
  cases newest with
  | none others =>
    refine .none fun y mem => ?_
    rcases List.mem_append.mp mem with mem | mem
    · exact others y mem
    · exact List.mem_singleton.mp mem ▸ other
  | @some before after y here others =>
    rw [List.append_assoc, List.cons_append]
    refine .some here fun z mem => ?_
    rcases List.mem_append.mp mem with mem | mem
    · exact others z mem
    · exact List.mem_singleton.mp mem ▸ other

/-- Any publication for the path has at most the number of the last one. -/
theorem exists_of_mem {before after : List Publication}
    (newest : Newest path (before ++ x :: after) newest') (here : x.path.same path = true) :
    ∃ n diagnostics, newest' = Option.some (n, diagnostics) ∧ before.length < n := by
  generalize eq : before ++ x :: after = arrived at newest
  cases newest with
  | none others =>
    have other := others x (by simp [← eq])
    cases here.symm.trans other
  | @some before' after' y _ others =>
    refine ⟨_, _, rfl, Nat.lt_succ_of_le (Nat.le_of_not_lt fun shorter => ?_)⟩
    rcases List.append_eq_append_iff.mp eq with ⟨between, rfl, _⟩ | ⟨between, rfl, rest⟩
    · rw [List.length_append] at shorter
      omega
    · cases between with
      | nil => simp at shorter
      | cons z between =>
        have other := others x (by simp [(List.cons.inj rest).2])
        cases here.symm.trans other

theorem eq_none_iff (newest : Newest path arrived newest') :
    newest' = Option.none ↔ ∀ x ∈ arrived, x.path.same path = false := by
  cases newest with
  | none others => exact ⟨fun _ => others, fun _ => rfl⟩
  | @some before after x here others =>
    refine ⟨nofun, fun others => ?_⟩
    have other := others x (by simp)
    cases here.symm.trans other

end Newest

namespace Publications

/-- What is kept of the publications that arrived. -/
def record (arrived : List Publication) : Publications :=
  arrived.foldl (fun p x => p.publish x.path x.diagnostics) none

@[simp] theorem record_snoc (arrived : List Publication) (x : Publication) :
    record (arrived ++ [x]) = (record arrived).publish x.path x.diagnostics := by
  simp [record]

@[simp] theorem count_record (arrived : List Publication) :
    (record arrived).count = arrived.length := by
  induction arrived using List.reverseRecOn with
  | nil => rfl
  | append_singleton before x ih => simp [publish, ih]

theorem newest_record (path : Path) (arrived : List Publication) :
    Newest path arrived ((record arrived).latest.get? path) := by
  induction arrived using List.reverseRecOn with
  | nil => exact .none nofun
  | append_singleton before x ih =>
    rw [record_snoc]
    unfold publish
    cases same : x.path.same path with
    | true =>
      rw [PathTable.get?_set_of_same _ same, count_record]
      exact .snoc_of_same same
    | false =>
      rw [PathTable.get?_set_of_not_same _ same]
      exact ih.snoc_of_not_same same

theorem receive_record (arrived : List Publication) (notice : String × Json) :
    (record arrived).receive notice.1 notice.2 =
      record (arrived ++ (Publication.ofNotice? notice).toList) := by
  unfold receive Publication.ofNotice?
  by_cases named : notice.1 = "textDocument/publishDiagnostics"
  · simp only [named, if_true]
    cases PublishedDiagnostics.decode notice.2 with
    | error e => simp
    | ok published =>
      dsimp only
      cases published.uri.filePath with
      | error e => simp
      | ok path => simp
  · simp [named]

end Publications

/-- Whether whoever is at this deed may have to wait, and can be dropped there. -/
def Deed.Suspends : Deed → Prop
  | readText _ | enterDocuments | await .. | enterWriter | write _ | update .. => True
  | _ => False

/-- How much of what a server sends had been looked at by some moment. -/
structure Mark where
  /-- How many publications had arrived. -/
  since : Nat
  /-- How far the notifications that had been looked at reach among the bytes of the server. -/
  heard : Nat
deriving DecidableEq

/-- A text of a document that was sent to the server. -/
structure Sending where
  /-- What had been looked at when the text was about to be sent. -/
  mark : Mark
  /-- Where it ends among the bytes that were sent. -/
  ends : Nat
deriving DecidableEq

/-- A publication that has arrived. -/
structure Arrival where
  publication : Publication
  /-- Where it begins among the bytes of the server. -/
  place : Nat

/-- What is on record of the work on a query. -/
structure Notes where
  /-- What had been looked at when it counted the publications last. -/
  counted : Mark
  /-- The latest text that had been sent when it looked a document up last. -/
  looked : Option Sending
  /-- When it asked for the time last. -/
  start : Nat
  /-- When it took its last step. -/
  now : Nat

/-- A query under way. -/
structure Job where
  query : Query
  work : Work (Except ServerError query.Reply)
  notes : Notes

/-- A connection with the queries that are answered over it at once, and all that the server says
and is told meanwhile of one document. -/
structure Press where
  link : Link
  now : Nat
  jobs : Holder → Option Job
  begun : List Query
  /-- The latest text of the document that was sent. -/
  told : Option Sending
  /-- How many bytes the server has taken. -/
  taken : Nat
  /-- For each byte of the server, how many bytes it had taken when it sent it. -/
  pace : List Nat
  /-- How far the notifications that were looked at reach among the bytes of the server. -/
  heard : Nat
  /-- Where the notifications that were not looked at yet begin there. -/
  places : List Nat
  arrived : List Arrival

namespace Press

def fresh (room now : Nat) : Press :=
  ⟨.fresh room, now, fun _ => none, [], none, 0, [], 0, [], []⟩

def put (s : Press) (h : Holder) (job? : Option Job) : Press :=
  { s with jobs := Function.update s.jobs h job? }

/-- How many bytes of the server were read. -/
def read (s : Press) : Nat := s.pace.length - s.link.incoming.length

def mark (s : Press) : Mark := ⟨s.link.publications.count, s.heard⟩

def job (client : Client) (q : Query) (now : Nat) : Job :=
  ⟨q, (client.answer q).run, ⟨0, 0⟩, none, 0, now⟩

/-- What is on record with the next step of a job. -/
def notesNext (s : Press) (job : Job) : Notes :=
  match job.work with
  | .ask .arrivals _ => { job.notes with counted := s.mark, now := s.now }
  | .ask (.document _) _ => { job.notes with looked := s.told, now := s.now }
  | .ask .now _ => { job.notes with start := s.now, now := s.now }
  | _ => { job.notes with now := s.now }

def jobNext (s : Press) (m : Moment) (h : Holder) (job : Job) : Job :=
  ⟨job.query, (s.link.advance m h job.work).2.1, s.notesNext job⟩

def advance (s : Press) (m : Moment) (h : Holder) (job : Job) (told : Option Sending) : Press :=
  { s.put h (some (s.jobNext m h job)) with
    link := (s.link.advance m h job.work).1
    told := told }

/-- What the server was told of the document at `p` after the next step of a job. -/
inductive Informs (p cwd : Path) (s : Press) (job : Job) : Option Sending → Prop
  | text {text : String} {bytes : List UInt8} {next}
      (writes : job.work = .ask (.write bytes) next)
      (whole : (s.link.write bytes).2 = some (.ok ())) (tells : Tells p cwd text bytes) :
      Informs p cwd s job
        (some ⟨job.notes.counted, s.taken + (s.link.write bytes).1.outgoing.length⟩)
  | nothing (silent : ∀ bytes next, job.work = .ask (.write bytes) next →
      (s.link.write bytes).2 = some (.ok ()) → ∀ text, ¬ Tells p cwd text bytes) :
      Informs p cwd s job s.told

/-- The reader takes a step; a notification that it reads begins where it stands. -/
def readerStep (s : Press) (m : Moment) : Press :=
  let link := (s.link.readerStep m).1
  { s with
    link := link
    places := s.places ++ List.replicate (link.notices.length - s.link.notices.length) s.read }

/-- The notification that has waited longest is looked at. -/
def notice (s : Press) (first : String × Json) : Press :=
  let place := s.places.headD s.heard
  { s with
    link := s.link.noticeStep.1
    heard := place + 1
    places := s.places.tail
    arrived := s.arrived ++ ((Publication.ofNotice? first).map fun x => ⟨x, place⟩).toList }

/-- The server sends bytes. -/
def say (s : Press) (bytes : List UInt8) : Press :=
  { s with
    link := { s.link with incoming := s.link.incoming ++ bytes }
    pace := s.pace ++ List.replicate bytes.length s.taken }

/-- The server takes so many of the bytes that are on their way. -/
def take (s : Press) (n : Nat) : Press :=
  { s with
    link := { s.link with outgoing := s.link.outgoing.drop n }
    taken := s.taken + n }

end Press

/-- What else may be done with a connection: neither the documents nor what the server says is
touched. -/
structure Link.Beside (link link' : Link) : Prop where
  documents : link'.documents = link.documents
  documentsLock : link'.documentsLock = link.documentsLock
  publications : link'.publications = link.publications
  notices : link'.notices = link.notices
  incoming : link'.incoming = link.incoming

namespace Press

/-- What may happen next. -/
inductive Step (client : Client) (p : Path) : Press → Press → Prop
  | begin {s : Press} {h : Holder} (other : h ≠ Link.readerHolder) (idle : s.jobs h = none)
      (q : Query) :
      Step client p s { s.put h (some (job client q s.now)) with begun := q :: s.begun }
  | advance {s : Press} {h : Holder} {job : Job} (under : s.jobs h = some job) (m : Moment)
      (now : m.now = s.now) {told : Option Sending} (informs : Informs p client.cwd s job told) :
      Step client p s (s.advance m h job told)
  | finish {s : Press} {h : Holder} {q : Query} {result : Except ServerError q.Reply}
      {notes : Notes} (under : s.jobs h = some ⟨q, .done result, notes⟩) :
      Step client p s (s.put h none)
  | drop {s : Press} {h : Holder} {q : Query} {d : Deed} {next} {notes : Notes}
      (under : s.jobs h = some ⟨q, .ask d next, notes⟩) (suspends : d.Suspends) :
      Step client p s { s.put h none with link := s.link.abandon h }
  | read {s : Press} (m : Moment) : Step client p s (s.readerStep m)
  | notice {s : Press} {first : String × Json} {rest} (waits : s.link.notices = first :: rest) :
      Step client p s (s.notice first)
  | say {s : Press} (isOpen : s.link.finished = false) (bytes : List UInt8) :
      Step client p s (s.say bytes)
  | take {s : Press} {n : Nat} (under : n ≤ s.link.outgoing.length) : Step client p s (s.take n)
  | pass {s : Press} {now : Nat} (later : s.now ≤ now) : Step client p s { s with now := now }
  /-- Something else is done with the connection, and perhaps more is sent. -/
  | other {s : Press} {link : Link} (beside : s.link.Beside link)
      (reader : link.reader = s.link.reader) (outgoing : s.link.outgoing <+: link.outgoing) :
      Step client p s { s with link := link }

/-- What may come of a new connection that has room for so many bytes under way. -/
def Run (s : Press) (client : Client) (p : Path) (room now : Nat) : Prop :=
  Relation.ReflTransGen (Step client p) (fresh room now) s

/-- Every query about a document that has the same URI names it by this path. -/
def Alike (client : Client) (p : Path) (s : Press) : Prop :=
  ∀ q path uri uri', q ∈ s.begun → q.path? = some path → path.uri client.cwd = .ok uri →
    p.uri client.cwd = .ok uri' → uri.text = uri'.text → path.same p = true

/-- The server said this only after it had taken a text to its end. -/
def SaidAfter (s : Press) (a : Arrival) (sent : Sending) : Prop :=
  ∃ taken, s.pace[a.place]? = some taken ∧ sent.ends ≤ taken

end Press

end CodeIntel
