import CodeIntel.Proofs.Documents.Sound
import CodeIntel.Proofs.Frame.Decoding
import CodeIntel.Proofs.Publications.Stance
import CodeIntel.Proofs.Wire.Keeping

namespace CodeIntel

/-- Whether a deed neither enters or leaves the documents nor changes one. -/
def Deed.LeavesDocuments : Deed → Prop
  | enterDocuments | leaveDocuments | setDocument .. => False
  | _ => True

/-- Whether the reader does nothing to the documents while it answers. -/
def Reader.Mute : Reader → Prop
  | replying work => work.Asks Deed.LeavesDocuments
  | reading | ended => True

namespace Link

variable {link link' : Link} {m : Moment} {self : Holder}

theorem Beside.refl (link : Link) : link.Beside link := ⟨rfl, rfl, rfl, rfl, rfl⟩

theorem beside_perform (link : Link) (m : Moment) (self : Holder) {d : Deed}
    (leaves : d.LeavesDocuments) : link.Beside (link.perform m self d).1 := by
  cases d with
  | enterDocuments | leaveDocuments | setDocument => exact leaves.elim
  | write bytes =>
    change link.Beside (link.write bytes).1
    unfold write
    split <;> exact ⟨rfl, rfl, rfl, rfl, rfl⟩
  | await n deadline =>
    rw [perform_await]
    split
    · exact .refl link
    · split <;> exact .refl link
  | update seen deadline =>
    rw [perform_update]
    split <;> exact .refl link
  | _ => exact ⟨rfl, rfl, rfl, rfl, rfl⟩

theorem reader_perform (link : Link) (m : Moment) (self : Holder) (d : Deed) :
    (link.perform m self d).1.reader = link.reader := by
  cases d with
  | register | forget => rfl
  | _ => exact (sameTable_perform link m self (by trivial)).2

/-- What the reader may do: it leaves the documents alone, and takes the bytes of a notification
that it puts behind those that wait. -/
structure Hears (link link' : Link) : Prop where
  documents : link'.documents = link.documents
  documentsLock : link'.documentsLock = link.documentsLock
  publications : link'.publications = link.publications
  mute : link'.reader.Mute
  incoming : link'.incoming.length ≤ link.incoming.length
  notices : link'.notices = link.notices ∨
    ∃ notice, link'.notices = link.notices ++ [notice] ∧
      link'.incoming.length < link.incoming.length

theorem hears_receive {reader : Reader} {rest : List UInt8} (mute : reader.Mute)
    (less : rest.length < link.incoming.length) (message : Incoming) :
    link.Hears (({ link with incoming := rest, reader := reader } : Link).receive message) := by
  have le := Nat.le_of_lt less
  cases message with
  | answer id answer =>
    by_cases isNumber : ∃ n : Nat, id = .nat n
    · obtain ⟨n, rfl⟩ := isNumber
      rw [receive_answer_nat, deliver]
      split <;> exact ⟨rfl, rfl, rfl, mute, le, .inl rfl⟩
    · rw [receive_answer_other _ answer fun n same => isNumber ⟨n, same⟩]
      exact ⟨rfl, rfl, rfl, mute, le, .inl rfl⟩
  | request id method params =>
    have answers (reply : Outgoing) : (Reader.replying (Attempt.send reply).run).Mute :=
      Attempt.asks_send trivial trivial trivial trivial
    exact ⟨rfl, rfl, rfl, answers _, le, .inl rfl⟩
  | notification method params => exact ⟨rfl, rfl, rfl, mute, le, .inr ⟨_, rfl, less⟩⟩

theorem hears_readerStep (mute : link.reader.Mute) (m : Moment) :
    link.Hears (link.readerStep m).1 := by
  have still : link.Hears link := ⟨rfl, rfl, rfl, mute, Nat.le_refl _, .inl rfl⟩
  unfold readerStep
  cases reader : link.reader with
  | ended => exact still
  | replying work =>
    rw [reader] at mute
    cases work with
    | done result => exact ⟨rfl, rfl, rfl, trivial, Nat.le_refl _, .inl rfl⟩
    | ask d next =>
      have after := (link.advance_ask m readerHolder d next).1
      obtain ⟨documents, lock, publications, notices, incoming⟩ :=
        link.beside_perform m readerHolder mute.1
      have asks := link.asks_advance m readerHolder mute
      refine ⟨?_, ?_, ?_, asks, ?_, .inl ?_⟩
      · exact (congrArg Link.documents after).trans documents
      · exact (congrArg Link.documentsLock after).trans lock
      · exact (congrArg Link.publications after).trans publications
      · exact Nat.le_of_eq (congrArg List.length ((congrArg Link.incoming after).trans incoming))
      · exact (congrArg Link.notices after).trans notices
  | reading =>
    simp only
    split
    · exact still
    · exact ⟨rfl, rfl, rfl, trivial, Nat.le_refl _, .inl rfl⟩
    · exact ⟨rfl, rfl, rfl, trivial, Nat.le_refl _, .inl rfl⟩
    next value rest taken =>
      have less := Frame.length_lt_of_read taken
      have reading : Reader.reading.Mute := trivial
      split
      next message _ => exact hears_receive reading less message
      next => exact ⟨rfl, rfl, rfl, trivial, Nat.le_of_lt less, .inl rfl⟩

end Link

namespace Press

open Stance

/-- How many publications were counted before the text that is kept of a document. -/
def kept (s : Press) (p : Path) : Option Nat := (s.link.documents.get? p).map Document.arrivals

/-- How many publications were counted before the text that the server was told last. -/
def since? (s : Press) : Option Nat := s.told.map fun sent => sent.mark.since

/-- The n-th publication that arrived is one for the document. -/
def Published (s : Press) (p : Path) (n : Nat) (diagnostics : List Diagnostic) : Prop :=
  ∃ i a, n = i + 1 ∧ s.arrived[i]? = some a ∧ a.publication.path.same p = true ∧
    a.publication.diagnostics = diagnostics

/-- A query stands to a document as it is on record. -/
structure Recorded (p : Path) (s : Press) (notes : Notes) (x : Stance) : Prop where
  counted : notes.counted.since = x.counted
  looked : (notes.looked.map fun sent => sent.mark.since) = x.looked
  seen : ∀ n diagnostics, x.seen = some (n, diagnostics) → s.Published p n diagnostics
  start : notes.start = x.start
  late : ∀ deadline, x.late = some deadline → deadline ≤ notes.now
  now : notes.now ≤ s.now

/-- A query stands to a document as things are. Who has the documents for itself holds their
lock. -/
structure Fits (p : Path) (s : Press) (h : Holder) (notes : Notes) (x : Stance) : Prop where
  inside : ∀ i, x.inside = some i →
    s.link.documentsLock.holder = some h ∧ i.kept = s.kept p ∧ i.told = s.since?
  isOpen : x.isOpen = true → s.told.isSome
  recorded : Recorded p s notes x

/-- What comes of some step leaves it to a query how it stands to a document. -/
structure Allows (p : Path) (h : Holder) (s s' : Press) : Prop where
  inside : s.link.documentsLock.holder = some h →
    s'.link.documentsLock.holder = some h ∧ s'.kept p = s.kept p ∧ s'.since? = s.since?
  told : s.told.isSome → s'.told.isSome
  arrived : s.arrived <+: s'.arrived
  now : s.now ≤ s'.now

/-- A query under way is about the document and does what it may, or it is about others. -/
inductive Stands (client : Client) (p : Path) (s : Press) (h : Holder) (job : Job) (x : Stance) :
    Prop
  | about (concerns : job.query.Concerns p)
      (meets : job.work.Meets (rule p client.cwd) (Ends client job.query) x)
      (fits : Fits p s h job.notes x) : Stands client p s h job x
  | elsewhere (others : ¬ job.query.Concerns p)
      (keeps : job.work.Asks (Deed.KeepsTo job.query client.cwd)) (outside : x.inside = none) :
      Stands client p s h job x

/-- The documents that are kept agree with what the server was told, but for the one that somebody
has for itself. -/
structure Sound (client : Client) (p : Path) (s : Press) (stances : Holder → Stance) : Prop where
  recorded : s.link.publications = .record (s.arrived.map Arrival.publication)
  mute : s.link.reader.Mute
  begun : ∀ h job, s.jobs h = some job → job.query ∈ s.begun
  stands : ∀ h job, s.jobs h = some job → Stands client p s h job (stances h)
  idle : ∀ h, s.jobs h = none → (stances h).inside = none
  agrees : (∀ h, (stances h).inside = none) → s.kept p = s.since?

variable {client : Client} {p : Path} {s s' : Press} {h : Holder} {notes : Notes} {x x' : Stance}
  {m : Moment} {stances : Holder → Stance} {told : Option Sending}

theorem Published.mono {n : Nat} {diagnostics : List Diagnostic}
    (published : s.Published p n diagnostics) (arrived : s.arrived <+: s'.arrived) :
    s'.Published p n diagnostics := by
  obtain ⟨i, a, eq, found, rest⟩ := published
  obtain ⟨later, eq'⟩ := arrived
  have short := (List.getElem?_eq_some_iff.mp found).1
  refine ⟨i, a, eq, ?_, rest⟩
  rw [← eq', List.getElem?_append_left short, found]

theorem Recorded.mono (recorded : Recorded p s notes x) (arrived : s.arrived <+: s'.arrived)
    (now : s.now ≤ s'.now) : Recorded p s' notes x :=
  ⟨recorded.counted, recorded.looked, fun n ds seen => (recorded.seen n ds seen).mono arrived,
    recorded.start, recorded.late, Nat.le_trans recorded.now now⟩

theorem Fits.allow (fits : Fits p s h notes x) (allows : Allows p h s s') :
    Fits p s' h notes x := by
  refine ⟨fun i inside => ?_, fun isOpen => allows.told (fits.isOpen isOpen),
    fits.recorded.mono allows.arrived allows.now⟩
  obtain ⟨held, kept, told⟩ := fits.inside i inside
  obtain ⟨held', kept', told'⟩ := allows.inside held
  exact ⟨held', kept.trans kept'.symm, told.trans told'.symm⟩

theorem Stands.allow {job : Job} (stands : Stands client p s h job x) (allows : Allows p h s s') :
    Stands client p s' h job x := by
  cases stands with
  | about concerns meets fits => exact .about concerns meets (fits.allow allows)
  | elsewhere others keeps outside => exact .elsewhere others keeps outside

theorem Stands.held {job : Job} {i : Inside} (stands : Stands client p s h job x)
    (inside : x.inside = some i) : s.link.documentsLock.holder = some h := by
  cases stands with
  | about concerns meets fits => exact (fits.inside i inside).1
  | elsewhere others keeps outside => cases inside.symm.trans outside

/-- Nobody has the documents but who holds their lock. -/
theorem Sound.outside (sound : Sound client p s stances)
    (mine : ∀ h', s.link.documentsLock.holder = some h' → h' = h) :
    ∀ h', h' ≠ h → (stances h').inside = none := by
  intro h' ne
  cases inside : (stances h').inside with
  | none => rfl
  | some i =>
    cases under : s.jobs h' with
    | none => cases inside.symm.trans (sound.idle h' under)
    | some job => exact absurd (mine h' ((sound.stands h' job under).held inside)) ne

/-- What happens to the connection leaves it to all queries how they stand to the document. -/
theorem Sound.aside (sound : Sound client p s stances) (allows : ∀ h, Allows p h s s')
    (jobs : s'.jobs = s.jobs) (begun : s'.begun = s.begun) (kept : s'.kept p = s.kept p)
    (since : s'.since? = s.since?) (mute : s'.link.reader.Mute)
    (recorded : s'.link.publications = .record (s'.arrived.map Arrival.publication)) :
    Sound client p s' stances where
  recorded := recorded
  mute := mute
  begun := fun h job under => begun ▸ sound.begun h job (jobs ▸ under)
  stands := fun h job under => (sound.stands h job (jobs ▸ under)).allow (allows h)
  idle := fun h under => sound.idle h (jobs ▸ under)
  agrees := fun outside => kept.trans ((sound.agrees outside).trans since.symm)

/-- One query begins, goes on or ends. -/
theorem Sound.put {job? : Option Job} (sound : Sound client p s stances)
    (jobs : s'.jobs = Function.update s.jobs h job?) (more : s.begun ⊆ s'.begun)
    (allows : ∀ h', h' ≠ h → Allows p h' s s')
    (begun : ∀ job, job? = some job → job.query ∈ s'.begun)
    (stands : ∀ job, job? = some job → Stands client p s' h job x)
    (idle : job? = none → x.inside = none)
    (agrees : (∀ h', h' ≠ h → (stances h').inside = none) → x.inside = none →
      s'.kept p = s'.since?)
    (mute : s'.link.reader.Mute) (publications : s'.link.publications = s.link.publications)
    (arrived : s'.arrived = s.arrived) :
    Sound client p s' (Function.update stances h x) := by
  refine ⟨?_, mute, fun h' job under => ?_, fun h' job under => ?_, fun h' under => ?_,
    fun outside => ?_⟩
  · rw [publications, arrived, sound.recorded]
  · rw [jobs] at under
    by_cases same : h' = h
    · subst same
      rw [Function.update_self] at under
      exact begun job under
    · rw [Function.update_of_ne same] at under
      exact more (sound.begun h' job under)
  · rw [jobs] at under
    by_cases same : h' = h
    · subst same
      rw [Function.update_self] at under ⊢
      exact stands job under
    · rw [Function.update_of_ne same] at under ⊢
      exact (sound.stands h' job under).allow (allows h' same)
  · rw [jobs] at under
    by_cases same : h' = h
    · subst same
      rw [Function.update_self] at under ⊢
      exact idle under
    · rw [Function.update_of_ne same] at under ⊢
      exact sound.idle h' under
  · refine agrees (fun h' ne => ?_) ?_
    · have here := outside h'
      rwa [Function.update_of_ne ne] at here
    · have here := outside h
      rwa [Function.update_self] at here

end Press

end CodeIntel
