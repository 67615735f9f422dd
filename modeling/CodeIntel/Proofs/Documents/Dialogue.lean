import CodeIntel.Link.Step
import CodeIntel.Proofs.Client.Telling
import Mathlib.Logic.Relation

namespace CodeIntel

section Dialogue

namespace Query

/-- The file that a query is about. -/
def path? : Query → Option Path
  | .definition path _ | .references path .. | .documentSymbols path => some path
  | .sync path | .changed path _ | .diagnostics path | .codeLenses path => some path
  | .workspaceSymbols _ | .execute _ => none

def Visits (q : Query) (cwd : Path) (uri : Uri) : Prop :=
  ∃ path, q.path? = some path ∧ path.uri cwd = .ok uri

/-- Whether a query is there to tell the server a text. -/
def Syncs : Query → Prop
  | .sync _ | .changed .. => True
  | _ => False

end Query

/-- What happens while queries are answered one after the other. -/
inductive Incident
  | begun (q : Query)
  /-- The text of a file is read. -/
  | read (q : Query) (text : String)
  /-- A message is written to its end. -/
  | wrote (q : Query) (message : List UInt8)
  /-- A message cannot be written. -/
  | failed (q : Query)
  | ended (q : Query) (result : Except ServerError Unit)

namespace Incident

def query : Incident → Query
  | begun q | read q _ | wrote q _ | failed q | ended q _ => q

def IsSilent : Incident → Prop
  | begun _ | read .. | ended .. => True
  | wrote .. | failed _ => False

def message? : Incident → Option (List UInt8)
  | wrote _ message => some message
  | _ => none

/-- The text that the latest query was given or has read. The latest incident is the first. -/
def textAt : List Incident → Option String
  | begun (.changed _ text) :: _ => some text
  | begun _ :: _ => none
  | read _ text :: _ => some text
  | _ :: before => textAt before
  | [] => none

end Incident

/-- A connection over which one query is answered after the other. -/
structure Dialogue where
  link : Link
  /-- The query under way, and what is left to be done for it. -/
  current : Option (Query × Work (Except ServerError Unit))
  /-- What has happened, the latest first. -/
  history : List Incident

namespace Dialogue

def fresh (room : Nat) : Dialogue := ⟨.fresh room, none, []⟩

def work (client : Client) (q : Query) : Work (Except ServerError Unit) :=
  (do let _ ← client.answer q : Attempt Unit).run

/-- What becomes known of the next step of some work. -/
def incident? (link : Link) (m : Moment) (q : Query) :
    Work (Except ServerError Unit) → Option Incident
  | .ask (.readText path) _ =>
    (m.files.readText (m.cwd.join path)).toOption.map (Incident.read q)
  | .ask .writerOpen _ => if link.writable then none else some (.failed q)
  | .ask (.write message) _ =>
    match (link.write message).2 with
    | some (.ok _) => some (.wrote q message)
    | some (.error _) => some (.failed q)
    | none => none
  | _ => none

def advance (d : Dialogue) (m : Moment) (self : Holder) (q : Query)
    (work : Work (Except ServerError Unit)) : Dialogue where
  link := (d.link.advance m self work).1
  current := some (q, (d.link.advance m self work).2.1)
  history := (incident? d.link m q work).toList ++ d.history

/-- What may happen next: a query begins if none is under way, takes a step or comes to its end, or
something else happens to the connection, which leaves the documents alone. -/
inductive Step (client : Client) (self : Holder) : Dialogue → Dialogue → Prop
  | begin {d : Dialogue} (idle : d.current = none) (q : Query) :
      Step client self d
        { d with current := some (q, work client q), history := .begun q :: d.history }
  | advance {d : Dialogue} {q : Query} {work : Work (Except ServerError Unit)}
      (under : d.current = some (q, work)) (m : Moment) :
      Step client self d (d.advance m self q work)
  | finish {d : Dialogue} {q : Query} {result : Except ServerError Unit}
      (under : d.current = some (q, .done result)) :
      Step client self d { d with current := none, history := .ended q result :: d.history }
  | other {d : Dialogue} {link : Link} (same : link.documents = d.link.documents) :
      Step client self d { d with link := link }

/-- What may come of a new connection that has room for so many bytes under way. -/
def Run (d : Dialogue) (client : Client) (self : Holder) (room : Nat) : Prop :=
  Relation.ReflTransGen (Step client self) (fresh room) d

end Dialogue

def openMessage (uri : Uri) (language text : String) : List UInt8 :=
  (Outgoing.notification "textDocument/didOpen" (some (Client.openParams uri language text))).bytes

def changeMessage (uri : Uri) (version : Int) (text : String) : List UInt8 :=
  (Outgoing.notification "textDocument/didChange"
    (some (Client.changeParams uri version text))).bytes

/-- What may be written for a query: its own document is opened and changed, and no other one is
named in a request. -/
inductive Query.Writes (q : Query) (cwd : Path) : List UInt8 → Prop
  | opened {uri : Uri} (visits : q.Visits cwd uri) (language text : String) :
      Writes q cwd (openMessage uri language text)
  | changed {uri : Uri} (visits : q.Visits cwd uri) (version : Int) (text : String) :
      Writes q cwd (changeMessage uri version text)
  | asked (id : Nat) {method : String} {params : Json}
      (regards : Regards (q.Visits cwd) method params) :
      Writes q cwd (Outgoing.request id method (some params)).bytes

/-- What a server was told of a document: how often a change was tried, and the text that it has. -/
structure Copy where
  changes : Nat
  text : String

/-- A message that a server may take: a document is opened once, in its first version, changed to
another text than it has, and asked about while it is open. The n-th change makes the version
`number n`. -/
inductive Takes (uri : Uri) (number : Nat → Int) : Option Copy → List UInt8 → Option Copy → Prop
  | opened (language text : String) :
      Takes uri number none (openMessage uri language text) (some ⟨0, text⟩)
  | changed {told : Copy} {text : String} (new : text ≠ told.text) :
      Takes uri number (some told) (changeMessage uri (number (told.changes + 1)) text)
        (some ⟨told.changes + 1, text⟩)
  | asked (told : Copy) (id : Nat) (method : String) (params : Option Json) :
      Takes uri number (some told) (Outgoing.request id method params).bytes (some told)

/-- A message that is not sent may have been a change, and then its version is not used again. -/
inductive Misses : Option Copy → Option Copy → Prop
  | still (told : Option Copy) : Misses told told
  | change (told : Copy) : Misses (some told) (some { told with changes := told.changes + 1 })

/-- What a server was told of a document, from the first incident to the latest. -/
inductive Says (cwd : Path) (uri : Uri) (number : Nat → Int) :
    List Incident → Option Copy → Prop
  | nothing : Says cwd uri number [] none
  | apart {incident : Incident} {history : List Incident} {told : Option Copy}
      (elsewhere : ¬ incident.query.Visits cwd uri) (before : Says cwd uri number history told) :
      Says cwd uri number (incident :: history) told
  | silent {incident : Incident} {history : List Incident} {told : Option Copy}
      (silent : incident.IsSilent) (before : Says cwd uri number history told) :
      Says cwd uri number (incident :: history) told
  | wrote {q : Query} {message : List UInt8} {history : List Incident} {told told' : Option Copy}
      (visits : q.Visits cwd uri) (takes : Takes uri number told message told')
      (before : Says cwd uri number history told) :
      Says cwd uri number (.wrote q message :: history) told'
  | failed {q : Query} {history : List Incident} {told told' : Option Copy}
      (visits : q.Visits cwd uri) (misses : Misses told told')
      (before : Says cwd uri number history told) :
      Says cwd uri number (.failed q :: history) told'

/-- The version of a document after so many changes. -/
def versionAfter : Nat → Int
  | 0 => 1
  | n + 1 => nextVersion (versionAfter n)

theorem versionAfter_eq {n : Nat} (few : n < 0x7FFFFFFF) : versionAfter n = n + 1 := by
  induction n with
  | zero => rfl
  | succ n ih =>
    rw [versionAfter, ih (by omega), nextVersion, if_neg (by omega)]
    omega

theorem Misses.changes_le {told told' : Option Copy} (misses : Misses told told') {t : Copy}
    (some : told = some t) : ∃ t', told' = .some t' ∧ t.changes ≤ t'.changes := by
  subst some
  cases misses with
  | still => exact ⟨t, rfl, Nat.le_refl _⟩
  | change => exact ⟨_, rfl, Nat.le_succ _⟩

variable {cwd : Path} {uri : Uri} {number number' : Nat → Int} {history : List Incident}
  {told : Option Copy}

/-- Only the numbers of the changes so far matter. -/
theorem Says.renumber (record : Says cwd uri number history told)
    (same : ∀ t, told = some t → ∀ k ≤ t.changes, number k = number' k) :
    Says cwd uri number' history told := by
  induction record with
  | nothing => exact .nothing
  | apart elsewhere _ ih => exact .apart elsewhere (ih same)
  | silent silent _ ih => exact .silent silent (ih same)
  | wrote visits takes _ ih =>
    cases takes with
    | opened language text => exact .wrote visits (.opened language text) (ih nofun)
    | @changed t text new =>
      have earlier : ∀ t', some t = some t' → ∀ k ≤ t'.changes, number k = number' k := by
        rintro _ ⟨⟩ k le
        exact same _ rfl k (Nat.le_succ_of_le le)
      rw [same _ rfl _ (Nat.le_refl _)]
      exact .wrote visits (.changed new) (ih earlier)
    | asked t id method params => exact .wrote visits (.asked t id method params) (ih same)
  | failed visits misses _ ih =>
    refine .failed visits misses (ih fun t some k le => ?_)
    obtain ⟨t', some', more⟩ := misses.changes_le some
    exact same t' some' k (Nat.le_trans le more)

end Dialogue

/-- Whether a deed, done for a query, keeps to the document that the query is about. -/
def Deed.KeepsTo (q : Query) (cwd : Path) : Deed → Prop
  | .write message => q.Writes cwd message
  | .setDocument path _ => q.path? = some path
  | _ => True

variable {q : Query} {p : Path}

theorem closed_keepsTo (q : Query) (cwd : Path) :
    Closed (Deed.KeepsTo q cwd) (q.Visits cwd) fun x => x.run.Asks (Deed.KeepsTo q cwd) := by
  have plain : ∀ d : Deed, d.IsPlain → d.KeepsTo q cwd := fun d plain => by
    cases d <;> first | exact plain.elim | trivial
  exact closed_asks plain trivial trivial (fun id _ _ => .asked id) trivial

namespace Client

-- How a path becomes a URI and how replies are read does not matter to what is written.
attribute [local irreducible] Path.uri readReport readLenses readTargets readReferences
  localLocations readDocumentSymbols

variable (client : Client)

theorem mayTell_keepsTo (about : q.path? = some p) (cwd : Path) :
    MayTell (Deed.KeepsTo q cwd) p cwd where
  reads := trivial
  counts := trivial
  enters := trivial
  leaves := trivial
  looks := trivial
  keeps _ := about
  entersWriter := trivial
  looksAtWriter := trivial
  leavesWriter := trivial
  opens named := .opened ⟨p, about, named⟩
  changes named := .changed ⟨p, about, named⟩

/-- The work on a query keeps to the document that it is about. -/
theorem keepsTo_answer (q : Query) :
    (client.answer q).run.Asks (Deed.KeepsTo q client.cwd) := by
  have closed := closed_keepsTo q client.cwd
  have named {path : Path} (about : q.path? = some path) (uri : Uri)
      (eq : path.uri client.cwd = .ok uri) : q.Visits client.cwd uri := ⟨path, about, eq⟩
  have opened {path : Path} (about : q.path? = some path) :=
    (mayTell_keepsTo about client.cwd).ensureOpen
  cases q with
  | sync path => exact (mayTell_keepsTo rfl client.cwd).sync
  | changed path text => exact (mayTell_keepsTo rfl client.cwd).sendText text
  | workspaceSymbols query => exact closed.workspaceSymbols client query
  | execute command => exact closed.execute client command
  | definition path position =>
    exact closed.bind (closed.require _ _) fun _ => closed.bind (opened rfl) fun _ =>
      closed.definitionOfOpen client (named rfl) position
  | references path position declaration =>
    exact closed.bind (closed.require _ _) fun _ => closed.bind (opened rfl) fun _ =>
      closed.referencesOfOpen client (named rfl) position declaration
  | documentSymbols path =>
    exact closed.bind (closed.require _ _) fun _ => closed.bind (opened rfl) fun _ =>
      closed.symbolsOfOpen client (named rfl)
  | diagnostics path =>
    exact closed.bind (opened rfl) fun _ =>
      closed.diagnosticsOfOpen client trivial trivial trivial (named rfl)
  | codeLenses path =>
    change (client.codeLenses path).run.Asks _
    unfold codeLenses
    split
    · trivial
    · exact closed.bind (opened rfl) fun _ => closed.lensesOfOpen client (named rfl) _

end Client

end CodeIntel
