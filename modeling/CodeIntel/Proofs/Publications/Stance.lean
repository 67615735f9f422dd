import CodeIntel.Proofs.Path.Steps
import CodeIntel.Proofs.Publications.Press
import CodeIntel.Proofs.Publications.Vigil

namespace CodeIntel

/-- A message that is written for a query and tells of a document names the URI of both. -/
theorem Query.Writes.same_uri {q : Query} {p cwd : Path} {text : String} {message : List UInt8}
    (writes : q.Writes cwd message) (tells : Tells p cwd text message) :
    ∃ path uri uri', q.path? = some path ∧ path.uri cwd = .ok uri ∧ p.uri cwd = .ok uri' ∧
      uri.text = uri'.text := by
  cases writes with
  | asked id regards =>
    exact absurd tells (not_tells (fun _ _ eq => Outgoing.noConfusion eq) text)
  | opened visits language text' =>
    obtain ⟨path, about, named⟩ := visits
    generalize eq : openMessage _ language text' = message at tells
    cases tells with
    | opened named' language' =>
      have params := (Outgoing.notification_inj eq).2
      exact ⟨path, _, _, about, named, named', (openParams_inj params).2⟩
    | changed named' version => exact absurd (Outgoing.notification_inj eq).1 (by decide)
  | changed visits version text' =>
    obtain ⟨path, about, named⟩ := visits
    generalize eq : changeMessage _ version text' = message at tells
    cases tells with
    | opened named' language' => exact absurd (Outgoing.notification_inj eq).1 (by decide)
    | changed named' version' =>
      have params := (Outgoing.notification_inj eq).2
      exact ⟨path, _, _, about, named, named', (changeParams_inj params).2⟩

/-- Whether a query is about the document at a path. -/
def Query.Concerns (q : Query) (p : Path) : Prop :=
  ∃ path, q.path? = some path ∧ path.same p = true

/-- Whether a deed has nothing to do with the documents, and tells the server nothing of one. -/
def Deed.Quiet (p cwd : Path) : Deed → Prop
  | .write message => ∀ text, ¬ Tells p cwd text message
  | .readText _ | .enterDocuments | .leaveDocuments | .document _ | .setDocument .. => False
  | _ => True

namespace Press

/-- What whoever is alone with the documents knows of one: how many publications were counted
before the text that is kept of it, and before the text that the server was told last. -/
structure Inside where
  kept : Option Nat
  told : Option Nat

/-- How a query stands to the document at a path. -/
structure Stance where
  /-- There if the query has the documents for itself. -/
  inside : Option Inside
  /-- Whether the document is known to have been sent. -/
  isOpen : Bool
  counted : Nat
  /-- What had been counted before the text that the server was told last, as it was looked up. -/
  looked : Option Nat
  /-- The latest publication for the document, when it was looked at. -/
  seen : Option (Nat × List Diagnostic)
  start : Nat
  /-- A deadline that has passed. -/
  late : Option Nat

namespace Stance

def initial : Stance := ⟨none, false, 0, none, none, 0, none⟩

/-- What is kept of the document is what the server was told, wherever the query may be dropped. -/
def Settled (s : Stance) : Prop := ∀ x, s.inside = some x → x.kept = x.told

/-- What the work on a query may do that is about the document at `p`. Whoever enters the documents
finds them in agreement with what the server was told, and leaves them so. -/
def rule (p cwd : Path) : Rule Deed Deed.Reply Stance
  | .readText _, goal, s => s.Settled ∧ ∀ reply, goal reply s
  | .enterDocuments, goal, s =>
    s.inside = none ∧ ∀ since : Option Nat, (s.isOpen = true → since.isSome) →
      goal () { s with inside := some ⟨since, since⟩ }
  | .leaveDocuments, goal, s =>
    ∃ since : Option Nat, s.inside = some ⟨since, since⟩ ∧
      goal () { s with inside := none, isOpen := since.isSome }
  | .document q, goal, s =>
    q.same p = true ∧ ∃ x, s.inside = some x ∧ ∀ known : Option Document,
      known.map Document.arrivals = x.kept → goal known { s with looked := x.told }
  | .setDocument q document, goal, s =>
    q.same p = true ∧ ∃ x, s.inside = some x ∧
      goal () { s with inside := some { x with kept := some document.arrivals } }
  | .await _ _, goal, s => s.Settled ∧ ∀ reply, goal reply s
  | .enterWriter, goal, s => s.Settled ∧ ∀ reply, goal reply s
  | .write message, goal, s =>
    s.Settled ∧ (∀ e, goal (.error e) s) ∧
      (∀ text, Tells p cwd text message → ∃ x, s.inside = some x ∧
        goal (.ok ()) { s with inside := some { x with told := some s.counted } }) ∧
      ((∀ text, ¬ Tells p cwd text message) → goal (.ok ()) s)
  | .now, goal, s => ∀ now, goal now { s with start := now }
  | .arrivals, goal, s => ∀ count, goal count { s with counted := count }
  | .published q, goal, s =>
    ∀ latest, goal latest { s with seen := if q.same p then latest else none }
  | .update _ deadline, goal, s =>
    s.Settled ∧ goal true s ∧ goal false { s with late := some deadline }
  | _, goal, s => ∀ reply, goal reply s

variable {p cwd : Path}

theorem rule_monotone : (rule p cwd).Monotone := by
  intro d goal goal' weaker s h
  cases d with
  | readText | await | enterWriter => exact ⟨h.1, fun reply => weaker _ _ (h.2 reply)⟩
  | enterDocuments => exact ⟨h.1, fun since isOpen => weaker _ _ (h.2 since isOpen)⟩
  | leaveDocuments =>
    obtain ⟨since, inside, left⟩ := h
    exact ⟨since, inside, weaker _ _ left⟩
  | document q =>
    obtain ⟨here, x, inside, found⟩ := h
    exact ⟨here, x, inside, fun known kept => weaker _ _ (found known kept)⟩
  | setDocument q document =>
    obtain ⟨here, x, inside, set⟩ := h
    exact ⟨here, x, inside, weaker _ _ set⟩
  | write message =>
    obtain ⟨settled, failed, told, silent⟩ := h
    refine ⟨settled, fun e => weaker _ _ (failed e), fun text tells => ?_,
      fun h => weaker _ _ (silent h)⟩
    obtain ⟨x, inside, sent⟩ := told text tells
    exact ⟨x, inside, weaker _ _ sent⟩
  | update seen deadline => exact ⟨h.1, weaker _ _ h.2.1, weaker _ _ h.2.2⟩
  | _ => exact fun reply => weaker _ _ (h reply)

theorem settled_of_outside {s : Stance} (outside : s.inside = none) : s.Settled :=
  fun x inside => by cases outside.symm.trans inside

theorem settled_of_inside {s : Stance} {since : Option Nat}
    (inside : s.inside = some ⟨since, since⟩) : s.Settled := fun x inside' => by
  cases inside.symm.trans inside'
  rfl

end Stance

open Stance

variable {α β : Type} {p q cwd : Path} {s : Stance} {client : Client} {text : String}

/-- Some work with the documents leaves them in agreement, and then the rest may follow. -/
def Leaves (goal : α → Stance → Prop) (result : α) (s : Stance) : Prop :=
  ∃ since : Option Nat, s.inside = some ⟨since, since⟩ ∧
    goal result { s with inside := none, isOpen := since.isSome }

theorem meets_withDocuments {x : Attempt α} {goal : Except ServerError α → Stance → Prop}
    (outside : s.inside = none)
    (h : ∀ since : Option Nat, (s.isOpen = true → since.isSome) →
      x.run.Meets (rule p cwd) (Leaves goal) { s with inside := some ⟨since, since⟩ }) :
    (Attempt.withDocuments x).run.Meets (rule p cwd) goal s := by
  rw [Attempt.run_withDocuments]
  refine ⟨outside, fun since isOpen => ?_⟩
  change (x.run.bind _).Meets _ _ _
  rw [Plan.meets_bind]
  exact h since isOpen

theorem meets_tell {method : String} {params : Json}
    {goal : Except ServerError Unit → Stance → Prop} {since : Option Nat}
    (tells : Tells p cwd text (Outgoing.notification method (some params)).bytes)
    (inside : s.inside = some ⟨since, since⟩) (failed : ∀ e, goal (.error e) s)
    (sent : goal (.ok ()) { s with inside := some ⟨since, some s.counted⟩ }) :
    (Attempt.notify method (some params)).run.Meets (rule p cwd) goal s := by
  have settled := settled_of_inside inside
  refine ⟨settled, fun _ isOpen => ?_⟩
  cases isOpen with
  | false => exact fun _ => failed _
  | true =>
    refine ⟨settled, fun e _ => failed e, fun text tells => ⟨_, inside, fun _ => sent⟩, ?_⟩
    exact fun silent => absurd tells (silent text)

/-- Whoever has told the server a text knows the document to be open. -/
def Sends (result : Except ServerError Unit) (s : Stance) : Prop :=
  s.inside = none ∧ (result = .ok () → s.isOpen = true)

theorem sends_change {uri : Uri} {known : Document} {arrivals : Nat} (same : q.same p = true)
    (named : q.uri cwd = .ok uri) (counted : s.counted = arrivals)
    (inside : s.inside = some ⟨some known.arrivals, some known.arrivals⟩) :
    (Client.sendChange q uri known text arrivals).run.Meets (rule p cwd) (Leaves Sends) s := by
  unfold Client.sendChange
  subst counted
  split
  · exact ⟨_, inside, rfl, fun _ => rfl⟩
  · rw [Attempt.meets_ask_bind]
    refine ⟨same, _, inside, ?_⟩
    rw [Attempt.meets_bind]
    have tells : Tells p cwd text _ := .changed (Path.uri_of_same same named)
      (nextVersion known.version)
    refine meets_tell tells rfl (fun e => ⟨_, rfl, rfl, nofun⟩) ?_
    exact ⟨same, _, rfl, _, rfl, rfl, fun _ => rfl⟩

theorem sends_open {uri : Uri} {arrivals : Nat} (same : q.same p = true)
    (named : q.uri client.cwd = .ok uri) (inside : s.inside = some ⟨none, none⟩)
    (counted : s.counted = arrivals) :
    (client.sendOpen q uri text arrivals).run.Meets (rule p client.cwd) (Leaves Sends) s := by
  unfold Client.sendOpen
  subst counted
  rw [Attempt.meets_bind]
  have tells : Tells p client.cwd text _ :=
    .opened (Path.uri_of_same same named) (client.languageOf q)
  refine meets_tell tells inside (fun e => ⟨_, inside, rfl, nofun⟩) ?_
  exact ⟨same, _, rfl, _, rfl, rfl, fun _ => rfl⟩

theorem sends_text (same : q.same p = true) (outside : s.inside = none) (text : String) :
    (client.sendText q text).run.Meets (rule p client.cwd) Sends s := by
  refine meets_withDocuments outside fun since _ => ?_
  rw [Attempt.meets_ask_bind]
  intro arrivals
  rw [Attempt.meets_bind, Attempt.meets_except]
  cases named : q.uri client.cwd with
  | error cause => exact ⟨since, rfl, rfl, nofun⟩
  | ok uri =>
    dsimp only
    rw [Attempt.meets_ask_bind]
    refine ⟨same, _, rfl, fun known kept => ?_⟩
    obtain rfl : known.map Document.arrivals = since := kept
    cases known with
    | some known => exact sends_change same named rfl rfl
    | none => exact sends_open same named rfl rfl

-- What it does to send a text does not matter to what follows.
attribute [local irreducible] Client.sendText

theorem sends_sync (same : q.same p = true) (outside : s.inside = none) :
    (client.sync q).run.Meets (rule p client.cwd) Sends s := by
  unfold Client.sync
  rw [Attempt.meets_ask_bind]
  refine ⟨settled_of_outside outside, fun read => ?_⟩
  cases read with
  | error cause => exact ⟨outside, nofun⟩
  | ok text => exact sends_text same outside text

theorem sends_ensureOpen (same : q.same p = true) (outside : s.inside = none) :
    (client.ensureOpen q).run.Meets (rule p client.cwd) Sends s := by
  unfold Client.ensureOpen
  rw [Attempt.meets_bind]
  refine meets_withDocuments outside fun since _ => ⟨same, _, rfl, fun known kept => ?_⟩
  refine ⟨since, rfl, ?_⟩
  obtain rfl : known.map Document.arrivals = since := kept
  cases known with
  | some known => exact ⟨rfl, fun _ => rfl⟩
  | none => exact sends_sync same rfl

/-- How a wait for diagnostics leaves things: a list is one that was published after more reports
had arrived than were counted before the text, or the deadline has passed. -/
def Finds (client : Client) (result : Except ServerError (Option (List Diagnostic))) (s : Stance) :
    Prop :=
  s.inside = none ∧ ∀ diagnostics, result = .ok (some diagnostics) →
    s.late = some (s.start + client.config.diagnosticsWaitMs) ∨
    ∃ n since, s.seen = some (n, diagnostics) ∧ s.looked = some since ∧ since < n

theorem finds_awaitPublished {synced deadline : Nat} (same : q.same p = true)
    (outside : s.inside = none) (looked : s.looked = some synced)
    (ends : s.start + client.config.diagnosticsWaitMs = deadline) (rounds : Nat) :
    (Client.awaitPublished q synced deadline rounds).run.Meets (rule p cwd) (Finds client) s := by
  induction rounds generalizing s with
  | zero => exact ⟨outside, nofun⟩
  | succ rounds ih =>
    unfold Client.awaitPublished
    rw [Attempt.meets_ask_bind]
    intro seen
    rw [Attempt.meets_ask_bind]
    intro latest
    split
    next diagnostics fresh =>
      obtain ⟨n, rfl, new⟩ := Vigil.newerThan_eq_some_iff.mp fresh
      refine ⟨outside, fun found eq => .inr ?_⟩
      cases eq
      exact ⟨n, synced, if_pos same, looked, new⟩
    next old =>
      rw [Attempt.meets_ask_bind]
      refine ⟨settled_of_outside outside, ih outside looked ends, outside, fun _ _ => .inl ?_⟩
      exact congrArg some ends.symm

theorem finds_published (same : q.same p = true) (outside : s.inside = none)
    (isOpen : s.isOpen = true) :
    (client.publishedDiagnostics q).run.Meets (rule p cwd) (Finds client) s := by
  unfold Client.publishedDiagnostics
  rw [Attempt.meets_bind]
  refine meets_withDocuments outside fun since opened => ⟨same, _, rfl, fun known kept => ?_⟩
  obtain ⟨synced, rfl⟩ := Option.isSome_iff_exists.mp (opened isOpen)
  have eq : synced = (known.map Document.arrivals).getD 0 := congrArg (·.getD 0) kept.symm
  refine ⟨some synced, rfl, fun start => ?_⟩
  change (Client.awaitPublished q _ _ _).run.Meets _ _ _
  apply finds_awaitPublished same
  · rfl
  · exact congrArg some eq
  · rfl

theorem closed_quiet (p cwd : Path) :
    Closed (Deed.Quiet p cwd) (fun _ => True) fun x => x.run.Asks (Deed.Quiet p cwd) := by
  have plain : ∀ d : Deed, d.IsPlain → d.Quiet p cwd := fun d plain => by
    cases d <;> first | exact plain.elim | trivial
  exact closed_asks plain trivial trivial (fun _ _ _ _ => not_tells nofun) trivial

/-- What is quiet may follow where the documents are left. -/
theorem meets_of_quiet {work : Work α} {goal : α → Stance → Prop}
    (asks : work.Asks (Deed.Quiet p cwd)) (outside : s.inside = none)
    (h : ∀ a s', s'.inside = none → s'.isOpen = s.isOpen → goal a s') :
    work.Meets (rule p cwd) goal s := by
  induction work generalizing s with
  | done a => exact h a s outside rfl
  | ask d next ih =>
    obtain ⟨quiet, later⟩ := asks
    have settled := settled_of_outside outside
    cases d with
    | readText | enterDocuments | leaveDocuments | document | setDocument => exact quiet.elim
    | await | enterWriter => exact ⟨settled, fun reply => ih reply (later reply) outside h⟩
    | write message =>
      refine ⟨settled, fun e => ih _ (later _) outside h, fun text tells => ?_, fun _ => ?_⟩
      · exact absurd tells (quiet text)
      · exact ih _ (later _) outside h
    | update => exact ⟨settled, ih true (later _) outside h, ih false (later _) outside h⟩
    | now | arrivals | published => exact fun reply => ih reply (later reply) outside h
    | _ => exact fun reply => ih reply (later reply) outside h

/-- How the work on a query leaves things. -/
def Ends (client : Client) : (q : Query) → Except ServerError q.Reply → Stance → Prop
  | .diagnostics _, result, s =>
    if client.features.diagnostics then s.inside = none else Finds client result s
  | _, _, s => s.inside = none

theorem meets_sent_bind {x : Attempt Unit} {f : Unit → Attempt β}
    (sends : x.run.Meets (rule p cwd) Sends s) (rest : ∀ a, (f a).run.Asks (Deed.Quiet p cwd)) :
    (x >>= f).run.Meets (rule p cwd) (fun _ s => s.inside = none) s := by
  rw [Attempt.meets_bind]
  refine sends.mono Stance.rule_monotone fun result s' sent => ?_
  cases result with
  | ok a => exact meets_of_quiet (rest a) sent.1 fun _ _ outside _ => outside
  | error e => exact sent.1

theorem meets_require {supported : Bool} {method : String} {x : Attempt α}
    (outside : s.inside = none) (h : x.run.Meets (rule p cwd) (fun _ s => s.inside = none) s) :
    (Client.require supported method >>= fun _ => x).run.Meets (rule p cwd)
      (fun _ s => s.inside = none) s := by
  cases supported with
  | true => exact h
  | false => exact outside

-- How a path becomes a URI and how replies are read does not matter to what is asked.
attribute [local irreducible] Path.uri readReport readLenses readTargets readReferences
  localLocations readDocumentSymbols Client.ensureOpen

theorem ends_diagnostics (same : q.same p = true) (outside : s.inside = none) :
    (client.diagnostics q).run.Meets (rule p client.cwd) (Ends client (.diagnostics q)) s := by
  have opens : (client.ensureOpen q).run.Meets (rule p client.cwd) Sends s :=
    sends_ensureOpen same outside
  have found (s' : Stance) (outside : s'.inside = none) (isOpen : s'.isOpen = true) :
      (client.publishedDiagnostics q).run.Meets (rule p client.cwd) (Finds client) s' :=
    finds_published same outside isOpen
  unfold Client.diagnostics Ends
  rw [Attempt.meets_bind]
  refine opens.mono Stance.rule_monotone fun result s' sent => ?_
  cases result with
  | error e =>
    dsimp only
    split
    · exact sent.1
    · exact ⟨sent.1, nofun⟩
  | ok _ =>
    have isOpen := sent.2 rfl
    cases pulls : client.features.diagnostics with
    | false => exact found s' sent.1 isOpen
    | true =>
      have everyUri : ∀ uri, q.uri client.cwd = .ok uri → True := fun _ _ => trivial
      have pulling := (closed_quiet p client.cwd).pullDiagnostics client everyUri
      simp only [↓reduceIte]
      rw [Attempt.meets_bind]
      refine meets_of_quiet pulling sent.1 fun pulled s₁ outside still => ?_
      obtain e | _ | found' := pulled
      · exact outside
      · have answers := found s₁ outside (still.trans isOpen)
        exact answers.mono Stance.rule_monotone fun _ _ finds => finds.1
      · exact outside

theorem ends_answer {query : Query} (concerns : query.Concerns p) (outside : s.inside = none) :
    (client.answer query).run.Meets (rule p client.cwd) (Ends client query) s := by
  obtain ⟨q, about, same⟩ := concerns
  have opens : (client.ensureOpen q).run.Meets (rule p client.cwd) Sends s :=
    sends_ensureOpen same outside
  have closed := closed_quiet p client.cwd
  have everyUri : ∀ uri, q.uri client.cwd = .ok uri → True := fun _ _ => trivial
  cases query with
  | workspaceSymbols query => cases about
  | execute command => cases about
  | sync path =>
    cases about
    exact (sends_sync same outside).mono Stance.rule_monotone fun _ _ sent => sent.1
  | changed path text =>
    cases about
    exact (sends_text same outside text).mono Stance.rule_monotone fun _ _ sent => sent.1
  | definition path position =>
    cases about
    have rest (_ : Unit) := closed.definitionOfOpen client everyUri position
    exact meets_require outside (meets_sent_bind opens rest)
  | references path position declaration =>
    cases about
    have rest (_ : Unit) := closed.referencesOfOpen client everyUri position declaration
    exact meets_require outside (meets_sent_bind opens rest)
  | documentSymbols path =>
    cases about
    have rest (_ : Unit) := closed.symbolsOfOpen client everyUri
    exact meets_require outside (meets_sent_bind opens rest)
  | diagnostics path =>
    cases about
    exact ends_diagnostics same outside
  | codeLenses path =>
    cases about
    change (client.codeLenses q).run.Meets _ _ _
    unfold Client.codeLenses
    split
    · exact outside
    next canResolve _ =>
      have rest (_ : Unit) := closed.lensesOfOpen client everyUri canResolve
      exact meets_sent_bind opens rest

end Press

end CodeIntel
