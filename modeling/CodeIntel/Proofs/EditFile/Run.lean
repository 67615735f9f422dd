import CodeIntel.Proofs.EditFile.Effect
import Mathlib.Logic.Relation

namespace CodeIntel.EditFile

/-- Every file, directory and link that there was is as it was. -/
def Preserved (t t' : Tree) : Prop := ∀ place, t.node? place ≠ none → t'.node? place = t.node? place

/-- Nothing that there was has changed and, where files can be removed, nothing is new. -/
structure Untouched (removes : Prop) (t t' : Tree) : Prop where
  old : Preserved t t'
  new : removes → ∀ place, t'.node? place = t.node? place

/-- One file holds what the requests make of it, with its permissions; all else is as it was. -/
def Replaced (requests : List EditRequest) (place : Place) (t t' : Tree) : Prop :=
  ∃ content mode after, t.node? place = some (.file content mode) ∧
    editedBy requests content = some after ∧
    ∀ other, t'.node? other = if other = place then some (.file after mode) else t.node? other

namespace Errand

variable (e : Errand)

/-- What has become of the files when an edit ends. -/
def Ends (removes : Prop) (t : Tree) : Except ToolError Output → Tree → Prop
  | .error _, t' => Untouched removes t t'
  | .ok _, t' => Replaced e.requests e.place t t'

/-- Only a temporary file has come into being, with this name. -/
def Prepared (fresh : String) (t t' : Tree) : Prop :=
  t.node? (e.spare fresh) = none ∧ e.Aside fresh t t'

/-- What has become of the files at a stage of an edit. -/
def Kept (removes : Prop) (t : Tree) : Stage → Tree → Prop
  | .reading, t' => t'.node? = t.node?
  | .checking _, t' => t'.node? = t.node?
  | .naming _, t' => t'.node? = t.node?
  | .filling _ fresh, t' => e.Prepared fresh t t'
  | .inspecting _ fresh, t' => e.Prepared fresh t t'
  | .arming _ fresh _, t' => e.Prepared fresh t t'
  | .rechecking _ fresh, t' => e.Prepared fresh t t'
  | .moving _ fresh, t' => e.Prepared fresh t t'
  | .discarding fresh _, t' => e.Prepared fresh t t'
  | .telling _, t' => Replaced e.requests e.place t t'
  | .leaving result, t' => e.Ends removes t result t'
  | .ended result, t' => e.Ends removes t result t'

variable {e} {removes : Prop} {named : String → Prop} {tripped : Bool} {stage stage' : Stage}
  {t t' t'' : Tree}

theorem untouched_of_same (same : t'.node? = t.node?) : Untouched removes t t' :=
  ⟨fun place _ => congrFun same place, fun _ place => congrFun same place⟩

theorem Prepared.preserved {fresh : String} (prepared : e.Prepared fresh t t') :
    Preserved t t' := by
  intro place there
  apply prepared.2
  rintro rfl
  exact there prepared.1

theorem Aside.trans {fresh : String} (first : e.Aside fresh t t') (second : e.Aside fresh t' t'') :
    e.Aside fresh t t'' :=
  fun other ne => (second other ne).trans (first other ne)

theorem kept_iff_prepared {fresh : String} (h : stage.fresh? = some fresh) :
    e.Kept removes t stage t' ↔ e.Prepared fresh t t' := by
  cases stage <;> simp only [Stage.fresh?, reduceCtorEq, Option.some.injEq] at h <;> subst h <;> rfl

theorem replaced_of_same {c : Change} {mode : Nat} (ready : e.Ready c mode t')
    (unchanged : c.after = c.before.toList) (same : t'.node? = t.node?) :
    Replaced e.requests e.place t t' := by
  have here := ready.here
  rw [same] at here
  refine ⟨_, mode, _, here, ready.edited, fun other => ?_⟩
  split
  next eq => rw [eq, same, here, unchanged, utf8Bytes_eq]
  next => rw [same]

theorem Prepared.replaced {c : Change} {mode : Nat} {fresh : String} (usable : e.Usable fresh)
    (prepared : e.Prepared fresh t t') (ready : e.Ready c mode t')
    (moves : e.Moves c mode fresh t' t'') : Replaced e.requests e.place t t'' := by
  have here := ready.here
  rw [prepared.2 _ usable.apart.symm] at here
  refine ⟨_, mode, _, here, ready.edited, fun other => ?_⟩
  rw [moves other]
  split
  · rfl
  · split
    next eq => rw [eq, prepared.1]
    next ne => exact prepared.2 other ne

theorem Kept.step (kept : e.Kept removes t stage t') (fits : e.Fits stage t')
    (goes : e.Goes tripped removes named stage t' stage' t'') : e.Kept removes t stage' t'' := by
  cases goes with
  | fail cause => exact untouched_of_same kept
  | read c => exact kept
  | stop c _ => exact untouched_of_same kept
  | idle c _ unchanged =>
    obtain ⟨mode, ready⟩ := fits
    exact replaced_of_same ready unchanged kept
  | need c _ => exact kept
  | name c fresh _ free =>
    have same : t'.node? = t.node? := kept
    exact ⟨same ▸ free, fun other _ => congrFun same other⟩
  | prepare fresh source target _ aside =>
    have prepared := (kept_iff_prepared source).mp kept
    exact (kept_iff_prepared target).mpr ⟨prepared.1, prepared.2.trans aside⟩
  | recheck c fresh _ => exact kept
  | move c mode fresh ready moves =>
    obtain ⟨_, _, filled⟩ := fits
    exact Prepared.replaced filled.toUsable kept ready moves
  | discard fresh cause aside gone =>
    have prepared : e.Prepared fresh t t'' := ⟨kept.1, Aside.trans kept.2 aside⟩
    refine ⟨prepared.preserved, fun all other => ?_⟩
    by_cases eq : other = e.spare fresh
    · rw [eq, gone all, kept.1]
    · exact prepared.2 other eq
  | tell c told => exact kept
  | leave result => exact kept

end Errand

/-- An edit under way, the files, and whether the edit is cancelled by now. -/
structure Scene where
  rest : Steps
  files : Tree
  tripped : Bool

/-- A name that no temporary file has been given. -/
def NewName (t : Tree) (name : String) : Prop :=
  '/' ∉ name.toList ∧ ∀ place, t.node? (temporaryPlace place name) = none

/-- What may happen next: the edit is cancelled, a file is filled in part, or a question is
answered. -/
inductive Happens (venue : Venue) : Scene → Scene → Prop
  | trip (s : Scene) : Happens venue s { s with tripped := true }
  | part {s : Scene} {p : Path} {text : String} {next : Except FileError Unit → Steps}
      {part : List UInt8} {t : Tree} (asked : s.rest = .ask (.write p text) next)
      (isPart : part <+: utf8Bytes text) (written : s.files.write (venue.cwd.join p) part = .ok t) :
      Happens venue s { s with files := t }
  | reply {q : Ask} {next : q.Reply → Steps} {reply : q.Reply} {t t' : Tree} {tripped : Bool}
      (answer : Answers venue (NewName t) tripped t q reply t') :
      Happens venue ⟨.ask q next, t, tripped⟩ ⟨next reply, t', tripped⟩

/-- Which requests an edit is to carry out, and on the file at which place. -/
def Finds (venue : Venue) (caller : Caller) (json : Json) (t : Tree) (requests : List EditRequest)
    (place : Place) : Prop :=
  ∃ raw requested, understood json = .ok (raw, requests) ∧
    Path.resolve venue.present raw caller.surroundings = .ok requested ∧
    t.longTarget (venue.cwd.join requested) true = .ok (.found place)

/-- What an edit may have left to do, and the files by then, if only the stages `P` can be
reached once it has its lock. -/
inductive Reached (venue : Venue) (caller : Caller) (json : Json) (t : Tree) (P : Stage → Prop) :
    Steps → Tree → Prop
  | looking {rest : Steps}
      (looks : Looks (fun p found => found = venue.present p)
        (Located (fun p found => found = venue.present p) caller json) rest) :
      Reached venue caller json t P rest t
  | entering {e : Errand} (finds : Finds venue caller json t e.requests e.place) :
      Reached venue caller json t P e.entering t
  | under {e : Errand} {stage : Stage} {t' : Tree}
      (finds : Finds venue caller json t e.requests e.place) (within : P stage)
      (fits : e.Fits stage t') (kept : e.Kept venue.removes t stage t') :
      Reached venue caller json t P (e.plan stage) t'

variable {venue : Venue} {caller : Caller} {json : Json} {t t' t'' : Tree} {P : Stage → Prop}

theorem reached_failed (cause : ToolError) :
    Reached venue caller json t P (.done (.error cause)) t :=
  .looking (.there (.failed cause))

theorem reached_hasLocated {requests : List EditRequest} {raw : String} {requested : Path}
    {reply : Except FileError Path} (understands : understood json = .ok (raw, requests))
    (resolves : Path.resolve venue.present raw caller.surroundings = .ok requested)
    (truth : Truthful (t.realPath (venue.cwd.join requested)) reply) :
    Reached venue caller json t P (hasLocated caller requests requested reply) t := by
  cases reply with
  | error cause => exact reached_failed _
  | ok path =>
    obtain ⟨place, _, rfl, found, _⟩ := Tree.realPath_eq_ok_iff.mp (truth path rfl)
    rw [hasLocated_pathOf]
    exact .entering ⟨raw, requested, understands, resolves, found⟩

theorem Reached.reply {q : Ask} {next : q.Reply → Steps} {reply : q.Reply} {tripped : Bool}
    (reached : Reached venue caller json t P (.ask q next) t')
    (answer : Answers venue (NewName t') tripped t' q reply t'') (start : P .reading)
    (onward : ∀ (e : Errand) stage stage', P stage →
      e.Goes tripped venue.removes (NewName t') stage t' stage' t'' → P stage') :
    Reached venue caller json t P (next reply) t'' := by
  generalize asks : Plan.ask q next = rest at reached
  cases reached with
  | looking looks =>
    cases looks with
    | there located =>
      cases located with
      | failed => cases asks
      | found understands path =>
        cases asks
        obtain ⟨truth, rfl⟩ := answer
        exact reached_hasLocated understands path.resolve truth
    | asks looks =>
      cases asks
      obtain ⟨rfl, rfl⟩ := answer
      exact .looking (looks _ rfl)
  | entering finds =>
    cases asks
    have same : t'' = t := answer
    rw [same]
    cases reply with
    | true =>
      have ⟨_, _, _, _, found⟩ := finds
      exact .under finds start (Tree.plain_of_longTarget found) rfl
    | false => exact reached_failed _
  | under finds within fits kept =>
    obtain ⟨stage', rest, fits', goes⟩ := fits.leads asks.symm answer
      fun name given => ⟨given.1, given.2 _⟩
    rw [rest]
    exact .under finds (onward _ _ _ within goes) fits' (kept.step fits goes)

theorem Reached.part {p : Path} {text : String} {next : Except FileError Unit → Steps}
    {part : List UInt8} {rest : Steps} (reached : Reached venue caller json t P rest t')
    (asked : rest = .ask (.write p text) next)
    (written : t'.write (venue.cwd.join p) part = .ok t'') :
    Reached venue caller json t P rest t'' := by
  cases reached with
  | looking looks => rcases looks.question asked with ⟨_, eq⟩ | ⟨_, eq⟩ <;> cases eq
  | entering finds => exact nomatch (Plan.ask.inj asked).1
  | @under e stage _ finds within fits kept =>
    obtain ⟨c, fresh, filling, temporary⟩ := Errand.filling_of_write asked
    rw [temporary] at written
    subst filling
    obtain ⟨fits', aside⟩ := fits.part written
    exact @Reached.under _ _ _ _ _ e (.filling c fresh) _ finds within fits'
      ⟨kept.1, Errand.Aside.trans kept.2 aside⟩

/-- Whether a step can leave the stages `P` while the edit is cancelled, or is not. -/
def Closed (P : Stage → Prop) (tripped : Bool) : Prop :=
  ∀ (e : Errand) (removes : Prop) (named : String → Prop) stage t stage' t',
    P stage → e.Goes tripped removes named stage t stage' t' → P stage'

theorem Reached.happens {s s' : Scene} (reached : Reached venue caller json t P s.rest s.files)
    (happens : Happens venue s s') (start : P .reading) (closed : Closed P s.tripped) :
    Reached venue caller json t P s'.rest s'.files := by
  cases happens with
  | trip => exact reached
  | part asked _ written => exact reached.part asked written
  | reply answer =>
    exact reached.reply answer start fun e stage stage' => closed e _ _ stage _ stage' _

/-- What may be the case after any number of happenings. -/
abbrev Reaches (venue : Venue) : Scene → Scene → Prop := Relation.ReflTransGen (Happens venue)

theorem tripped_of_reaches {s s' : Scene} (reaches : Reaches venue s s') (h : s.tripped = true) :
    s'.tripped = true := by
  induction reaches with
  | refl => exact h
  | tail _ happens ih =>
    cases happens with
    | trip => rfl
    | part => exact ih
    | reply => exact ih

theorem Reached.run {s s' : Scene} (reached : Reached venue caller json t P s.rest s.files)
    (reaches : Reaches venue s s') (start : P .reading)
    (closed : ∀ tripped, (s.tripped = true → tripped = true) → Closed P tripped) :
    Reached venue caller json t P s'.rest s'.files := by
  induction reaches with
  | refl => exact reached
  | tail before happens ih => exact ih.happens happens start (closed _ (tripped_of_reaches before))

end CodeIntel.EditFile
