import CodeIntel.Files.Tree
import CodeIntel.Proofs.EditFile.Stages
import CodeIntel.Proofs.Files.Place
import CodeIntel.Proofs.Files.RealPath
import CodeIntel.Proofs.Text.Columns
import CodeIntel.Proofs.Text.Slash
import CodeIntel.Tool.Ask
import CodeIntel.Tool.Edit

namespace CodeIntel

/-- The name of the file that is filled before it takes the place of one with this name. -/
def temporaryName (name : List UInt8) (fresh : String) : String :=
  s!".{lossyText name}.{fresh}.tmp"

/-- Where the file stands that is filled before it takes a place. -/
def temporaryPlace (place : Place) (fresh : String) : Place :=
  place.dropLast ++ [utf8Bytes (temporaryName (place.getLast?.getD []) fresh)]

theorem toList_temporaryName (name : List UInt8) (fresh : String) :
    (temporaryName name fresh).toList =
      '.' :: (lossyText name).toList ++ '.' :: fresh.toList ++ ".tmp".toList := by
  simp [temporaryName, toString]

theorem properName_temporaryName {name : List UInt8} {fresh : String} (proper : ProperName name)
    (plain : '/' ∉ fresh.toList) : ProperName (utf8Bytes (temporaryName name fresh)) := by
  have long : 4 ≤ (utf8Bytes (temporaryName name fresh)).length := by
    have ending : (utf8 ".tmp".toList).length = 4 := by decide
    rw [utf8Bytes_eq, toList_temporaryName, utf8_append, List.length_append, ending]
    omega
  refine ⟨?_, ?_, ?_, ?_⟩
  · intro eq
    simp [eq] at long
  · apply slash_not_mem_utf8Bytes
    rw [toList_temporaryName]
    have := slash_not_mem_lossyText proper.noSlash
    simp [this, plain]
  · intro eq
    simp [eq] at long
  · intro eq
    simp [eq] at long

theorem proper_temporaryPlace {place : Place} {fresh : String} (proper : place.Proper)
    (hn : place ≠ []) (plain : '/' ∉ fresh.toList) : (temporaryPlace place fresh).Proper := by
  refine proper.dropLast.concat ?_
  rw [List.getLast?_eq_some_getLast hn]
  exact properName_temporaryName (proper _ (List.getLast_mem hn)) plain

theorem length_temporaryPlace {place : Place} (hn : place ≠ []) (fresh : String) :
    (temporaryPlace place fresh).length = place.length := by
  have := List.length_pos_iff.mpr hn
  simp only [temporaryPlace, List.length_append, List.length_dropLast, List.length_singleton]
  omega

theorem temporaryPlace_ne_root (place : Place) (fresh : String) :
    temporaryPlace place fresh ≠ [] := by
  simp [temporaryPlace]

theorem intercalate_concat {α : Type} (sep : List α) {xs : List (List α)} (last : List α)
    (hn : xs ≠ []) : sep.intercalate (xs ++ [last]) = sep.intercalate xs ++ sep ++ last := by
  induction xs with
  | nil => exact absurd rfl hn
  | cons x rest ih =>
    by_cases h : rest = []
    · subst h
      simp
    · rw [List.cons_append, List.intercalate_cons_of_ne_nil (by simp),
        List.intercalate_cons_of_ne_nil h, ih h]
      simp

namespace Tree

open CodeIntel.Path (slash)

theorem pathOf_eq (place : Place) : pathOf place = ⟨slash :: [slash].intercalate place⟩ :=
  congrArg Path.mk (pathOf_bytes place)

theorem join_pathOf_ofString {place : Place} (proper : place.Proper) {name : String}
    (plain : (Path.ofString name).isAbsolute = false) :
    (pathOf place).join (.ofString name) = pathOf (place ++ [utf8Bytes name]) := by
  rw [Path.join, plain, if_neg Bool.false_ne_true, pathOf_eq, if_neg (by simp), pathOf_eq]
  by_cases hn : place = []
  · subst hn
    simp [Path.ofString]
  · have named := proper _ (List.getLast_mem hn)
    have ends : (slash :: [slash].intercalate place).getLast? ≠ some slash := by
      obtain ⟨above, last, rfl⟩ : ∃ above last, place = above ++ [last] :=
        ⟨_, _, (List.dropLast_append_getLast hn).symm⟩
      rw [List.getLast_append_singleton] at named
      have isLast : ([slash].intercalate (above ++ [last])).getLast? = last.getLast? := by
        by_cases h : above = []
        · simp [h]
        · rw [intercalate_concat _ _ h, List.getLast?_append_of_ne_nil _ named.nonempty]
      rw [List.getLast?_cons_of_ne_nil, isLast]
      · intro eq
        exact named.noSlash (List.mem_of_getLast? eq)
      · intro eq
        rw [eq] at isLast
        exact named.nonempty (List.getLast?_eq_none_iff.mp isLast.symm)
    rw [if_neg ends, intercalate_concat _ _ hn]
    simp [Path.ofString]

theorem fileName?_pathOf {place : Place} (proper : place.Proper) :
    (pathOf place).fileName? = place.getLast? := by
  rw [Path.fileName?, components_pathOf proper, List.getLast?_cons, List.getLast?_map]
  cases place.getLast? <;> rfl

theorem parent?_pathOf {place : Place} (proper : place.Proper) (hn : place ≠ []) :
    (pathOf place).parent? = some (pathOf place.dropLast) := by
  rw [Path.parent?, components_pathOf proper, List.getLast?_cons, List.getLast?_map,
    List.getLast?_eq_some_getLast hn, List.dropLast_cons_of_ne_nil (by simpa using hn),
    ← List.map_dropLast]
  rfl

theorem temporaryPath_pathOf {place : Place} (proper : place.Proper) (hn : place ≠ [])
    (fresh : String) : temporaryPath (pathOf place) fresh = pathOf (temporaryPlace place fresh) := by
  have dotted : (Path.ofString (temporaryName (place.getLast?.getD []) fresh)).isAbsolute = false := by
    rw [Path.isAbsolute, Path.ofString, utf8Bytes_eq, toList_temporaryName]
    rfl
  rw [temporaryPath, fileName?_pathOf proper, parent?_pathOf proper hn]
  exact join_pathOf_ofString proper.dropLast dotted

/-- Where no name begins with a dot there are no temporary files. -/
theorem node?_temporaryPlace {t : Tree} {place : Place} {fresh : String}
    (undotted : ∀ entry ∈ t.entries, entry.1.getLast?.bind List.head? ≠ some 0x2E) :
    t.node? (temporaryPlace place fresh) = none := by
  rw [node?, if_neg (temporaryPlace_ne_root place fresh), Option.map_eq_none_iff,
    List.find?_eq_none]
  intro entry mem eq
  apply undotted entry mem
  rw [decide_eq_true_eq] at eq
  rw [eq, temporaryPlace, List.getLast?_append, utf8Bytes_eq, toList_temporaryName]
  rfl

end Tree

end CodeIntel

namespace CodeIntel.EditFile

/-- What a call meets outside the files. -/
structure Venue where
  /-- Where relative paths are taken from. -/
  cwd : Path
  present : Path → Bool
  /-- Whether files are removed wherever they can be. -/
  removes : Prop

/-- A reply that is what the files say, or a failure. -/
def Truthful {α : Type} (said reply : Except FileError α) : Prop := ∀ a, reply = .ok a → said = .ok a

/-- What comes of an operation on files: all of the change, or a failure and no change. -/
def Changes (changed : Except FileError Tree) (t : Tree) : Except FileError Unit → Tree → Prop
  | .ok (), t' => changed = .ok t'
  | .error _, t' => t' = t

/-- The replies to a question and the files afterwards. An operation on files may fail for reasons
of its own, and the server may reply anything; `named` are the names that may be given. -/
def Answers (venue : Venue) (named : String → Prop) (tripped : Bool) (t : Tree) :
    (q : Ask) → q.Reply → Tree → Prop
  | .present p, reply, t' => reply = venue.present p ∧ t' = t
  | .realPath p, reply, t' => Truthful (t.realPath (venue.cwd.join p)) reply ∧ t' = t
  | .readText p, reply, t' => Truthful (t.readText (venue.cwd.join p)) reply ∧ t' = t
  | .write p text, reply, t' => Changes (t.write (venue.cwd.join p) (utf8Bytes text)) t reply t'
  | .mode p, reply, t' => Truthful (t.mode (venue.cwd.join p)) reply ∧ t' = t
  | .setMode p mode, reply, t' => Changes (t.setMode (venue.cwd.join p) mode) t reply t'
  | .remove p, reply, t' =>
    Changes (t.remove (venue.cwd.join p)) t reply t' ∧
      (venue.removes → reply.isOk = (t.remove (venue.cwd.join p)).isOk)
  | .rename source destination, reply, t' =>
    Changes (t.rename (venue.cwd.join source) (venue.cwd.join destination)) t reply t'
  | .cancelled, reply, t' => reply = tripped ∧ t' = t
  | .freshName, reply, t' => named reply ∧ t' = t
  | _, _, t' => t' = t

theorem Answers.mono {venue : Venue} {named named' : String → Prop} {tripped : Bool} {t t' : Tree}
    {q : Ask} {reply : q.Reply} (answers : Answers venue named tripped t q reply t')
    (h : ∀ name, named name → named' name) : Answers venue named' tripped t q reply t' := by
  cases q with
  | freshName => exact ⟨h _ answers.1, answers.2⟩
  | _ => exact answers

/-- How far an edit has come that has the lock of its file. -/
inductive Stage
  | reading
  | checking (c : Change)
  | naming (c : Change)
  | filling (c : Change) (fresh : String)
  | inspecting (c : Change) (fresh : String)
  | arming (c : Change) (fresh : String) (mode : Nat)
  | rechecking (c : Change) (fresh : String)
  | moving (c : Change) (fresh : String)
  | discarding (fresh : String) (cause : ToolError)
  | telling (c : Change)
  | leaving (result : Except ToolError Output)
  | ended (result : Except ToolError Output)

namespace Errand

variable (e : Errand)

def plan : Stage → Steps
  | .reading => e.reading
  | .checking c => e.checking c
  | .naming c => e.naming c
  | .filling c fresh => e.filling c fresh
  | .inspecting c fresh => e.inspecting c fresh
  | .arming c fresh mode => e.arming c fresh mode
  | .rechecking c fresh => e.rechecking c fresh
  | .moving c fresh => e.moving c fresh
  | .discarding fresh cause => e.discarding fresh cause
  | .telling c => e.telling c
  | .leaving result => e.leaving result
  | .ended result => .done result

def question? : Stage → Option Ask
  | .reading => some (.readText e.path)
  | .checking _ => some .cancelled
  | .naming _ => some .freshName
  | .filling c fresh => some (.write (e.temporary fresh) (String.ofList c.after))
  | .inspecting _ _ => some (.mode e.path)
  | .arming _ fresh mode => some (.setMode (e.temporary fresh) mode)
  | .rechecking _ _ => some .cancelled
  | .moving _ fresh => some (.rename (e.temporary fresh) e.path)
  | .discarding fresh _ => some (.remove (e.temporary fresh))
  | .telling c => some (.query (.changed e.path (String.ofList c.after)))
  | .leaving _ => some (.leaveFile e.path)
  | .ended _ => none

variable {e} in
theorem question?_of_plan {stage : Stage} {q : Ask} {next : q.Reply → Steps}
    (h : e.plan stage = .ask q next) : e.question? stage = some q := by
  cases stage with
  | ended => cases h
  | _ => exact congrArg some (Plan.ask.inj h).1

variable {e} in
theorem filling_of_write {stage : Stage} {p : Path} {text : String}
    {next : Except FileError Unit → Steps} (h : e.plan stage = .ask (.write p text) next) :
    ∃ c fresh, stage = .filling c fresh ∧ p = e.temporary fresh := by
  have asks := question?_of_plan h
  cases stage with
  | filling c fresh => exact ⟨c, fresh, rfl, (Ask.write.inj (Option.some.inj asks)).1.symm⟩
  | _ => simp [question?] at asks

variable {e} in
theorem telling_of_query {stage : Stage} {q : Query} {next : Except QueryFailure q.Reply → Steps}
    (h : e.plan stage = .ask (.query q) next) : ∃ c, stage = .telling c := by
  have asks := question?_of_plan h
  cases stage with
  | telling c => exact ⟨c, rfl⟩
  | _ => simp [question?] at asks

variable {e} in
theorem eq_ended_of_plan {stage : Stage} {result : Except ToolError Output}
    (h : e.plan stage = .done result) : stage = .ended result := by
  cases stage with
  | ended => rw [Plan.done.inj h]
  | _ => cases h

def spare (fresh : String) : Place := temporaryPlace e.place fresh

/-- The file holds a text that the requests can be carried out on. -/
structure Ready (c : Change) (mode : Nat) (t : Tree) : Prop where
  plain : t.Plain e.place
  here : t.node? e.place = some (.file (utf8Bytes c.before) mode)
  updated : updated c.before.toList e.requests = .ok c.after

/-- A name that a temporary file of its own can be given. -/
structure Usable (fresh : String) : Prop where
  noSlash : '/' ∉ fresh.toList
  apart : e.spare fresh ≠ e.place

/-- At the place of the temporary file stands nothing, or a file that can be removed again. -/
structure Vacant (fresh : String) (t : Tree) : Prop extends e.Usable fresh where
  removable : ∀ node, t.node? (e.spare fresh) = some node →
    (e.spare fresh).Legal ∧ ∃ content mode, node = .file content mode

/-- The temporary file holds the new text. -/
structure Filled (c : Change) (fresh : String) (mode : Nat) (t : Tree) : Prop
    extends e.Usable fresh where
  legal : (e.spare fresh).Legal
  there : t.node? (e.spare fresh) = some (.file (utf8 c.after) mode)

/-- What the files hold at a stage. -/
def Fits : Stage → Tree → Prop
  | .reading, t => t.Plain e.place
  | .checking c, t => ∃ mode, e.Ready c mode t
  | .naming c, t => ∃ mode, e.Ready c mode t
  | .filling c fresh, t => (∃ mode, e.Ready c mode t) ∧ e.Vacant fresh t
  | .inspecting c fresh, t => (∃ mode, e.Ready c mode t) ∧ ∃ mode, e.Filled c fresh mode t
  | .arming c fresh mode, t => e.Ready c mode t ∧ ∃ other, e.Filled c fresh other t
  | .rechecking c fresh, t => ∃ mode, e.Ready c mode t ∧ e.Filled c fresh mode t
  | .moving c fresh, t => ∃ mode, e.Ready c mode t ∧ e.Filled c fresh mode t
  | .discarding fresh _, t => t.Plain e.place ∧ e.place ≠ [] ∧ e.Vacant fresh t
  | .telling _, _ => True
  | .leaving _, _ => True
  | .ended _, _ => True

/-- Only the temporary file is touched. -/
def Aside (fresh : String) (t t' : Tree) : Prop :=
  ∀ other, other ≠ e.spare fresh → t'.node? other = t.node? other

/-- The files `t'` are the files `t` but for one file, which holds the new text instead. -/
def Moves (c : Change) (mode : Nat) (fresh : String) (t t' : Tree) : Prop :=
  ∀ other, t'.node? other =
    if other = e.place then some (.file (utf8 c.after) mode)
    else if other = e.spare fresh then none
    else t.node? other

end Errand

/-- The name of the temporary file that is in use at a stage. -/
def Stage.fresh? : Stage → Option String
  | .filling _ fresh => some fresh
  | .inspecting _ fresh => some fresh
  | .arming _ fresh _ => some fresh
  | .rechecking _ fresh => some fresh
  | .moving _ fresh => some fresh
  | .discarding fresh _ => some fresh
  | _ => none

namespace Errand

variable (e : Errand)

/-- The steps from a stage to the next, and what they do to the files. -/
inductive Goes (tripped : Bool) (removes : Prop) (named : String → Prop) :
    Stage → Tree → Stage → Tree → Prop
  | fail {t : Tree} (cause : ToolError) :
      Goes tripped removes named .reading t (.leaving (.error cause)) t
  | read {t : Tree} (c : Change) : Goes tripped removes named .reading t (.checking c) t
  | stop {t : Tree} (c : Change) (h : tripped = true) :
      Goes tripped removes named (.checking c) t (.leaving (.error .cancelled)) t
  | idle {t : Tree} (c : Change) (h : tripped = false) (same : c.after = c.before.toList) :
      Goes tripped removes named (.checking c) t (.leaving (.ok e.idleReport)) t
  | need {t : Tree} (c : Change) (h : tripped = false) :
      Goes tripped removes named (.checking c) t (.naming c) t
  | name {t : Tree} (c : Change) (fresh : String) (given : named fresh)
      (free : t.node? (e.spare fresh) = none) :
      Goes tripped removes named (.naming c) t (.filling c fresh) t
  | prepare {t t' : Tree} {stage stage' : Stage} (fresh : String)
      (source : stage.fresh? = some fresh) (target : stage'.fresh? = some fresh)
      (unready : ∀ c, stage' ≠ .moving c fresh) (aside : e.Aside fresh t t') :
      Goes tripped removes named stage t stage' t'
  | recheck {t : Tree} (c : Change) (fresh : String) (h : tripped = false) :
      Goes tripped removes named (.rechecking c fresh) t (.moving c fresh) t
  | move {t t' : Tree} (c : Change) (mode : Nat) (fresh : String) (ready : e.Ready c mode t)
      (moves : e.Moves c mode fresh t t') :
      Goes tripped removes named (.moving c fresh) t (.telling c) t'
  | discard {t t' : Tree} (fresh : String) (cause : ToolError) (aside : e.Aside fresh t t')
      (gone : removes → t'.node? (e.spare fresh) = none) :
      Goes tripped removes named (.discarding fresh cause) t (.leaving (.error cause)) t'
  | tell {t : Tree} (c : Change) (told : Except QueryFailure Unit) :
      Goes tripped removes named (.telling c) t (.leaving (.ok (e.report c told))) t
  | leave {t : Tree} (result : Except ToolError Output) :
      Goes tripped removes named (.leaving result) t (.ended result) t

theorem temporary_eq {t : Tree} (plain : t.Plain e.place) (hn : e.place ≠ []) (fresh : String) :
    e.temporary fresh = Tree.pathOf (e.spare fresh) :=
  Tree.temporaryPath_pathOf plain.proper hn fresh

end Errand

end CodeIntel.EditFile
