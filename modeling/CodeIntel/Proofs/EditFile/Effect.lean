import CodeIntel.Proofs.EditFile.Progress
import CodeIntel.Proofs.EditFile.Stages
import CodeIntel.Proofs.Files.RealPath

namespace CodeIntel

theorem Tree.Plain.congr {t t' : Tree} {place : Place} (plain : t.Plain place)
    (same : ∀ n, t'.node? (place.take n) = t.node? (place.take n)) : t'.Plain place := by
  refine ⟨plain.proper, plain.above.congr fun n _ => same n, ?_⟩
  have here := same place.length
  rw [List.take_length] at here
  rw [here]
  exact plain.notLink

namespace EditFile

variable {e : Errand} {c : Change} {fresh : String} {mode : Nat} {t t' : Tree}

namespace Errand

theorem Ready.place_ne_root (ready : e.Ready c mode t) : e.place ≠ [] :=
  Tree.ne_root_of_file ready.here

theorem Ready.congr (ready : e.Ready c mode t)
    (same : ∀ n, t'.node? (e.place.take n) = t.node? (e.place.take n)) : e.Ready c mode t' := by
  refine ⟨ready.plain.congr same, ?_, ready.updated⟩
  have here := same e.place.length
  rw [List.take_length] at here
  rw [here]
  exact ready.here

theorem Usable.take_ne (usable : e.Usable fresh) (hn : e.place ≠ []) (n : Nat) :
    e.place.take n ≠ e.spare fresh := by
  intro eq
  have length := congrArg List.length eq
  rw [spare, length_temporaryPlace hn, List.length_take] at length
  rw [List.take_of_length_le (by omega)] at eq
  exact usable.apart eq.symm

theorem Aside.take (aside : e.Aside fresh t t') (usable : e.Usable fresh) (hn : e.place ≠ [])
    (n : Nat) : t'.node? (e.place.take n) = t.node? (e.place.take n) :=
  aside _ (usable.take_ne hn n)

theorem spare_ne_root : e.spare fresh ≠ [] := temporaryPlace_ne_root _ _

theorem Aside.refl : e.Aside fresh t t := fun _ _ => rfl

theorem aside_put (node : Node) : e.Aside fresh t (t.put (e.spare fresh) node) := by
  intro other ne
  rw [Tree.node?_put t node other spare_ne_root, if_neg ne]

theorem aside_delete : e.Aside fresh t (t.delete (e.spare fresh)) := by
  intro other ne
  rw [Tree.node?_delete t other spare_ne_root, if_neg ne]

theorem Filled.vacant (filled : e.Filled c fresh mode t) : e.Vacant fresh t := by
  refine ⟨filled.toUsable, fun node there => ?_⟩
  rw [filled.there] at there
  cases there
  exact ⟨filled.legal, _, _, rfl⟩

theorem Vacant.congr (vacant : e.Vacant fresh t)
    (same : t'.node? (e.spare fresh) = t.node? (e.spare fresh)) : e.Vacant fresh t' :=
  ⟨vacant.toUsable, same ▸ vacant.removable⟩

theorem Filled.congr (filled : e.Filled c fresh mode t)
    (same : t'.node? (e.spare fresh) = t.node? (e.spare fresh)) : e.Filled c fresh mode t' :=
  ⟨filled.toUsable, filled.legal, same ▸ filled.there⟩

/-- What a stage is based on stays if nothing changes on the way to the file, in the file, and in
the temporary file. -/
theorem Fits.congr {stage : Stage} (fits : e.Fits stage t)
    (same : ∀ n, t'.node? (e.place.take n) = t.node? (e.place.take n))
    (spare : ∀ fresh, stage.fresh? = some fresh → t'.node? (e.spare fresh) = t.node? (e.spare fresh)) :
    e.Fits stage t' := by
  cases stage with
  | reading => exact Tree.Plain.congr fits same
  | checking c =>
    obtain ⟨mode, ready⟩ := fits
    exact ⟨mode, ready.congr same⟩
  | naming c =>
    obtain ⟨mode, ready⟩ := fits
    exact ⟨mode, ready.congr same⟩
  | filling c fresh =>
    obtain ⟨⟨mode, ready⟩, vacant⟩ := fits
    exact ⟨⟨mode, ready.congr same⟩, vacant.congr (spare fresh rfl)⟩
  | inspecting c fresh =>
    obtain ⟨⟨mode, ready⟩, other, filled⟩ := fits
    exact ⟨⟨mode, ready.congr same⟩, other, filled.congr (spare fresh rfl)⟩
  | arming c fresh mode =>
    obtain ⟨ready, other, filled⟩ := fits
    exact ⟨ready.congr same, other, filled.congr (spare fresh rfl)⟩
  | rechecking c fresh =>
    obtain ⟨mode, ready, filled⟩ := fits
    exact ⟨mode, ready.congr same, filled.congr (spare fresh rfl)⟩
  | moving c fresh =>
    obtain ⟨mode, ready, filled⟩ := fits
    exact ⟨mode, ready.congr same, filled.congr (spare fresh rfl)⟩
  | discarding fresh cause =>
    obtain ⟨plain, hn, vacant⟩ := fits
    exact ⟨plain.congr same, hn, vacant.congr (spare fresh rfl)⟩
  | telling c => trivial
  | leaving result => trivial
  | ended result => trivial

theorem Vacant.plain (vacant : e.Vacant fresh t) (plain : t.Plain e.place) (hn : e.place ≠ []) :
    t.Plain (e.spare fresh) := by
  refine ⟨proper_temporaryPlace plain.proper hn vacant.noSlash, plain.above.sibling _, ?_⟩
  intro target link
  obtain ⟨-, content, mode, file⟩ := vacant.removable _ link
  simp at file

/-- What is left to do after a step belongs to a stage that the step leads to. -/
def Leads (e : Errand) (tripped : Bool) (removes : Prop) (named : String → Prop) (stage : Stage)
    (t : Tree) (rest : Steps) (t' : Tree) : Prop :=
  ∃ stage', rest = e.plan stage' ∧ e.Fits stage' t' ∧ e.Goes tripped removes named stage t stage' t'

variable {venue : Venue} {tripped : Bool} {removes : Prop} {named : String → Prop}

theorem join_path (cwd : Path) : cwd.join e.path = e.path := Tree.join_pathOf cwd e.place

theorem join_temporary (cwd : Path) (plain : t.Plain e.place) (hn : e.place ≠ []) :
    cwd.join (e.temporary fresh) = Tree.pathOf (e.spare fresh) := by
  rw [e.temporary_eq plain hn, Tree.join_pathOf]

theorem leads_reading {reply : Except FileError String} (plain : t.Plain e.place)
    (truth : Truthful (t.readText (venue.cwd.join e.path)) reply) :
    e.Leads tripped removes named .reading t (e.hasRead reply) t := by
  cases reply with
  | error cause => exact ⟨.leaving (.error _), rfl, trivial, .fail _⟩
  | ok before =>
    simp only [hasRead]
    split
    next cause _ => exact ⟨.leaving (.error cause), rfl, trivial, .fail cause⟩
    next after eq =>
      have read := truth before rfl
      rw [join_path] at read
      obtain ⟨legal, content, mode, here, text⟩ := Tree.readText_eq_ok plain read
      rw [← utf8Bytes_of_ofUtf8? text] at here
      exact ⟨.checking ⟨before, after⟩, rfl, ⟨mode, plain, here, eq⟩, .read _⟩

theorem leads_checking (fits : e.Fits (.checking c) t) :
    e.Leads tripped removes named (.checking c) t (e.checked c tripped) t := by
  cases tripped with
  | true => exact ⟨.leaving (.error .cancelled), rfl, trivial, .stop c rfl⟩
  | false =>
    unfold checked
    rw [if_neg Bool.false_ne_true]
    split
    next same => exact ⟨.leaving (.ok e.idleReport), rfl, trivial, .idle c rfl same⟩
    next => exact ⟨.naming c, rfl, fits, .need c rfl⟩

theorem leads_naming (fits : e.Fits (.naming c) t) (given : named fresh)
    (noSlash : '/' ∉ fresh.toList) (free : t.node? (e.spare fresh) = none) :
    e.Leads tripped removes named (.naming c) t (e.filling c fresh) t := by
  obtain ⟨mode, ready⟩ := fits
  have apart : e.spare fresh ≠ e.place := by
    intro eq
    rw [eq, ready.here] at free
    simp at free
  refine ⟨.filling c fresh, rfl, ⟨⟨mode, ready⟩, ⟨noSlash, apart⟩, ?_⟩, .name c fresh given free⟩
  intro node there
  rw [free] at there
  simp at there

/-- Wherever the preparations fail, the temporary file is taken away again. -/
theorem leads_discarding {stage : Stage} {cause : ToolError} (source : stage.fresh? = some fresh)
    (plain : t.Plain e.place) (hn : e.place ≠ []) (vacant : e.Vacant fresh t) :
    e.Leads tripped removes named stage t (e.discarding fresh cause) t :=
  ⟨.discarding fresh cause, rfl, ⟨plain, hn, vacant⟩,
    .prepare fresh source rfl (fun _ => by simp) .refl⟩

theorem leads_filling {reply : Except FileError Unit} (fits : e.Fits (.filling c fresh) t)
    (changes : Changes (t.write (venue.cwd.join (e.temporary fresh))
      (utf8Bytes (String.ofList c.after))) t reply t') :
    e.Leads tripped removes named (.filling c fresh) t
      (e.unlessFailed fresh (fun _ => e.inspecting c fresh) reply) t' := by
  obtain ⟨⟨mode, ready⟩, vacant⟩ := fits
  have hn := ready.place_ne_root
  cases reply with
  | error cause =>
    cases changes
    exact leads_discarding rfl ready.plain hn vacant
  | ok =>
    have written : t.write (venue.cwd.join (e.temporary fresh)) _ = .ok t' := changes
    rw [join_temporary _ ready.plain hn, utf8Bytes_ofList] at written
    obtain ⟨legal, other, rfl⟩ := Tree.write_eq_ok (vacant.plain ready.plain hn) written
    have aside : e.Aside fresh t (t.put _ (.file (utf8 c.after) other)) := aside_put _
    refine ⟨.inspecting c fresh, rfl, ⟨⟨mode, ready.congr (aside.take vacant.toUsable hn)⟩, other,
      vacant.toUsable, legal, ?_⟩, .prepare fresh rfl rfl (fun _ => by simp) aside⟩
    rw [Tree.node?_put t _ _ spare_ne_root, if_pos rfl]

theorem leads_inspecting {reply : Except FileError Nat} (fits : e.Fits (.inspecting c fresh) t)
    (truth : Truthful (t.mode (venue.cwd.join e.path)) reply) :
    e.Leads tripped removes named (.inspecting c fresh) t (e.unlessFailed fresh (e.arming c fresh) reply)
      t := by
  obtain ⟨⟨mode, ready⟩, other, filled⟩ := fits
  cases reply with
  | error cause => exact leads_discarding rfl ready.plain ready.place_ne_root filled.vacant
  | ok found =>
    have read := truth found rfl
    rw [join_path] at read
    cases Tree.mode_eq_ok ready.plain ready.here read
    exact ⟨.arming c fresh mode, rfl, ⟨ready, other, filled⟩,
      .prepare fresh rfl rfl (fun _ => by simp) .refl⟩

theorem leads_arming {reply : Except FileError Unit} (fits : e.Fits (.arming c fresh mode) t)
    (changes : Changes (t.setMode (venue.cwd.join (e.temporary fresh)) mode) t reply t') :
    e.Leads tripped removes named (.arming c fresh mode) t
      (e.unlessFailed fresh (fun _ => e.rechecking c fresh) reply) t' := by
  obtain ⟨ready, other, filled⟩ := fits
  have hn := ready.place_ne_root
  cases reply with
  | error cause =>
    cases changes
    exact leads_discarding rfl ready.plain hn filled.vacant
  | ok =>
    have armed : t.setMode (venue.cwd.join (e.temporary fresh)) mode = .ok t' := changes
    rw [join_temporary _ ready.plain hn] at armed
    cases Tree.setMode_eq_ok (filled.vacant.plain ready.plain hn) filled.there armed
    have aside : e.Aside fresh t (t.put _ (.file (utf8 c.after) mode)) := aside_put _
    refine ⟨.rechecking c fresh, rfl, ⟨mode, ready.congr (aside.take filled.toUsable hn),
      filled.toUsable, filled.legal, ?_⟩, .prepare fresh rfl rfl (fun _ => by simp) aside⟩
    rw [Tree.node?_put t _ _ spare_ne_root, if_pos rfl]

theorem leads_rechecking (fits : e.Fits (.rechecking c fresh) t) :
    e.Leads tripped removes named (.rechecking c fresh) t (e.rechecked c fresh tripped) t := by
  cases tripped with
  | true =>
    obtain ⟨mode, ready, filled⟩ := fits
    exact leads_discarding rfl ready.plain ready.place_ne_root filled.vacant
  | false => exact ⟨.moving c fresh, rfl, fits, .recheck c fresh rfl⟩

theorem leads_moving {reply : Except FileError Unit} (fits : e.Fits (.moving c fresh) t)
    (changes : Changes (t.rename (venue.cwd.join (e.temporary fresh)) (venue.cwd.join e.path)) t
      reply t') :
    e.Leads tripped removes named (.moving c fresh) t
      (e.unlessFailed fresh (fun _ => e.telling c) reply) t' := by
  obtain ⟨mode, ready, filled⟩ := fits
  have hn := ready.place_ne_root
  cases reply with
  | error cause =>
    cases changes
    exact leads_discarding rfl ready.plain hn filled.vacant
  | ok =>
    have moved : t.rename (venue.cwd.join (e.temporary fresh)) (venue.cwd.join e.path) = .ok t' :=
      changes
    rw [join_temporary _ ready.plain hn, join_path] at moved
    have source := filled.vacant.plain ready.plain hn
    cases Tree.rename_eq_ok source ready.plain filled.there moved
    refine ⟨.telling c, rfl, trivial, .move c mode fresh ready fun other => ?_⟩
    rw [Tree.node?_put _ _ _ hn, Tree.node?_delete _ _ spare_ne_root]

theorem leads_discard {cause : ToolError} {reply : Except FileError Unit}
    (fits : e.Fits (.discarding fresh cause) t)
    (changes : Changes (t.remove (venue.cwd.join (e.temporary fresh))) t reply t')
    (removed : removes → reply.isOk = (t.remove (venue.cwd.join (e.temporary fresh))).isOk) :
    e.Leads tripped removes named (.discarding fresh cause) t (e.leaving (.error cause)) t' := by
  obtain ⟨plain, hn, vacant⟩ := fits
  rw [join_temporary _ plain hn] at changes removed
  have spare := vacant.plain plain hn
  refine ⟨.leaving (.error cause), rfl, trivial, ?_⟩
  cases reply with
  | ok =>
    cases Tree.remove_eq_ok spare changes
    refine .discard fresh cause aside_delete fun _ => ?_
    rw [Tree.node?_delete _ _ spare_ne_root, if_pos rfl]
  | error =>
    cases changes
    refine .discard fresh cause .refl fun all => ?_
    cases there : t.node? (e.spare fresh) with
    | none => rfl
    | some node =>
      obtain ⟨legal, content, mode, rfl⟩ := vacant.removable node there
      have removed := removed all
      rw [Tree.remove_file spare legal there] at removed
      simp [Except.isOk, Except.toBool] at removed

/-- Whatever is replied to the question of a stage, the edit comes to a stage that fits the files. -/
theorem Fits.leads {stage : Stage} {q : Ask} {next : q.Reply → Steps} {reply : q.Reply}
    (fits : e.Fits stage t) (asks : e.plan stage = .ask q next)
    (answer : Answers venue named tripped t q reply t')
    (unused : ∀ name, named name → '/' ∉ name.toList ∧ t.node? (e.spare name) = none) :
    e.Leads tripped venue.removes named stage t (next reply) t' := by
  cases stage with
  | reading =>
    cases asks
    obtain ⟨truth, rfl⟩ := answer
    exact leads_reading fits truth
  | checking c =>
    cases asks
    obtain ⟨rfl, rfl⟩ := answer
    exact leads_checking fits
  | naming c =>
    cases asks
    obtain ⟨given, rfl⟩ := answer
    exact leads_naming fits given (unused reply given).1 (unused reply given).2
  | filling c fresh =>
    cases asks
    exact leads_filling fits answer
  | inspecting c fresh =>
    cases asks
    obtain ⟨truth, rfl⟩ := answer
    exact leads_inspecting fits truth
  | arming c fresh mode =>
    cases asks
    exact leads_arming fits answer
  | rechecking c fresh =>
    cases asks
    obtain ⟨rfl, rfl⟩ := answer
    exact leads_rechecking fits
  | moving c fresh =>
    cases asks
    exact leads_moving fits answer
  | discarding fresh cause =>
    cases asks
    exact leads_discard fits answer.1 answer.2
  | telling c =>
    cases asks
    cases answer
    exact ⟨.leaving (.ok (e.report c reply)), rfl, trivial, .tell c reply⟩
  | leaving result =>
    cases asks
    cases answer
    exact ⟨.ended result, rfl, trivial, .leave result⟩
  | ended result => cases asks

/-- While the temporary file is being filled, it holds a part of the new text. -/
theorem Fits.part {cwd : Path} {part : List UInt8} (fits : e.Fits (.filling c fresh) t)
    (written : t.write (cwd.join (e.temporary fresh)) part = .ok t') :
    e.Fits (.filling c fresh) t' ∧ e.Aside fresh t t' := by
  obtain ⟨⟨mode, ready⟩, vacant⟩ := fits
  have hn := ready.place_ne_root
  rw [join_temporary _ ready.plain hn] at written
  obtain ⟨legal, other, rfl⟩ := Tree.write_eq_ok (vacant.plain ready.plain hn) written
  have aside : e.Aside fresh t (t.put _ (.file part other)) := aside_put _
  refine ⟨⟨⟨mode, ready.congr (aside.take vacant.toUsable hn)⟩, vacant.toUsable, ?_⟩, aside⟩
  intro node there
  rw [Tree.node?_put t _ _ spare_ne_root, if_pos rfl] at there
  cases there
  exact ⟨legal, part, other, rfl⟩

end Errand

end EditFile

end CodeIntel

namespace CodeIntel.EditFile

/-- The stages of an edit whose result stands in the file. -/
def Stage.Committed : Stage → Prop
  | .telling _ => True
  | .leaving result => ∃ output, result = .ok output
  | .ended result => ∃ output, result = .ok output
  | _ => False

namespace Errand

variable {e : Errand} {tripped : Bool} {removes : Prop} {named : String → Prop}
  {stage stage' : Stage} {t t' : Tree} {c : Change} {fresh : String} {mode : Nat}

theorem Ready.edited (ready : e.Ready c mode t) :
    editedBy e.requests (utf8Bytes c.before) = some (utf8 c.after) := by
  simp [editedBy, ofUtf8?_utf8Bytes, ready.updated, Except.toOption]

theorem not_committed_of_fresh (h : stage.fresh? = some fresh) : ¬ stage.Committed := by
  cases stage <;> first | exact id | cases h

theorem Fits.vacant (fits : e.Fits stage t) (h : stage.fresh? = some fresh) :
    e.place ≠ [] ∧ e.Vacant fresh t := by
  cases stage with
  | filling c other =>
    cases h
    exact ⟨fits.1.choose_spec.place_ne_root, fits.2⟩
  | inspecting c other =>
    cases h
    obtain ⟨⟨mode, ready⟩, _, filled⟩ := fits
    exact ⟨ready.place_ne_root, filled.vacant⟩
  | arming c other mode =>
    cases h
    obtain ⟨ready, _, filled⟩ := fits
    exact ⟨ready.place_ne_root, filled.vacant⟩
  | rechecking c other =>
    cases h
    obtain ⟨mode, ready, filled⟩ := fits
    exact ⟨ready.place_ne_root, filled.vacant⟩
  | moving c other =>
    cases h
    obtain ⟨mode, ready, filled⟩ := fits
    exact ⟨ready.place_ne_root, filled.vacant⟩
  | discarding other cause =>
    cases h
    exact fits.2
  | _ => cases h

/-- What a step changes in the file to edit: nothing, or all that there is to change. -/
inductive Alters (e : Errand) (stage stage' : Stage) (t t' : Tree) : Prop
  | same (here : t'.node? e.place = t.node? e.place) (h : stage'.Committed ↔ stage.Committed)
  | commit (c : Change) (mode : Nat) (ready : e.Ready c mode t)
      (here : t'.node? e.place = some (.file (utf8 c.after) mode)) (before : ¬ stage.Committed)
      (after : stage'.Committed)

theorem Goes.alters (goes : e.Goes tripped removes named stage t stage' t')
    (fits : e.Fits stage t) : e.Alters stage stage' t t' := by
  cases goes with
  | fail cause => exact .same rfl ⟨nofun, False.elim⟩
  | read c => exact .same rfl .rfl
  | stop c _ => exact .same rfl ⟨nofun, False.elim⟩
  | idle c _ same =>
    obtain ⟨mode, ready⟩ := fits
    refine .commit c mode ready ?_ id ⟨_, rfl⟩
    rw [ready.here, same, utf8Bytes_eq]
  | need c _ => exact .same rfl .rfl
  | name c fresh _ _ => exact .same rfl .rfl
  | prepare fresh source target _ aside =>
    have before := not_committed_of_fresh source
    have after := not_committed_of_fresh target
    exact .same (aside _ (fits.vacant source).2.apart.symm) (iff_of_false after before)
  | recheck c fresh _ => exact .same rfl .rfl
  | move c mode fresh ready moves =>
    refine .commit c mode ready ?_ id trivial
    rw [moves, if_pos rfl]
  | discard fresh cause aside _ =>
    exact .same (aside _ fits.2.2.apart.symm) ⟨nofun, False.elim⟩
  | tell c told => exact .same rfl ⟨fun _ => trivial, fun _ => ⟨_, rfl⟩⟩
  | leave result => exact .same rfl .rfl

/-- Apart from the file to edit and the temporary one, nothing changes. -/
def Confined (e : Errand) (stage : Stage) (t t' : Tree) : Prop :=
  ∀ other, other ≠ e.place → (∀ fresh, stage.fresh? = some fresh → other ≠ e.spare fresh) →
    t'.node? other = t.node? other

theorem Goes.confined (goes : e.Goes tripped removes named stage t stage' t') :
    e.Confined stage t t' := by
  intro other ne spare
  cases goes with
  | prepare fresh source _ _ aside => exact aside _ (spare fresh source)
  | move c mode fresh _ moves => rw [moves, if_neg ne, if_neg (spare fresh rfl)]
  | discard fresh _ aside _ => exact aside _ (spare fresh rfl)
  | _ => rfl

theorem Confined.way (confined : e.Confined stage t t') (fits : e.Fits stage t) :
    ∀ n < e.place.length, t'.node? (e.place.take n) = t.node? (e.place.take n) := by
  intro n hn
  apply confined
  · intro eq
    have := congrArg List.length eq
    rw [List.length_take] at this
    omega
  · intro fresh h
    obtain ⟨hn, vacant⟩ := fits.vacant h
    exact vacant.toUsable.take_ne hn n

/-- Of all that a step may touch there are files only. -/
theorem Confined.keeps {content : List UInt8} (confined : e.Confined stage t t')
    (fits : e.Fits stage t) (here : t.node? e.place = some (.file content mode)) : t.Keeps t' := by
  intro other node there notFile
  rw [confined, there]
  · rintro rfl
    rw [here] at there
    cases there
    exact notFile _ _ rfl
  · rintro fresh h rfl
    obtain ⟨_, content, mode, eq⟩ := (fits.vacant h).2.removable node there
    exact notFile content mode eq

/-- A temporary file is given its name once. -/
theorem Goes.named_or_old (goes : e.Goes tripped removes named stage t stage' t')
    (h : stage'.fresh? = some fresh) : stage.fresh? = some fresh ∨ named fresh := by
  cases goes with
  | name c other given _ =>
    cases h
    exact .inr given
  | prepare other source target _ _ =>
    rw [target] at h
    cases h
    exact .inl source
  | recheck c other _ =>
    cases h
    exact .inl rfl
  | _ => cases h

theorem Goes.eq_ended {result : Except ToolError Output}
    (goes : e.Goes tripped removes named (.leaving result) t stage' t') :
    stage' = .ended result := by
  cases goes with
  | leave => rfl
  | prepare _ h => cases h

end Errand

end CodeIntel.EditFile
