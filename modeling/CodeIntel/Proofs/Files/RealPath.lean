import CodeIntel.Proofs.Basic
import CodeIntel.Proofs.Files.Walk

namespace CodeIntel.Tree

section RealPath

/-- Steps whose names can stand in a place. -/
def ProperSteps (steps : List Component) : Prop := ∀ name, .name name ∈ steps → ProperName name

theorem properSteps_stepsOf (p : Path) : ProperSteps (stepsOf p) :=
  fun _ h => properName_of_mem_stepsOf h

theorem ProperSteps.append {steps more : List Component} (first : ProperSteps steps)
    (second : ProperSteps more) : ProperSteps (steps ++ more) := by
  intro name h
  exact (List.mem_append.mp h).elim (first name) (second name)

theorem plain_root (t : Tree) : t.Plain [] :=
  ⟨by simp [Place.Proper], t.above_root, by simp [node?_root]⟩

theorem Plain.parent {t : Tree} {place : Place} (plain : t.Plain place) :
    t.Plain place.dropLast := by
  refine ⟨plain.proper.dropLast, plain.above.dropLast, ?_⟩
  intro target link
  obtain ⟨mode, directory⟩ := isDirectory_iff.mp plain.above.isDirectory_dropLast
  rw [directory] at link
  simp at link

theorem Plain.name {t : Tree} {place : Place} {name : List UInt8} (plain : t.Plain place)
    (proper : ProperName name) (directory : t.isDirectory place = true)
    (notLink : ∀ target, t.node? (place ++ [name]) ≠ some (.link target)) :
    t.Plain (place ++ [name]) :=
  ⟨plain.proper.concat proper, plain.above.concat directory name, notLink⟩

theorem plain_of_walkSteps {t : Tree} {found : Place}
    {follow : Place → List Component → Except FileError Target}
    (behind : ∀ place steps, t.Plain place → ProperSteps steps →
      follow place steps = .ok (.found found) → t.Plain found)
    {steps : List Component} {place : Place} (plain : t.Plain place) (proper : ProperSteps steps)
    (h : walkSteps t true follow place steps = .ok (.found found)) : t.Plain found := by
  induction steps generalizing place with
  | nil =>
    cases h
    exact plain
  | cons step rest ih =>
    have later : ProperSteps rest := fun name mem => proper name (.tail step mem)
    cases step with
    | root => exact ih t.plain_root later h
    | current => exact ih plain later (walkSteps_current_iff.mp h).2
    | parent => exact ih plain.parent later (walkSteps_parent_iff.mp h).2
    | name bytes =>
      obtain ⟨inside, _, node, here, onward⟩ := walkSteps_name_iff.mp h
      by_cases link : ∃ target, node = .link target
      · obtain ⟨target, rfl⟩ := link
        have goes : follow (if target.isAbsolute then [] else place) (stepsOf target ++ rest) =
            .ok (.found found) := by
          rwa [Onward, if_neg (by simp)] at onward
        refine behind _ _ ?_ ((properSteps_stepsOf target).append later) goes
        split
        · exact t.plain_root
        · exact plain
      · have goes : walkSteps t true follow (place ++ [bytes]) rest = .ok (.found found) := by
          cases node with
          | link target => exact absurd ⟨target, rfl⟩ link
          | _ => exact onward
        refine ih (plain.name (proper bytes List.mem_cons_self) inside ?_) later goes
        rintro target there
        exact link ⟨target, Option.some.inj (here.symm.trans there)⟩

theorem plain_of_walk {t : Tree} {found : Place} {links : Nat} {place : Place}
    {steps : List Component} (plain : t.Plain place) (proper : ProperSteps steps)
    (h : t.walk true links place steps = .ok (.found found)) : t.Plain found := by
  induction links generalizing place steps with
  | zero => simp [walk] at h
  | succ links ih => exact plain_of_walkSteps (fun _ _ => ih) plain proper h

theorem plain_of_longTarget {t : Tree} {p : Path} {found : Place}
    (h : t.longTarget p true = .ok (.found found)) : t.Plain found := by
  unfold longTarget at h
  split at h
  · simp at h
  split at h
  · simp at h
  · exact plain_of_walk t.plain_root (properSteps_stepsOf p) h

/-- A real path is that of the place which the path leads to. -/
theorem realPath_eq_ok_iff {t : Tree} {p path : Path} :
    t.realPath p = .ok path ↔ ∃ place node, path = pathOf place ∧
      t.longTarget p true = .ok (.found place) ∧ t.node? place = some node := by
  constructor
  · intro h
    obtain ⟨target, led, goes⟩ := bind_eq_ok_iff.mp h
    obtain ⟨⟨place, node⟩, stands, ends⟩ := bind_eq_ok_iff.mp goes
    obtain ⟨rfl, here⟩ := nodeAt_eq_ok_iff.mp stands
    exact ⟨place, node, (Except.ok.inj ends).symm, led, here⟩
  · rintro ⟨place, node, rfl, led, here⟩
    have stands : t.nodeAt (.found place) = .ok (place, node) := nodeAt_eq_ok_iff.mpr ⟨rfl, here⟩
    exact bind_eq_ok_iff.mpr ⟨_, led, bind_eq_ok_iff.mpr ⟨_, stands, rfl⟩⟩

theorem pathOf_inj {place other : Place} (first : place.Proper) (second : other.Proper)
    (h : pathOf place = pathOf other) : place = other := by
  have steps := congrArg Path.components h
  rw [components_pathOf first, components_pathOf second, List.cons.injEq] at steps
  exact List.map_injective_iff.mpr (fun _ _ => Component.name.inj) steps.2

/-- Directories and links stay where they are. -/
def Keeps (t t' : Tree) : Prop :=
  ∀ place node, t.node? place = some node → (∀ content mode, node ≠ .file content mode) →
    t'.node? place = some node

variable {t t' : Tree} {place found : Place} {last : Bool} {steps : List Component}
  {follow follow' : Place → List Component → Except FileError Target}

theorem Keeps.isDirectory (keeps : t.Keeps t') (h : t.isDirectory place = true) :
    t'.isDirectory place = true := by
  obtain ⟨mode, here⟩ := isDirectory_iff.mp h
  exact isDirectory_iff.mpr ⟨mode, keeps place _ here (by simp)⟩

/-- Behind a file the way is at its end. -/
theorem walkSteps_of_file {target : Target} (outside : t.isDirectory place = false)
    (rootless : .root ∉ steps) (h : walkSteps t last follow place steps = .ok target) :
    steps = [] ∧ target = .found place := by
  cases steps with
  | nil => exact ⟨rfl, (Except.ok.inj h).symm⟩
  | cons step rest =>
    cases step with
    | root => exact absurd List.mem_cons_self rootless
    | current => simp [walkSteps, outside] at h
    | parent => simp [walkSteps, outside] at h
    | name bytes => simp [walkSteps, outside] at h

theorem walkSteps_of_keeps (keeps : t.Keeps t')
    (stays : ∃ content mode, t'.node? found = some (.file content mode))
    (behind : ∀ place steps, .root ∉ steps → follow place steps = .ok (.found found) →
      follow' place steps = .ok (.found found)) (rootless : .root ∉ steps)
    (h : walkSteps t last follow place steps = .ok (.found found)) :
    walkSteps t' last follow' place steps = .ok (.found found) := by
  induction steps generalizing place with
  | nil => exact h
  | cons step rest ih =>
    have later : .root ∉ rest := fun mem => rootless (.tail step mem)
    cases step with
    | root => exact absurd List.mem_cons_self rootless
    | current =>
      obtain ⟨inside, goes⟩ := walkSteps_current_iff.mp h
      exact walkSteps_current_iff.mpr ⟨keeps.isDirectory inside, ih later goes⟩
    | parent =>
      obtain ⟨inside, goes⟩ := walkSteps_parent_iff.mp h
      exact walkSteps_parent_iff.mpr ⟨keeps.isDirectory inside, ih later goes⟩
    | name bytes =>
      obtain ⟨inside, short, node, here, onward⟩ := walkSteps_name_iff.mp h
      apply walkSteps_name_iff.mpr
      refine ⟨keeps.isDirectory inside, short, ?_⟩
      cases node with
      | link target =>
        refine ⟨_, keeps _ _ here (by simp), ?_⟩
        by_cases stops : rest = [] ∧ ¬ last
        · rw [Onward, if_pos stops] at onward ⊢
          exact onward
        · rw [Onward, if_neg stops] at onward ⊢
          refine behind _ _ (fun mem => ?_) onward
          exact (List.mem_append.mp mem).elim (root_not_mem_stepsOf target) later
      | directory mode => exact ⟨_, keeps _ _ here (by simp), ih later onward⟩
      | file content mode =>
        -- the walk ends here, and still finds a file
        obtain ⟨rfl, eq⟩ := walkSteps_of_file (by simp [isDirectory, here]) later onward
        cases eq
        obtain ⟨content', mode', here'⟩ := stays
        exact ⟨_, here', rfl⟩

theorem walk_of_keeps {links : Nat} (keeps : t.Keeps t')
    (stays : ∃ content mode, t'.node? found = some (.file content mode)) (rootless : .root ∉ steps)
    (h : t.walk last links place steps = .ok (.found found)) :
    t'.walk last links place steps = .ok (.found found) := by
  induction links generalizing place steps with
  | zero => cases h
  | succ links ih => exact walkSteps_of_keeps keeps stays (fun _ _ => ih) rootless h

/-- A path leads to a file as long as there is one, and no directory or link is touched. -/
theorem realPath_of_keeps {p : Path} (keeps : t.Keeps t') (proper : place.Proper)
    (stays : ∃ content mode, t'.node? place = some (.file content mode))
    (h : t.realPath p = .ok (pathOf place)) : t'.realPath p = .ok (pathOf place) := by
  obtain ⟨found, _, same, led, _⟩ := realPath_eq_ok_iff.mp h
  cases pathOf_inj proper (plain_of_longTarget led).proper same
  have led' : t'.longTarget p true = .ok (.found place) := by
    unfold longTarget at led ⊢
    split at led
    next => cases led
    next nonempty =>
      rw [if_neg nonempty]
      split at led
      next => cases led
      next noNul =>
        rw [if_neg noNul]
        exact walk_of_keeps keeps stays (root_not_mem_stepsOf p) led
  obtain ⟨content, mode, here⟩ := stays
  exact realPath_eq_ok_iff.mpr ⟨place, _, rfl, led', here⟩

end RealPath

variable {t t' : Tree} {place : Place} {content : List UInt8} {mode : Nat}

theorem ne_root_of_file (h : t.node? place = some (.file content mode)) : place ≠ [] := by
  rintro rfl
  simp [node?_root] at h

theorem read_eq_ok (plain : t.Plain place) (h : t.read (pathOf place) = .ok content) :
    place.Legal ∧ ∃ mode, t.node? place = some (.file content mode) := by
  obtain ⟨⟨other, node⟩, found, h⟩ := bind_eq_ok_iff.mp h
  obtain ⟨legal, -, here⟩ := (find_pathOf_eq_ok_iff plain).mp found
  cases node with
  | file bytes mode =>
    cases h
    exact ⟨legal, mode, here⟩
  | directory => simp at h
  | link => simp at h

theorem readText_eq_ok {text : String} (plain : t.Plain place)
    (h : t.readText (pathOf place) = .ok text) :
    place.Legal ∧ ∃ content mode,
      t.node? place = some (.file content mode) ∧ ofUtf8? content = some text := by
  obtain ⟨content, found, h⟩ := bind_eq_ok_iff.mp h
  obtain ⟨legal, mode, here⟩ := read_eq_ok plain found
  split at h
  next read =>
    cases h
    exact ⟨legal, content, mode, here, read⟩
  next => simp at h

theorem mode_eq_ok {found : Nat} (plain : t.Plain place)
    (here : t.node? place = some (.file content mode)) (h : t.mode (pathOf place) = .ok found) :
    found = mode := by
  obtain ⟨⟨other, node⟩, found, h⟩ := bind_eq_ok_iff.mp h
  obtain ⟨-, -, node⟩ := (find_pathOf_eq_ok_iff plain).mp found
  rw [here] at node
  cases node
  cases h
  rfl

theorem setMode_eq_ok {other : Nat} (plain : t.Plain place)
    (here : t.node? place = some (.file content mode))
    (h : t.setMode (pathOf place) other = .ok t') : t' = t.put place (.file content other) := by
  obtain ⟨⟨spot, node⟩, found, h⟩ := bind_eq_ok_iff.mp h
  obtain ⟨-, rfl, node⟩ := (find_pathOf_eq_ok_iff plain).mp found
  rw [here] at node
  cases node
  cases h
  rfl

theorem write_eq_ok (plain : t.Plain place) (h : t.write (pathOf place) content = .ok t') :
    place.Legal ∧ ∃ mode, t' = t.put place (.file content mode) := by
  obtain ⟨target, found, h⟩ := bind_eq_ok_iff.mp h
  have found : t.target (pathOf place) true = .ok target := by
    unfold fileTarget at found
    split at found
    · obtain ⟨⟨_, node⟩, _, found⟩ := bind_eq_ok_iff.mp found
      cases node <;> simp at found
    · exact found
  obtain ⟨legal, rfl⟩ := (target_pathOf_eq_ok_iff plain).mp found
  refine ⟨legal, ?_⟩
  unfold spot at h
  cases here : t.node? place with
  | none =>
    simp only [here, Option.isSome_none, Bool.false_eq_true, if_false] at h
    cases h
    exact ⟨defaultMode, rfl⟩
  | some node =>
    simp only [here, Option.isSome_some, if_true] at h
    cases node with
    | file old mode =>
      cases h
      exact ⟨mode, rfl⟩
    | directory => simp at h
    | link => simp at h

theorem remove_eq_ok (plain : t.Plain place) (h : t.remove (pathOf place) = .ok t') :
    t' = t.delete place := by
  obtain ⟨⟨spot, node⟩, found, h⟩ := bind_eq_ok_iff.mp h
  obtain ⟨-, rfl, -⟩ := (find_pathOf_eq_ok_iff plain).mp found
  cases node with
  | directory => simp at h
  | file =>
    cases h
    rfl
  | link =>
    cases h
    rfl

theorem remove_file (plain : t.Plain place) (legal : place.Legal)
    (here : t.node? place = some (.file content mode)) :
    t.remove (pathOf place) = .ok (t.delete place) := by
  have found : t.find (pathOf place) false = .ok (place, .file content mode) :=
    (find_pathOf_eq_ok_iff plain).mpr ⟨legal, rfl, here⟩
  exact bind_eq_ok_iff.mpr ⟨_, found, rfl⟩

theorem rename_eq_ok {source : Place} {node : Node} (from_ : t.Plain source) (to_ : t.Plain place)
    (there : t.node? source = some node)
    (h : t.rename (pathOf source) (pathOf place) = .ok t') :
    t' = (t.delete source).put place node := by
  obtain ⟨⟨spot, moved⟩, found, h⟩ := bind_eq_ok_iff.mp h
  obtain ⟨-, rfl, same⟩ := (find_pathOf_eq_ok_iff from_).mp found
  rw [there] at same
  cases same
  obtain ⟨target, found, h⟩ := bind_eq_ok_iff.mp h
  obtain ⟨-, rfl⟩ := (target_pathOf_eq_ok_iff to_).mp found
  unfold Tree.spot at h
  split at h
  next eq =>
    split at eq
    · simp at eq
    · cases eq
      cases h
      rfl
  next eq =>
    split at eq
    · cases eq
      split at h
      · simp at h
      · cases h
        rfl
    · simp at eq

end CodeIntel.Tree
