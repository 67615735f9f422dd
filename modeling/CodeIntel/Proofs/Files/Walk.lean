import CodeIntel.Files.Tree
import CodeIntel.Proofs.Basic
import CodeIntel.Proofs.Files.Place

namespace CodeIntel.Tree

theorem node?_put (t : Tree) (node : Node) (other : Place) {place : Place} (hn : place ≠ []) :
    (t.put place node).node? other = if other = place then some node else t.node? other := by
  unfold node? put
  by_cases root : other = []
  · rw [if_pos root, if_pos root, if_neg fun eq => hn (eq.symm.trans root)]
  · rw [if_neg root, if_neg root, find?_cons_filter_ne]
    split <;> rfl

theorem node?_delete (t : Tree) (other : Place) {place : Place} (hn : place ≠ []) :
    (t.delete place).node? other = if other = place then none else t.node? other := by
  unfold node? delete
  by_cases root : other = []
  · rw [if_pos root, if_pos root, if_neg fun eq => hn (eq.symm.trans root)]
  · rw [if_neg root, if_neg root, find?_filter_ne]
    split <;> rfl

theorem node?_root (t : Tree) : t.node? [] = some (.directory directoryMode) := rfl

theorem isDirectory_iff {t : Tree} {place : Place} :
    t.isDirectory place = true ↔ ∃ mode, t.node? place = some (.directory mode) := by
  unfold isDirectory
  split
  next mode eq => simpa using ⟨mode, eq⟩
  next other => simpa using fun mode eq => other mode eq

theorem isDirectory_congr {t t' : Tree} {place : Place} (h : t'.node? place = t.node? place) :
    t'.isDirectory place = t.isDirectory place := by
  unfold isDirectory
  rw [h]

/-- All places on the way to a place are directories. -/
def Above (t : Tree) (place : Place) : Prop :=
  ∀ n < place.length, t.isDirectory (place.take n) = true

instance (t : Tree) (place : Place) : Decidable (t.Above place) :=
  inferInstanceAs (Decidable (∀ n < place.length, t.isDirectory (place.take n) = true))

theorem above_root (t : Tree) : t.Above [] := by
  intro n hn
  simp at hn

theorem Above.dropLast {t : Tree} {place : Place} (above : t.Above place) :
    t.Above place.dropLast := by
  intro n hn
  rw [List.length_dropLast] at hn
  rw [List.dropLast_eq_take, List.take_take, Nat.min_eq_left (by omega)]
  exact above n (by omega)

theorem Above.isDirectory_dropLast {t : Tree} {place : Place} (above : t.Above place) :
    t.isDirectory place.dropLast = true := by
  by_cases hn : place = []
  · subst hn
    rfl
  · rw [List.dropLast_eq_take]
    exact above _ (Nat.sub_lt (List.length_pos_iff.mpr hn) Nat.one_pos)

theorem Above.concat {t : Tree} {place : Place} (above : t.Above place)
    (directory : t.isDirectory place = true) (name : List UInt8) : t.Above (place ++ [name]) := by
  intro n hn
  rw [List.length_append, List.length_singleton] at hn
  rw [List.take_append_of_le_length (by omega)]
  rcases Nat.lt_or_eq_of_le (Nat.le_of_lt_succ hn) with lt | eq
  · exact above n lt
  · rwa [eq, List.take_length]

theorem Above.sibling {t : Tree} {place : Place} (above : t.Above place) (name : List UInt8) :
    t.Above (place.dropLast ++ [name]) := above.dropLast.concat above.isDirectory_dropLast name

/-- What a change leaves alone that touches no place on the way to `place`. -/
theorem Above.congr {t t' : Tree} {place : Place} (above : t.Above place)
    (same : ∀ n < place.length, t'.node? (place.take n) = t.node? (place.take n)) :
    t'.Above place := by
  intro n hn
  rw [isDirectory_congr (same n hn)]
  exact above n hn

end CodeIntel.Tree

namespace CodeIntel

/-- A place whose path can be used as it is: neither it nor a name in it is too long. -/
structure Place.Legal (place : Place) : Prop where
  names : ∀ name ∈ place, name.length ≤ Tree.greatestName
  length : (Tree.pathOf place).bytes.length ≤ Tree.greatestPath
  noNul : (Tree.pathOf place).bytes.contains 0 = false

namespace Tree

/-- A place below directories only that no link stands at. -/
structure Plain (t : Tree) (place : Place) : Prop where
  proper : place.Proper
  above : t.Above place
  notLink : ∀ target, t.node? place ≠ some (.link target)

section Steps

variable {t : Tree} {last : Bool} {follow : Place → List Component → Except FileError Target}
  {place found : Place} {bytes : List UInt8} {rest : List Component}

/-- How a walk goes on from a name that stands for a node. -/
def Onward (t : Tree) (last : Bool) (follow : Place → List Component → Except FileError Target)
    (place : Place) (bytes : List UInt8) (rest : List Component) (found : Place) : Node → Prop
  | .link target =>
    if rest = [] ∧ ¬ last then found = place ++ [bytes]
    else follow (if target.isAbsolute then [] else place) (stepsOf target ++ rest) =
      .ok (.found found)
  | _ => walkSteps t last follow (place ++ [bytes]) rest = .ok (.found found)

theorem walkSteps_current_iff :
    walkSteps t last follow place (.current :: rest) = .ok (.found found) ↔
      t.isDirectory place = true ∧ walkSteps t last follow place rest = .ok (.found found) := by
  simp only [walkSteps]
  split <;> simp [*]

theorem walkSteps_parent_iff :
    walkSteps t last follow place (.parent :: rest) = .ok (.found found) ↔
      t.isDirectory place = true ∧
        walkSteps t last follow place.dropLast rest = .ok (.found found) := by
  simp only [walkSteps]
  split <;> simp [*]

theorem walkSteps_name_iff :
    walkSteps t last follow place (.name bytes :: rest) = .ok (.found found) ↔
      t.isDirectory place = true ∧ bytes.length ≤ greatestName ∧
        ∃ node, t.node? (place ++ [bytes]) = some node ∧
          Onward t last follow place bytes rest found node := by
  simp only [walkSteps]
  split
  next outside => simp_all
  next inside =>
    split
    next long => simp [Nat.not_le_of_lt long]
    next short =>
      simp only [Bool.not_eq_true, Bool.not_eq_false'] at inside
      simp only [inside, Nat.le_of_not_lt short, true_and]
      split
      next free => split <;> simp [free]
      next target link =>
        simp only [link, Option.some.injEq, exists_eq_left', Onward]
        split
        · simp [eq_comm]
        · split <;> simp [*]
      next node notLink here =>
        simp only [here, Option.some.injEq, exists_eq_left']
        cases node with
        | link target => exact absurd rfl (notLink target)
        | _ => rfl

end Steps

/-- Where a path without links leads. -/
def spot (t : Tree) (place : Place) : Target :=
  if (t.node? place).isSome then .found place else .free place

theorem walkSteps_names {t : Tree} {last : Bool}
    {follow : Place → List Component → Except FileError Target} {rest place : Place}
    (hn : rest ≠ []) (above : t.Above (place ++ rest))
    (notLink : ∀ target, t.node? (place ++ rest) ≠ some (.link target)) :
    walkSteps t last follow place (rest.map .name) =
      if ∀ name ∈ rest, name.length ≤ greatestName then .ok (t.spot (place ++ rest))
      else .error .nameTooLong := by
  induction rest generalizing place with
  | nil => exact absurd rfl hn
  | cons name more ih =>
    have inside : t.isDirectory place = true := by
      have := above place.length (by simp)
      rwa [List.take_left] at this
    have regroup : place ++ name :: more = (place ++ [name]) ++ more := by simp
    rw [regroup] at above notLink ⊢
    simp only [List.map_cons, walkSteps, inside, Bool.not_true, Bool.false_eq_true, if_false,
      List.forall_mem_cons]
    split
    next long => rw [if_neg fun all => Nat.not_le_of_lt long all.1]
    next short =>
      rw [Nat.not_lt] at short
      by_cases ends : more = []
      · subst ends
        rw [List.append_nil] at notLink ⊢
        split
        next free => simp [spot, free, short]
        next target link => exact absurd link (notLink target)
        next node _ found => simp [spot, found, short, walkSteps]
      · have shorter : (place ++ [name]).length < (place ++ [name] ++ more).length := by
          simpa using List.length_pos_iff.mpr ends
        have directory := above _ shorter
        rw [List.take_left] at directory
        obtain ⟨mode, found⟩ := isDirectory_iff.mp directory
        rw [found]
        simp only [ih ends above notLink, short, true_and]

theorem stepsOf_pathOf_root : stepsOf (pathOf []) = [.current] := by decide +kernel

theorem walk_pathOf {t : Tree} {place : Place} (last : Bool) (plain : t.Plain place) :
    t.walk last (greatestLinks + 1) [] (stepsOf (pathOf place)) =
      if ∀ name ∈ place, name.length ≤ greatestName then .ok (t.spot place)
      else .error .nameTooLong := by
  by_cases hn : place = []
  · subst hn
    rw [stepsOf_pathOf_root]
    simp [walk, walkSteps, spot, isDirectory, node?_root]
  · rw [stepsOf_pathOf plain.proper hn, walk]
    exact @walkSteps_names t last _ place [] hn plain.above plain.notLink

theorem longTarget_pathOf {t : Tree} {place : Place} (last : Bool) (plain : t.Plain place) :
    t.longTarget (pathOf place) last =
      if (pathOf place).bytes.contains 0 then .error .nulInName
      else if ∀ name ∈ place, name.length ≤ greatestName then .ok (t.spot place)
      else .error .nameTooLong := by
  have hn : (pathOf place).bytes ≠ [] := by simp [pathOf_bytes]
  rw [longTarget, if_neg hn, walk_pathOf last plain]

theorem target_pathOf {t : Tree} {place : Place} (last : Bool) (plain : t.Plain place)
    (legal : place.Legal) : t.target (pathOf place) last = .ok (t.spot place) := by
  rw [target, if_neg fun long => Nat.not_lt_of_le legal.length long.1, longTarget_pathOf last plain,
    legal.noNul, if_neg Bool.false_ne_true, if_pos legal.names]

theorem legal_of_target {t : Tree} {place : Place} {last : Bool} {found : Target}
    (plain : t.Plain place) (h : t.target (pathOf place) last = .ok found) : place.Legal := by
  rw [target] at h
  split at h
  · simp at h
  next short =>
    rw [longTarget_pathOf last plain] at h
    split at h
    · simp at h
    next noNul =>
      rw [Bool.not_eq_true] at noNul
      split at h
      next names => exact ⟨names, Nat.le_of_not_lt fun long => short ⟨long, by rw [noNul]; rfl⟩, noNul⟩
      next => simp at h

theorem target_pathOf_eq_ok_iff {t : Tree} {place : Place} {last : Bool} {found : Target}
    (plain : t.Plain place) :
    t.target (pathOf place) last = .ok found ↔ place.Legal ∧ found = t.spot place := by
  constructor
  · intro h
    have legal := legal_of_target plain h
    rw [target_pathOf last plain legal] at h
    exact ⟨legal, (Except.ok.inj h).symm⟩
  · rintro ⟨legal, rfl⟩
    exact target_pathOf last plain legal

theorem nodeAt_eq_ok_iff {t : Tree} {target : Target} {place : Place} {node : Node} :
    t.nodeAt target = .ok (place, node) ↔ target = .found place ∧ t.node? place = some node := by
  cases target with
  | free other => simp [nodeAt]
  | found other =>
    constructor
    · intro h
      cases here : t.node? other with
      | none => simp [nodeAt, here] at h
      | some stood =>
        simp only [nodeAt, here, Except.ok.injEq, Prod.mk.injEq] at h
        obtain ⟨rfl, rfl⟩ := h
        exact ⟨rfl, here⟩
    · rintro ⟨⟨⟩, here⟩
      simp [nodeAt, here]

theorem nodeAt_spot_eq_ok_iff {t : Tree} {place other : Place} {node : Node} :
    t.nodeAt (t.spot place) = .ok (other, node) ↔ other = place ∧ t.node? place = some node := by
  rw [nodeAt_eq_ok_iff, spot]
  split
  · constructor
    · rintro ⟨⟨⟩, here⟩
      exact ⟨rfl, here⟩
    · rintro ⟨rfl, here⟩
      exact ⟨rfl, here⟩
  next vacant => simp [Option.not_isSome_iff_eq_none.mp vacant]

theorem find_pathOf_eq_ok_iff {t : Tree} {place other : Place} {last : Bool} {node : Node}
    (plain : t.Plain place) :
    t.find (pathOf place) last = .ok (other, node) ↔
      place.Legal ∧ other = place ∧ t.node? place = some node := by
  rw [← nodeAt_spot_eq_ok_iff]
  constructor
  · intro h
    obtain ⟨found, led, h⟩ := bind_eq_ok_iff.mp h
    obtain ⟨legal, rfl⟩ := (target_pathOf_eq_ok_iff plain).mp led
    exact ⟨legal, h⟩
  · rintro ⟨legal, h⟩
    exact bind_eq_ok_iff.mpr ⟨_, target_pathOf last plain legal, h⟩

end Tree

end CodeIntel
