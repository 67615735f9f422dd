import CodeIntel.Proofs.Path.Steps
import CodeIntel.Proofs.Symbol.Innermost
import CodeIntel.Tool.References
import Mathlib.Data.Finset.Card
import Mathlib.Data.List.Sort

namespace CodeIntel

namespace Range

variable {a b c : Range}

/-- Starts are compared first, then ends, and of both first the line and then the column. -/
theorem le_iff : a.le b = true ↔
    a.start.line.toNat < b.start.line.toNat ∨ a.start.line.toNat = b.start.line.toNat ∧
      (a.start.character.toNat < b.start.character.toNat ∨
        a.start.character.toNat = b.start.character.toNat ∧
          (a.stop.line.toNat < b.stop.line.toNat ∨ a.stop.line.toNat = b.stop.line.toNat ∧
            a.stop.character.toNat ≤ b.stop.character.toNat)) := by
  obtain ⟨⟨line, character⟩, stop⟩ := a
  obtain ⟨⟨line', character'⟩, stop'⟩ := b
  simp only [le, Position.lt, Bool.or_eq_true, Bool.and_eq_true, decide_eq_true_eq, Position.le_iff,
    Position.mk.injEq, UInt32.lt_iff_toNat_lt, ← UInt32.toNat_inj]
  omega

theorem le_total (a b : Range) : a.le b = true ∨ b.le a = true := by
  rw [le_iff, le_iff]
  omega

theorem le_trans (a b c : Range) (hab : a.le b = true) (hbc : b.le c = true) : a.le c = true := by
  rw [le_iff] at *
  omega

theorem le_antisymm (hab : a.le b = true) (hba : b.le a = true) : a = b := by
  rw [le_iff] at *
  obtain ⟨⟨line, character⟩, line', character'⟩ := a
  obtain ⟨⟨line, character⟩, line', character'⟩ := b
  simp only [mk.injEq, Position.mk.injEq, ← UInt32.toNat_inj] at *
  omega

/-- Whether a range comes before another one. -/
def Before (a b : Range) : Prop := a.le b = true ∧ a ≠ b

theorem Before.asymm (h : a.Before b) : ¬ b.Before a := fun h' => h.2 (le_antisymm h.1 h'.1)

end Range

namespace References

variable {ranges : List Range} {groups groups' : List Group} {found found' seen : List Location}
  {l : Location} {path : Path} {r : Range}

theorem mem_withoutRepeats_iff : r ∈ withoutRepeats ranges ↔ r ∈ ranges := by
  fun_induction withoutRepeats ranges with
  | case1 a rest ih => simp [ih]
  | case2 a b rest _ ih => simp [ih]
  | case3 => rfl

/-- In a list in ascending order, equal elements are neighbours. -/
theorem pairwise_withoutRepeats (ascending : ranges.Pairwise fun a b => a.le b = true) :
    (withoutRepeats ranges).Pairwise Range.Before := by
  fun_induction withoutRepeats ranges with
  | case1 a rest ih => exact ih ascending.tail
  | case2 a b rest ne ih =>
    obtain ⟨first, later⟩ := List.pairwise_cons.mp ascending
    refine List.pairwise_cons.mpr ⟨fun r mem => ?_, ih later⟩
    have mem := mem_withoutRepeats_iff.mp mem
    refine ⟨first r mem, ?_⟩
    rintro rfl
    have below : b.le a = true := by
      rcases List.mem_cons.mp mem with rfl | mem
      · exact absurd rfl ne
      · exact (List.pairwise_cons.mp later).1 a mem
    exact ne (Range.le_antisymm (first b List.mem_cons_self) below)
  | case3 ranges short =>
    cases ranges with
    | nil => exact .nil
    | cons a rest =>
      cases rest with
      | nil => exact List.pairwise_singleton ..
      | cons b rest => exact (short a b rest rfl).elim

/-- Whether a location is in the group of its path. -/
def Lists (groups : List Group) (l : Location) : Prop :=
  ∃ group ∈ groups, group.1 = l.path ∧ l.range ∈ group.2

/-- Two spellings of one path do not occur. -/
def SpelledAlike (found : List Location) : Prop :=
  ∀ a ∈ found, ∀ b ∈ found, a.path.components = b.path.components → a.path = b.path

/-- Groups hold the locations that were seen, in ascending order of the paths. -/
structure Grouping (seen : List Location) (groups : List Group) : Prop where
  ascending : groups.Pairwise fun g h => g.1.Before h.1
  filled : ∀ group ∈ groups, group.2 ≠ []
  listed : ∀ l, Lists groups l ↔ l ∈ seen

theorem paths_addLocation {group : Group} (mem : group ∈ addLocation l groups) :
    group.1 = l.path ∨ ∃ g ∈ groups, g.1 = group.1 := by
  induction groups with
  | nil =>
    obtain rfl := List.mem_singleton.mp mem
    exact .inl rfl
  | cons g rest ih =>
    unfold addLocation at mem
    split at mem
    · rcases List.mem_cons.mp mem with rfl | mem
      · exact .inr ⟨g, List.mem_cons_self, rfl⟩
      · exact .inr ⟨group, List.mem_cons_of_mem _ mem, rfl⟩
    · split at mem
      · rcases List.mem_cons.mp mem with rfl | mem
        · exact .inr ⟨g, List.mem_cons_self, rfl⟩
        · refine (ih mem).imp id ?_
          rintro ⟨g', mem, same⟩
          exact ⟨g', List.mem_cons_of_mem _ mem, same⟩
      · rcases List.mem_cons.mp mem with rfl | mem
        · exact .inl rfl
        · exact .inr ⟨group, mem, rfl⟩

theorem ascending_addLocation (l : Location)
    (ascending : groups.Pairwise fun g h => g.1.Before h.1) :
    (addLocation l groups).Pairwise fun g h => g.1.Before h.1 := by
  induction groups with
  | nil => exact List.pairwise_singleton ..
  | cons g rest ih =>
    obtain ⟨first, later⟩ := List.pairwise_cons.mp ascending
    unfold addLocation
    split
    · exact List.pairwise_cons.mpr ⟨first, later⟩
    next other =>
      have ne : g.1.components ≠ l.path.components := by simpa [Path.same] using other
      split
      next le =>
        refine List.pairwise_cons.mpr ⟨fun h mem => ?_, ih later⟩
        rcases paths_addLocation mem with eq | ⟨g', mem', eq⟩
        · rw [eq]
          exact ⟨le, ne⟩
        · exact eq ▸ first g' mem'
      next not_le =>
        have before : l.path.Before g.1 := Path.before_of_not_le (Bool.eq_false_iff.mpr not_le)
        refine List.pairwise_cons.mpr ⟨fun h mem => ?_, ascending⟩
        rcases List.mem_cons.mp mem with rfl | mem
        · exact before
        · exact before.trans (first h mem)

theorem filled_addLocation (l : Location) (filled : ∀ group ∈ groups, group.2 ≠ []) :
    ∀ group ∈ addLocation l groups, group.2 ≠ [] := by
  induction groups with
  | nil => simp [addLocation]
  | cons g rest ih =>
    obtain ⟨here, later⟩ := List.forall_mem_cons.mp filled
    unfold addLocation
    split
    · exact List.forall_mem_cons.mpr ⟨by simp, later⟩
    · split
      · exact List.forall_mem_cons.mpr ⟨here, ih later⟩
      · exact List.forall_mem_cons.mpr ⟨by simp, filled⟩

theorem lists_cons_iff {g : Group} :
    Lists (g :: groups) l ↔ (g.1 = l.path ∧ l.range ∈ g.2) ∨ Lists groups l :=
  List.exists_mem_cons_iff ..

theorem lists_addLocation_iff {m : Location}
    (alike : ∀ group ∈ groups, group.1.components = l.path.components → group.1 = l.path) :
    Lists (addLocation l groups) m ↔ m = l ∨ Lists groups m := by
  have told : (l.path = m.path ∧ m.range = l.range) ↔ m = l := by
    obtain ⟨path, range⟩ := l
    obtain ⟨path', range'⟩ := m
    simp [eq_comm]
  induction groups with
  | nil => simp [addLocation, Lists, told]
  | cons g rest ih =>
    obtain ⟨here, later⟩ := List.forall_mem_cons.mp alike
    unfold addLocation
    split
    next same =>
      have path : g.1 = l.path := here (by simpa [Path.same] using same)
      rw [lists_cons_iff, lists_cons_iff, ← told]
      simp only [path, List.mem_append, List.mem_singleton]
      tauto
    · split
      · refine lists_cons_iff.trans ((or_congr_right (ih later)).trans ?_)
        rw [lists_cons_iff, or_left_comm]
      · rw [lists_cons_iff, ← told]
        simp

/-- One more location keeps a grouping. -/
theorem Grouping.addLocation (h : Grouping seen groups) (alike : SpelledAlike (seen ++ [l])) :
    Grouping (seen ++ [l]) (addLocation l groups) where
  ascending := ascending_addLocation l h.ascending
  filled := filled_addLocation l h.filled
  listed m := by
    have own : ∀ group ∈ groups, group.1.components = l.path.components → group.1 = l.path := by
      intro group mem same
      obtain ⟨r, held⟩ := List.exists_mem_of_ne_nil _ (h.filled group mem)
      have known : ⟨group.1, r⟩ ∈ seen := (h.listed ⟨group.1, r⟩).mp ⟨group, mem, rfl, held⟩
      exact alike ⟨group.1, r⟩ (List.mem_append_left _ known) l (by simp) same
    rw [lists_addLocation_iff own, h.listed, List.mem_append, List.mem_singleton, or_comm]

theorem Grouping.foldl (h : Grouping seen groups) (alike : SpelledAlike (seen ++ found)) :
    Grouping (seen ++ found)
      (found.foldl (fun groups location => References.addLocation location groups) groups) := by
  induction found generalizing seen groups with
  | nil => rwa [List.append_nil]
  | cons l rest ih =>
    rw [List.append_cons] at alike ⊢
    refine ih (h.addLocation fun a ha b hb => alike a ?_ b ?_) alike
    · exact List.mem_append_left _ ha
    · exact List.mem_append_left _ hb

/-- Groups with each location once: paths in ascending order, and under each path its ranges in
ascending order. -/
structure ReportsOnce (found : List Location) (groups : List Group) : Prop
    extends Grouping found groups where
  ranges : ∀ group ∈ groups, group.2.Pairwise Range.Before

theorem reportsOnce_groupByFile (alike : SpelledAlike found) :
    ReportsOnce found (groupByFile found) := by
  have start : Grouping [] [] := ⟨.nil, by simp, by simp [Lists]⟩
  have whole := start.foldl alike
  have same (ranges : List Range) (r : Range) :
      r ∈ withoutRepeats (sortBy Range.le ranges) ↔ r ∈ ranges :=
    mem_withoutRepeats_iff.trans (sortBy_perm ..).mem_iff
  unfold groupByFile
  refine ⟨⟨List.pairwise_map.mpr whole.ascending, ?_, fun l => ?_⟩, ?_⟩
  · intro group mem
    obtain ⟨g, chosen, rfl⟩ := List.mem_map.mp mem
    obtain ⟨r, held⟩ := List.exists_mem_of_ne_nil _ (whole.filled g chosen)
    exact List.ne_nil_of_mem ((same g.2 r).mpr held)
  · refine Iff.trans ?_ (whole.listed l)
    simp [Lists, same]
  · intro group mem
    obtain ⟨g, mem, rfl⟩ := List.mem_map.mp mem
    exact pairwise_withoutRepeats (sortBy_pairwise Range.le_total Range.le_trans g.2)

theorem Grouping.paths_nodup (h : Grouping seen groups) : (groups.map Prod.fst).Nodup := by
  refine List.pairwise_map.mpr (h.ascending.imp fun {a b} before same => ?_)
  exact before.2 (by rw [same])

theorem Grouping.mem_paths_iff (h : Grouping seen groups) :
    path ∈ groups.map Prod.fst ↔ path ∈ seen.map Location.path := by
  simp only [List.mem_map]
  constructor
  · rintro ⟨group, mem, rfl⟩
    obtain ⟨r, held⟩ := List.exists_mem_of_ne_nil _ (h.filled group mem)
    exact ⟨⟨group.1, r⟩, (h.listed _).mp ⟨group, mem, rfl, held⟩, rfl⟩
  · rintro ⟨l, mem, rfl⟩
    obtain ⟨group, held, same, _⟩ := (h.listed l).mpr mem
    exact ⟨group, held, same⟩

theorem Grouping.mem_group_iff (h : Grouping seen groups) {group : Group} (mem : group ∈ groups) :
    r ∈ group.2 ↔ ⟨group.1, r⟩ ∈ seen := by
  rw [← h.listed]
  constructor
  · exact fun held => ⟨group, mem, rfl, held⟩
  · rintro ⟨other, mem', same, held⟩
    rwa [List.inj_on_of_nodup_map h.paths_nodup mem' mem same] at held

/-- The locations that groups tell of, in the order in which they do. -/
def told (groups : List Group) : List Location :=
  groups.flatMap fun group => group.2.map (Location.mk group.1)

theorem mem_told_iff : l ∈ told groups ↔ Lists groups l := by
  simp only [told, List.mem_flatMap, List.mem_map, Lists]
  refine exists_congr fun group => and_congr_right fun _ => ?_
  constructor
  · rintro ⟨r, held, rfl⟩
    exact ⟨rfl, held⟩
  · rintro ⟨same, held⟩
    exact ⟨l.range, held, by rw [same]⟩

theorem ReportsOnce.told_nodup (h : ReportsOnce found groups) : (told groups).Nodup := by
  refine List.pairwise_flatMap.mpr ⟨fun group mem => ?_, h.ascending.imp fun {g g'} before => ?_⟩
  · refine List.pairwise_map.mpr ((h.ranges group mem).imp fun {a b} before same => ?_)
    exact before.2 (congrArg Location.range same)
  · rintro a ha b hb rfl
    obtain ⟨r, _, rfl⟩ := List.mem_map.mp ha
    obtain ⟨r', _, same⟩ := List.mem_map.mp hb
    have path : g'.1 = g.1 := congrArg Location.path same
    exact before.2 (by rw [path])

theorem count_eq_length_told (groups : List Group) : count groups = (told groups).length := by
  have sum : ∀ start, groups.foldl (fun n group => n + group.2.length) start =
      start + (told groups).length := by
    induction groups with
    | nil => simp [told]
    | cons group rest ih =>
      intro start
      rw [List.foldl_cons, ih]
      simp [told, Nat.add_assoc]
  simpa [count] using sum 0

/-- As many ranges are told of as there are different locations. -/
theorem ReportsOnce.count_eq (h : ReportsOnce found groups) :
    count groups = found.toFinset.card := by
  rw [count_eq_length_told, ← List.toFinset_card_of_nodup h.told_nodup]
  congr 1
  ext l
  rw [List.mem_toFinset, List.mem_toFinset, mem_told_iff, h.listed]

/-- There are as many groups as different paths. -/
theorem Grouping.length_eq (h : Grouping seen groups) :
    groups.length = (seen.map Location.path).toFinset.card := by
  rw [← List.length_map (f := Prod.fst), ← List.toFinset_card_of_nodup h.paths_nodup]
  congr 1
  ext path
  rw [List.mem_toFinset, List.mem_toFinset, h.mem_paths_iff]

theorem ReportsOnce.mem_of_same (h : ReportsOnce found groups) (h' : ReportsOnce found' groups')
    (same : ∀ l, l ∈ found' ↔ l ∈ found) {group : Group} (mem : group ∈ groups) :
    group ∈ groups' := by
  have known : group.1 ∈ groups'.map Prod.fst := by
    obtain ⟨l, held, eq⟩ := List.mem_map.mp (h.mem_paths_iff.mp (List.mem_map_of_mem mem))
    exact h'.mem_paths_iff.mpr (List.mem_map.mpr ⟨l, (same l).mpr held, eq⟩)
  obtain ⟨other, mem', path⟩ := List.mem_map.mp known
  have ranges : other.2 = group.2 := by
    have : Std.Antisymm Range.Before := ⟨fun _ _ hab hba => absurd hba hab.asymm⟩
    have : Std.Irrefl Range.Before := ⟨fun _ before => before.2 rfl⟩
    refine (h'.ranges other mem').eq_of_mem_iff (h.ranges group mem) fun r => ?_
    rw [h'.mem_group_iff mem', h.mem_group_iff mem, path, same]
  exact Prod.ext path ranges ▸ mem'

/-- Locations have one report, whatever their order and however often they occur. -/
theorem ReportsOnce.unique (h : ReportsOnce found groups) (h' : ReportsOnce found' groups')
    (same : ∀ l, l ∈ found' ↔ l ∈ found) : groups = groups' := by
  let Before (g g' : Group) : Prop := g.1.Before g'.1
  have : Std.Antisymm Before := ⟨fun _ _ hab hba => absurd hba hab.asymm⟩
  have : Std.Irrefl Before := ⟨fun _ => Path.before_irrefl _⟩
  refine List.Pairwise.eq_of_mem_iff (r := Before) h.ascending h'.ascending fun group => ?_
  exact ⟨h.mem_of_same h' same, h'.mem_of_same h fun l => (same l).symm⟩

theorem SpelledAlike.of_same (alike : SpelledAlike found) (same : ∀ l, l ∈ found' ↔ l ∈ found) :
    SpelledAlike found' :=
  fun a ha b hb => alike a ((same a).mp ha) b ((same b).mp hb)

theorem groupByFile_eq_of_same (alike : SpelledAlike found) (same : ∀ l, l ∈ found' ↔ l ∈ found) :
    groupByFile found = groupByFile found' :=
  (reportsOnce_groupByFile alike).unique (reportsOnce_groupByFile (alike.of_same same)) same

end References

end CodeIntel
