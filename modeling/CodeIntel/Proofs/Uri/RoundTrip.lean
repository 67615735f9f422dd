import CodeIntel.Proofs.Uri.Escape

namespace CodeIntel

open CodeIntel.Path (slash steps)

namespace Uri

theorem percentDecode_plain {c : Char} (ne : c ≠ '%') (rest : List Char) :
    percentDecode (c :: rest) = String.utf8EncodeChar c ++ percentDecode rest := by
  rw [percentDecode]
  rintro x y rest' eq
  exact absurd eq ne

theorem percentDecode_octet {x y : Char} (hx : isHex x = true) (hy : isHex y = true)
    (rest : List Char) :
    percentDecode ('%' :: x :: y :: rest) =
      UInt8.ofNat (hexDigit x * 16 + hexDigit y) :: percentDecode rest := by
  rw [percentDecode]
  simp [hx, hy]

theorem percentDecode_escape (b : UInt8) (rest : List Char) :
    percentDecode (escape b ++ rest) = b :: percentDecode rest := by
  unfold escape
  split
  next plain =>
    obtain ⟨noSign, encoded, -⟩ := plain_byte b plain
    exact (percentDecode_plain (noSign '%' (by simp)) rest).trans (by rw [encoded]; rfl)
  next =>
    obtain ⟨hx, hy, value⟩ := escaped_byte b
    refine (percentDecode_octet hx hy rest).trans ?_
    rw [value, UInt8.ofNat_toNat]

/-- Decoding undoes the encoding of a name. -/
theorem percentDecode_percentEncode (name : List UInt8) :
    percentDecode (percentEncode name) = name := by
  induction name with
  | nil => rfl
  | cons b name ih =>
    change percentDecode (escape b ++ percentEncode name) = _
    rw [percentDecode_escape, ih]

theorem slash_not_mem_percentEncode (name : List UInt8) : '/' ∉ percentEncode name := by
  intro mem
  obtain ⟨b, _, here⟩ := List.mem_flatMap.mp mem
  split at here
  next plain =>
    exact (plain_byte b plain).1 '/' (by simp) (List.mem_singleton.mp here).symm
  next =>
    obtain ⟨hx, hy, -⟩ := escaped_byte b
    simp only [List.mem_cons, List.not_mem_nil, or_false] at here
    rcases here with eq | eq | eq
    · exact absurd eq (by decide)
    · exact (hex_is_plain hx).1 eq.symm
    · exact (hex_is_plain hy).1 eq.symm

/-- What is written small is the sign itself or its capital. -/
theorem lower_eq {c d : Char} (eq : lower c = d) :
    c = d ∨ (0x41 ≤ c.toNat ∧ c.toNat ≤ 0x5A ∧ d.toNat = c.toNat + 32) := by
  unfold lower at eq
  split at eq
  next capital =>
    simp only [Bool.and_eq_true, decide_eq_true_eq] at capital
    have low : 0x41 ≤ c.toNat := capital.1
    have high : c.toNat ≤ 0x5A := capital.2
    have valid : (c.toNat + 32).isValidChar := .inl (by omega)
    exact .inr ⟨low, high, by rw [← eq, Char.ofNat, dif_pos valid]; rfl⟩
  next => exact .inl eq

theorem eq_of_lower_eq {c d : Char} (eq : lower c = d) (sign : d.toNat < 0x61) : c = d := by
  rcases lower_eq eq with same | ⟨low, _, number⟩
  · exact same
  · omega

theorem eq_e_of_lower_eq {c : Char} (eq : lower c = 'e') : c = 'e' ∨ c = 'E' := by
  refine (lower_eq eq).imp id fun ⟨_, _, number⟩ => Char.toNat_inj.mp ?_
  have e : ('e' : Char).toNat = 101 := rfl
  have capital : ('E' : Char).toNat = 69 := rfl
  omega

/-- The ways to write a dot. -/
inductive Dot : List Char → Prop
  | plain : Dot ['.']
  | small : Dot ['%', '2', 'e']
  | capital : Dot ['%', '2', 'E']

theorem percentDecode_dot {dot : List Char} (isDot : Dot dot) (rest : List Char) :
    percentDecode (dot ++ rest) = 0x2E :: percentDecode rest := by
  cases isDot with
  | plain => exact percentDecode_plain (by decide) rest
  | small => exact percentDecode_octet (by decide) (by decide) rest
  | capital => exact percentDecode_octet (by decide) (by decide) rest

theorem dot_of_lower {spelled : List Char}
    (eq : spelled.map lower = ['.'] ∨ spelled.map lower = ['%', '2', 'e']) : Dot spelled := by
  simp only [List.map_eq_cons_iff, List.map_eq_nil_iff] at eq
  rcases eq with ⟨a, _, rfl, dot, rfl⟩ | ⟨a, _, rfl, sign, b, _, rfl, two, c, _, rfl, e, rfl⟩
  · cases eq_of_lower_eq dot (by decide)
    exact .plain
  · cases eq_of_lower_eq sign (by decide)
    cases eq_of_lower_eq two (by decide)
    rcases eq_e_of_lower_eq e with rfl | rfl
    · exact .small
    · exact .capital

/-- A segment of one dot, however it is written, stands for one dot. -/
theorem percentDecode_of_isSingleDot {segment : List Char} (dot : isSingleDot segment = true) :
    percentDecode segment = [0x2E] := by
  have spelled : segment.map lower = ['.'] ∨ segment.map lower = ['%', '2', 'e'] := by
    simpa [isSingleDot, ← String.toList_inj] using dot
  have decoded := percentDecode_dot (dot_of_lower spelled) []
  rwa [List.append_nil] at decoded

theorem percentDecode_of_isDoubleDot {segment : List Char} (dots : isDoubleDot segment = true) :
    percentDecode segment = [0x2E, 0x2E] := by
  have spelled : ∃ first second, segment.map lower = first ++ second ∧
      (first = ['.'] ∨ first = ['%', '2', 'e']) ∧ (second = ['.'] ∨ second = ['%', '2', 'e']) := by
    have cases : segment.map lower = ['.'] ++ ['.'] ∨
        segment.map lower = ['%', '2', 'e'] ++ ['%', '2', 'e'] ∨
        segment.map lower = ['%', '2', 'e'] ++ ['.'] ∨
        segment.map lower = ['.'] ++ ['%', '2', 'e'] := by
      simpa [isDoubleDot, ← String.toList_inj] using dots
    rcases cases with eq | eq | eq | eq <;> exact ⟨_, _, eq, by simp, by simp⟩
  obtain ⟨first, second, eq, isFirst, isSecond⟩ := spelled
  obtain ⟨a, b, rfl, rfl, rfl⟩ := List.map_eq_append_iff.mp eq
  have decoded := percentDecode_dot (dot_of_lower isFirst) b
  have rest := percentDecode_dot (dot_of_lower isSecond) []
  rw [List.append_nil] at rest
  rw [decoded, rest]
  rfl

/-- A name that is no dots is written in no way as dots. -/
theorem not_dots_of_proper {name : List UInt8} (proper : ProperName name) :
    isSingleDot (percentEncode name) = false ∧ isDoubleDot (percentEncode name) = false := by
  refine ⟨Bool.eq_false_iff.mpr fun dot => ?_, Bool.eq_false_iff.mpr fun dots => ?_⟩
  · have decoded := percentDecode_of_isSingleDot dot
    rw [percentDecode_percentEncode] at decoded
    exact proper.notCurrent decoded
  · have decoded := percentDecode_of_isDoubleDot dots
    rw [percentDecode_percentEncode] at decoded
    exact proper.notParent decoded

/-- No dots are resolved where there are none. -/
theorem resolveDots_of_names {segments : List (List Char)}
    (names : ∀ segment ∈ segments, isSingleDot segment = false ∧ isDoubleDot segment = false)
    (kept : List (List Char)) : resolveDots kept segments = kept.reverse ++ segments := by
  induction segments generalizing kept with
  | nil => simp [resolveDots]
  | cons segment rest ih =>
    obtain ⟨single, double⟩ := names segment (by simp)
    have ih := ih (fun other mem => names other (.tail _ mem)) (segment :: kept)
    cases rest with
    | nil => simp [resolveDots, single, double]
    | cons next rest => simp [resolveDots, single, double, ih]

theorem trimSegments_of_nonempty {segment : List Char} (some : segment ≠ [])
    (rest : List (List Char)) : trimSegments (segment :: rest) = segment :: rest := by
  cases rest with
  | nil => rfl
  | cons next rest => simp [trimSegments, some]

/-- A slash at the end of a path is no step. -/
theorem components_closeDrive {p : Path} (absolute : p.isAbsolute = true) :
    Path.components ⟨closeDrive p.bytes⟩ = p.components := by
  have same : closeDrive p.bytes = p.bytes ∨ closeDrive p.bytes = p.bytes ++ [slash] := by
    unfold closeDrive
    split
    · split
      · exact .inr rfl
      · exact .inl rfl
    · exact .inl rfl
  rcases same with eq | eq
  · rw [eq]
  · have longer : Path.isAbsolute ⟨p.bytes ++ [slash]⟩ = true := by
      unfold Path.isAbsolute at absolute ⊢
      cases bytes : p.bytes with
      | nil => simp [bytes] at absolute
      | cons b rest => simpa [bytes] using absolute
    rw [eq, Path.components_of_absolute longer, Path.components_of_absolute absolute,
      Path.steps_trunk]
    simp [steps, Path.pieces, Path.pieceComponent?]

/-- The segments of the URI that names a place. -/
def segmentsOf (place : Place) : List (List Char) :=
  if place = [] then [[]] else place.map percentEncode

theorem path_of_place {place : Place} (proper : place.Proper) :
    (Tree.pathOf place).bytes.flatMap escapeInPath =
      '/' :: ['/'].intercalate (place.map percentEncode) := by
  rw [Tree.pathOf_bytes]
  by_cases none : place = []
  · subst none
    rfl
  · rw [cons_intercalate slash none, flatMap_names fun name mem => (proper name mem).noSlash,
      cons_intercalate '/' (by simpa using none)]

theorem splitOn_segments (place : Place) :
    (['/'].intercalate (place.map percentEncode)).splitOn '/' = segmentsOf place := by
  unfold segmentsOf
  split
  next none =>
    subst none
    rfl
  next some =>
    refine List.splitOn_intercalate '/' (fun segment mem => ?_) (by simpa using some)
    obtain ⟨name, _, rfl⟩ := List.mem_map.mp mem
    exact slash_not_mem_percentEncode name

theorem resolveDots_segmentsOf {place : Place} (proper : place.Proper) :
    resolveDots [] (segmentsOf place) = segmentsOf place := by
  refine resolveDots_of_names (fun segment mem => ?_) []
  unfold segmentsOf at mem
  split at mem
  · rw [List.mem_singleton.mp mem]
    decide
  · obtain ⟨name, here, rfl⟩ := List.mem_map.mp mem
    exact not_dots_of_proper (proper name here)

theorem trimSegments_segmentsOf {place : Place} (proper : place.Proper) :
    trimSegments (segmentsOf place) = segmentsOf place := by
  cases place with
  | nil => rfl
  | cons name rest =>
    refine trimSegments_of_nonempty (fun empty => (proper name (by simp)).nonempty ?_) _
    rw [← percentDecode_percentEncode name, empty]
    rfl

theorem pathOfSegments_segmentsOf (place : Place) :
    pathOfSegments (segmentsOf place) = ⟨closeDrive (Tree.pathOf place).bytes⟩ := by
  unfold pathOfSegments segmentsOf
  rw [Tree.pathOf_bytes]
  split
  next none =>
    subst none
    rfl
  next some =>
    rw [List.flatMap_map, cons_intercalate slash some]
    simp only [percentDecode_percentEncode]

theorem fileSegments_of_place {place : Place} (proper : place.Proper) (text : String) :
    fileSegments ⟨text, some "file".toList, some [],
      (Tree.pathOf place).bytes.flatMap escapeInPath⟩ = .ok (.absent, segmentsOf place) := by
  have host : fileHost [] = .ok (.absent, []) := rfl
  unfold fileSegments
  rw [path_of_place proper]
  simp only [Option.getD_some, host, ok_bind, List.head?_cons, if_true, List.drop_succ_cons,
    List.drop_zero, List.nil_append, splitOn_segments, resolveDots_segmentsOf proper,
    trimSegments_segmentsOf proper, ite_self]
  rfl

/-- The URI of a place names that place. -/
theorem filePath_of_place {place : Place} (proper : place.Proper) (text : String) :
    filePath ⟨text, some "file".toList, some [],
      (Tree.pathOf place).bytes.flatMap escapeInPath⟩ =
        .ok ⟨closeDrive (Tree.pathOf place).bytes⟩ := by
  have scheme : String.ofList ("file".toList.map lower) = "file" := by decide
  unfold filePath
  simp only [scheme, if_true, fileSegments_of_place proper]
  rw [← pathOfSegments_segmentsOf]
  rfl

end Uri

variable {p cwd : Path} {uri : Uri}

theorem exists_localPath_of_uri (absolute : p.isAbsolute = true) (forward : .parent ∉ p.components)
    (named : p.uri cwd = .ok uri) : ∃ q, uri.localPath = .ok q ∧ q.components = p.components := by
  obtain ⟨place, proper, components⟩ := Path.exists_place absolute forward
  have spelled : Path.ofComponents p.components = Tree.pathOf place := by
    rw [components]
    rfl
  have made : Uri.ofPath cwd p = .ok uri := mapError_eq_ok_iff.mp named
  rw [Uri.ofPath_of_absolute absolute, spelled] at made
  split at made <;> cases made
  refine ⟨_, mapError_eq_ok_iff.mpr (Uri.filePath_of_place proper _), ?_⟩
  rw [Uri.components_closeDrive (Tree.isAbsolute_pathOf place), Tree.components_pathOf proper,
    components]

/-- The URI of a path from the root names, step by step, that path, so that it is the URI of no
other path. -/
theorem uri_names_its_path_alone (absolute : p.isAbsolute = true) (forward : .parent ∉ p.components)
    (named : p.uri cwd = .ok uri) :
    (∃ q, uri.localPath = .ok q ∧ q.components = p.components) ∧
      ∀ p' cwd' : Path, p'.isAbsolute = true → .parent ∉ p'.components → p'.uri cwd' = .ok uri →
        p'.components = p.components := by
  refine ⟨exists_localPath_of_uri absolute forward named, ?_⟩
  intro p' cwd' absolute' forward' named'
  obtain ⟨q, here, steps⟩ := exists_localPath_of_uri absolute forward named
  obtain ⟨q', here', steps'⟩ := exists_localPath_of_uri absolute' forward' named'
  cases here.symm.trans here'
  exact steps'.symm.trans steps

/-- A path with an empty name, a blank, a percent sign, a byte that is no text, and a drive. -/
def oddPath : Path := ⟨utf8Bytes "//a b/%2e/" ++ 0xFF :: utf8Bytes "/C:"⟩

theorem odd_path_comes_back : ∃ uri q, oddPath.isAbsolute = true ∧ .parent ∉ oddPath.components ∧
    oddPath.uri default = .ok uri ∧ uri.localPath = .ok q ∧ q.components = oddPath.components := by
  have absolute : oddPath.isAbsolute = true := by decide
  have forward : .parent ∉ oddPath.components := by decide
  have some : (oddPath.uri default).isOk = true := by decide
  obtain ⟨uri, named⟩ := isOk_iff.mp some
  obtain ⟨q, here, steps⟩ := (uri_names_its_path_alone absolute forward named).1
  exact ⟨uri, q, absolute, forward, named, here, steps⟩

end CodeIntel
