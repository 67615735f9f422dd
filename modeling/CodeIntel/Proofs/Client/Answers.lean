import CodeIntel.Client.Results
import CodeIntel.Proofs.Shape.Giving

namespace CodeIntel

open Decoder Fields

variable {α : Type} {value : Json} {values : List Json}

theorem Json.depth_le_depthOfMembers {members : List (String × Json)} {key : String}
    (found : findEntry key members = some value) :
    value.depth ≤ depthOfMembers members := by
  induction members with
  | nil => cases found
  | cons member rest ih =>
    obtain ⟨name, first⟩ := member
    rw [findEntry] at found
    rw [depthOfMembers]
    split at found
    · cases found
      exact Nat.le_max_left ..
    · exact Nat.le_trans (ih found) (Nat.le_max_right ..)

/-- A URI is given as its text. -/
def Uri.GivenBy (uri : Uri) (value : Json) : Prop :=
  ∃ text, value = .string text ∧ parse text = .ok uri

theorem Uri.decode_of_given {uri : Uri} (given : uri.GivenBy value) : decode value = .ok uri := by
  obtain ⟨text, rfl, parsed⟩ := given
  exact mapError_eq_ok_iff.mpr parsed

namespace UriLocation

def GivenBy (place : UriLocation) (value : Json) : Prop :=
  value.Gives "uri" place.uri.GivenBy ∧ value.Gives "range" place.range.GivenBy

theorem decode_of_given {place : UriLocation} (given : place.GivenBy value) :
    decode value = .ok place := by
  obtain ⟨uri, range⟩ := given
  obtain ⟨members, rfl⟩ := uri.exists_members
  exact (((reads_given uri fun _ => Uri.decode_of_given).map UriLocation.mk).seq
    (reads_given range fun _ => Range.decode_of_given)).decode _

/-- What is read as a location has a URI and a range where a location has them. -/
theorem fields_of_decode : ∀ place, decode value = .ok place →
    (∃ given, value.fieldAt? "uri" 0 = some given ∧ Uri.decode given = .ok place.uri) ∧
    ∃ given, value.fieldAt? "range" 1 = some given ∧ Range.decode given = .ok place.range := by
  refine holds_of_decode fun source given => ?_
  simp only [← given]
  exact ((sees_required "uri" Uri.decode).map fun _ uri _ range => ⟨uri, range⟩).seq
    (sees_required "range" Range.decode)

end UriLocation

namespace LocationLink

def GivenBy (link : LocationLink) (value : Json) : Prop :=
  value.Tells "originSelectionRange" Range.GivenBy link.originRange ∧
    value.Gives "targetUri" link.target.GivenBy ∧
    value.Gives "targetRange" link.targetRange.GivenBy ∧
    value.Gives "targetSelectionRange" link.selectionRange.GivenBy

theorem decode_of_given {link : LocationLink} (given : link.GivenBy value) :
    decode value = .ok link := by
  obtain ⟨origin, target, range, selection⟩ := given
  obtain ⟨members, rfl⟩ := target.exists_members
  have origin : (optional "originSelectionRange" Range.decode).Reads members link.originRange :=
    reads_told origin fun _ _ given => ⟨Range.decode_of_given given, given.1.ne_null⟩
  exact ((((origin.map LocationLink.mk).seq (reads_given target fun _ => Uri.decode_of_given)).seq
    (reads_given range fun _ => Range.decode_of_given)).seq
      (reads_given selection fun _ => Range.decode_of_given)).decode _

end LocationLink

namespace Json

def IsTags (tags : List Int) (value : Json) : Prop :=
  value = .array (tags.map .int) ∧ ∀ tag ∈ tags, IsShort tag

/-- What every symbol is given with: its name and kind, and marks that are not kept. -/
structure Labels (value : Json) (name : String) (kind : Int) : Prop where
  named : value.Gives "name" (· = .string name)
  classed : value.Gives "kind" (· = .int kind)
  short : IsShort kind
  tagged : ∃ tags, value.Tells "tags" IsTags tags
  flagged : ∃ flag, value.Tells "deprecated" (fun flag given => given = .bool flag) flag

namespace Labels

variable {members : List (String × Json)} {name : String} {kind : Int}

theorem reads_name (labels : (Json.object members).Labels name kind) :
    (required "name" .string).Reads members name :=
  reads_given labels.named fun _ given => given ▸ rfl

theorem reads_kind (labels : (Json.object members).Labels name kind) :
    (required "kind" .i32).Reads members kind :=
  reads_given labels.classed fun _ given => given ▸ undoes_i32.back kind labels.short

theorem reads_tags (labels : (Json.object members).Labels name kind) :
    ∃ tags, (optional "tags" (.list .i32)).Reads members tags := by
  obtain ⟨tags, told⟩ := labels.tagged
  refine ⟨tags, reads_told told ?_⟩
  rintro tags _ ⟨rfl, short⟩
  exact ⟨undoes_i32.list.back tags short, nofun⟩

theorem reads_deprecated (labels : (Json.object members).Labels name kind) :
    ∃ flag, (optional "deprecated" .bool).Reads members flag := by
  obtain ⟨flag, told⟩ := labels.flagged
  refine ⟨flag, reads_told told ?_⟩
  rintro flag _ rfl
  exact ⟨rfl, nofun⟩

end Labels

end Json

namespace FoundSymbol

/-- How a symbol is given, but for its place. -/
structure GivenBy (s : FoundSymbol) (value : Json) : Prop where
  labels : value.Labels s.name s.kind
  container : value.Tells "containerName" (fun container given => given = .string container)
    s.container

/-- How a symbol is given with its range. -/
def Located (s : FoundSymbol) (value : Json) : Prop :=
  s.GivenBy value ∧ value.Gives "location" (UriLocation.GivenBy ⟨s.uri, s.range⟩)

/-- How a symbol is given by its file only. -/
def Rangeless (s : FoundSymbol) (value : Json) : Prop :=
  s.GivenBy value ∧ s.range = .origin ∧
    value.Gives "location" fun place => place.Gives "uri" s.uri.GivenBy ∧ place.member? "range" = none

variable {s : FoundSymbol} {members : List (String × Json)}

theorem located_of_given (given : s.Located value) : located value = .ok s := by
  obtain ⟨symbol, place⟩ := given
  obtain ⟨members, rfl⟩ := place.exists_members
  obtain ⟨tags, readsTags⟩ := symbol.labels.reads_tags
  obtain ⟨flag, readsFlag⟩ := symbol.labels.reads_deprecated
  have place : (required "location" UriLocation.decode).Reads members ⟨s.uri, s.range⟩ :=
    reads_given place fun _ => UriLocation.decode_of_given
  have reads := (((((symbol.labels.reads_name.map fun name kind _ _ (place : UriLocation) container =>
    FoundSymbol.mk name kind container place.uri place.range).seq symbol.labels.reads_kind).seq
      readsTags).seq readsFlag).seq place).seq (reads_told_text symbol.container)
  exact reads.decode "SymbolInformation"

/-- What is read as a symbol with its range has a location with a range. -/
theorem place_of_located : ∀ s, located value = .ok s →
    ∃ given, value.fieldAt? "location" 4 = some given ∧
      UriLocation.decode given = .ok ⟨s.uri, s.range⟩ := by
  refine holds_of_decode fun source given => ?_
  simp only [← given]
  refine (((sees_true _ _ _).map ?_).skip.skip.skip.seq (sees_required "location" _)).skip
  exact fun _ _ _ _ _ _ place _ => place

theorem not_located_of_rangeless (given : s.Rangeless value) (t : FoundSymbol) :
    located value ≠ .ok t := by
  obtain ⟨_, _, place, here, ⟨_, named, _⟩, bare⟩ := given
  intro read
  obtain ⟨_, found, read⟩ := place_of_located t read
  rw [Json.fieldAt?_of_member? here, here] at found
  cases found
  obtain ⟨_, found, _⟩ := (UriLocation.fields_of_decode _ read).2
  rw [Json.fieldAt?_of_member? named, bare] at found
  cases found

theorem looseLocation_of_located {place : UriLocation} (given : place.GivenBy value) :
    looseLocation value = .ok place := by
  rw [looseLocation, firstOf_cons, UriLocation.decode_of_given given]

theorem looseLocation_of_rangeless {uri : Uri} (named : value.Gives "uri" uri.GivenBy)
    (bare : value.member? "range" = none) : looseLocation value = .ok ⟨uri, .origin⟩ := by
  have unread : ∃ e, UriLocation.decode value = .error e := by
    cases read : UriLocation.decode value with
    | error e => exact ⟨e, rfl⟩
    | ok place =>
      obtain ⟨_, found, _⟩ := (UriLocation.fields_of_decode _ read).2
      obtain ⟨_, named, _⟩ := named
      rw [Json.fieldAt?_of_member? named, bare] at found
      cases found
  obtain ⟨e, unread⟩ := unread
  obtain ⟨members, rfl⟩ := named.exists_members
  have reads := (reads_given named fun _ => Uri.decode_of_given).map fun uri : Uri =>
    UriLocation.mk uri .origin
  rw [looseLocation, firstOf_cons, unread, firstOf_cons, reads.decode]

theorem loose_of_given (given : s.Located value ∨ s.Rangeless value) : loose value = .ok s := by
  have parts : s.GivenBy value ∧
      value.Gives "location" fun place => looseLocation place = .ok ⟨s.uri, s.range⟩ := by
    rcases given with ⟨symbol, place, here, given⟩ | ⟨symbol, origin, place, here, named, bare⟩
    · exact ⟨symbol, place, here, looseLocation_of_located given⟩
    · exact ⟨symbol, place, here, origin ▸ looseLocation_of_rangeless named bare⟩
  obtain ⟨symbol, place⟩ := parts
  obtain ⟨members, rfl⟩ := place.exists_members
  obtain ⟨tags, readsTags⟩ := symbol.labels.reads_tags
  obtain ⟨data, readsData⟩ := exists_reads_json members "data"
  have place : (required "location" looseLocation).Reads members ⟨s.uri, s.range⟩ :=
    reads_given place fun _ read => read
  have reads := (((((symbol.labels.reads_name.map fun name kind _ container (place : UriLocation) _ =>
    FoundSymbol.mk name kind container place.uri place.range).seq symbol.labels.reads_kind).seq
      readsTags).seq (reads_told_text symbol.container)).seq place).seq readsData
  exact reads.decode "WorkspaceSymbol"

/-- A list that lacks a range is not read as one with all its ranges. -/
theorem eq_of_list_located {found : List FoundSymbol}
    (given : List.Forall₂ (fun s value => s.Located value ∨ s.Rangeless value) found values) :
    ∀ others, Decoder.list located (.array values) = .ok others → others = found := by
  induction given with
  | nil =>
    rintro _ ⟨⟩
    rfl
  | cons first _ ih =>
    intro others read
    obtain ⟨s, rest, decoded, later, rfl⟩ := list_cons_eq_ok_iff.mp read
    rcases first with located | rangeless
    · rw [located_of_given located] at decoded
      cases decoded
      rw [ih rest later]
    · exact absurd decoded (not_located_of_rangeless rangeless s)

end FoundSymbol

theorem readWorkspaceSymbols_of_given {found : List FoundSymbol}
    (given : List.Forall₂ (fun s value => s.Located value ∨ s.Rangeless value) found values) :
    readWorkspaceSymbols (.array values) = .ok (found.filterMap FoundSymbol.here?) := by
  have loose : Decoder.list FoundSymbol.loose (.array values) = .ok found :=
    list_of_given given fun _ _ => FoundSymbol.loose_of_given
  have read : Decoder.firstOf "WorkspaceSymbolResponse"
      [.list FoundSymbol.located, .list FoundSymbol.loose] (.array values) = .ok found := by
    rw [firstOf_cons]
    cases located : Decoder.list FoundSymbol.located (.array values) with
    | ok others => rw [FoundSymbol.eq_of_list_located given others located]
    | error e => simp only [firstOf_cons, loose]
  rw [readWorkspaceSymbols, decodeResult, read]
  · rfl
  · nofun

namespace DocumentSymbol

mutual

/-- How a symbol is given, with the symbols inside it. -/
def GivenBy : DocumentSymbol → Json → Prop
  | mk name kind detail range selection children, value =>
    value.Labels name kind ∧
      value.Tells "detail" (fun detail given => given = .string detail) detail ∧
      value.Gives "range" range.GivenBy ∧ value.Gives "selectionRange" selection.GivenBy ∧
      ((children = [] ∧ ∀ given ∈ value.member? "children", given = .null) ∨
        ∃ values, value.member? "children" = some (.array values) ∧ AllGivenBy children values)

/-- How symbols side by side are given. -/
def AllGivenBy : List DocumentSymbol → List Json → Prop
  | [], values => values = []
  | s :: rest, values =>
    ∃ value others, values = value :: others ∧ s.GivenBy value ∧ AllGivenBy rest others

end

variable {members : List (String × Json)} {depth : Nat}

/-- What is read as a symbol of a tree has a range of its name. -/
theorem selection_of_decodeTo : ∀ s, decodeTo depth value = .ok s →
    ∃ given, value.fieldAt? "selectionRange" 6 = some given := by
  cases depth with
  | zero => nofun
  | succ depth =>
    refine holds_of_decode fun source given => ?_
    simp only [← given]
    refine (((sees_true _ _ _).map ?_).skip.skip.skip.skip.skip.seq
      (sees_required "selectionRange" _)).skip
    exact fun _ _ _ _ _ _ _ _ ⟨given, found, _⟩ _ => ⟨given, found⟩

mutual

theorem decodeTo_of_given : ∀ (s : DocumentSymbol) {value : Json} {depth : Nat}, s.GivenBy value →
    value.depth ≤ depth → decodeTo depth value = .ok s
  | mk name kind detail range selection children, value, depth, given, deep => by
    obtain ⟨labels, detailed, ranged, selected, inner⟩ := given
    obtain ⟨members, rfl⟩ := ranged.exists_members
    rw [Json.depth] at deep
    obtain ⟨depth, rfl⟩ : ∃ less, depth = less + 1 := Nat.exists_eq_add_of_le' (by omega)
    have inside : ∃ inside, (optional "children" (.list (decodeTo depth))).Reads members inside ∧
        inside.getD [] = children := by
      rcases inner with ⟨rfl, missing⟩ | ⟨values, found, given⟩
      · have told : (Json.object members).Tells "children" (fun _ _ => False)
          (none : Option (List DocumentSymbol)) := missing
        exact ⟨none, reads_told told nofun, rfl⟩
      · have shallow : Json.depthOfItems values ≤ depth := by
          have shallower := Json.depth_le_depthOfMembers found
          rw [Json.depth] at shallower
          omega
        exact ⟨some children, reads_optional found (congrArg (some <$> ·)
          (list_decodeTo_of_given children given shallow)), rfl⟩
    obtain ⟨tags, readsTags⟩ := labels.reads_tags
    obtain ⟨flag, readsFlag⟩ := labels.reads_deprecated
    obtain ⟨inside, readsInside, rfl⟩ := inside
    have reads := (((((((labels.reads_name.map
      fun name detail kind _ _ range selection (inside : Option (List DocumentSymbol)) =>
        mk name kind detail range selection (inside.getD [])).seq (reads_told_text detailed)).seq
          labels.reads_kind).seq readsTags).seq readsFlag).seq
            (reads_given ranged fun _ => Range.decode_of_given)).seq
              (reads_given selected fun _ => Range.decode_of_given)).seq readsInside
    exact reads.decode "DocumentSymbol"

theorem list_decodeTo_of_given : ∀ (symbols : List DocumentSymbol) {values : List Json}
    {depth : Nat}, AllGivenBy symbols values → Json.depthOfItems values ≤ depth →
      Decoder.list (decodeTo depth) (.array values) = .ok symbols
  | [], values, depth, given, _ => by
    obtain rfl : values = [] := given
    rfl
  | s :: rest, values, depth, given, deep => by
    obtain ⟨value, others, rfl, first, later⟩ := given
    rw [Json.depthOfItems] at deep
    exact list_cons_eq_ok_iff.mpr ⟨s, rest, decodeTo_of_given s first (by omega),
      list_decodeTo_of_given rest later (by omega), rfl⟩

end

theorem decodeForest_of_given {symbols : List DocumentSymbol} (given : AllGivenBy symbols values) :
    decodeForest (.array values) = .ok symbols :=
  list_decodeTo_of_given symbols given (by rw [Json.depth]; omega)

end DocumentSymbol

/-- Symbols with their places are no trees, if they have no ranges of their names. -/
theorem readDocumentSymbols_of_located {found : List FoundSymbol}
    (given : List.Forall₂ FoundSymbol.Located found values)
    (bare : ∀ value ∈ values, value.member? "selectionRange" = none) :
    readDocumentSymbols (.array values) = .ok (found.map DocumentSymbol.leaf) := by
  have located : Decoder.list FoundSymbol.located (.array values) = .ok found :=
    list_of_given given fun _ _ => FoundSymbol.located_of_given
  cases given with
  | nil => rfl
  | @cons s value _ values first later =>
    have unread : ∀ symbols, DocumentSymbol.decodeForest (.array (value :: values)) ≠ .ok symbols := by
      intro symbols read
      obtain ⟨_, _, read, _⟩ := list_cons_eq_ok_iff.mp read
      obtain ⟨_, found⟩ := DocumentSymbol.selection_of_decodeTo _ read
      obtain ⟨_, place, _⟩ := first.2
      rw [Json.fieldAt?_of_member? place, bare value (List.mem_cons_self ..)] at found
      cases found
    cases read : DocumentSymbol.decodeForest (.array (value :: values)) with
    | ok symbols => exact absurd read (unread symbols)
    | error e => simp only [readDocumentSymbols, read, located]

theorem readTargets_of_place {place : UriLocation} (given : place.GivenBy value) :
    readTargets value = .ok [place] := by
  unfold readTargets
  split
  · cases UriLocation.decode_of_given given
  · rw [UriLocation.decode_of_given given]

/-- A list of objects is no location, which would have its URI first. -/
theorem not_place_of_objects {R : α → Json → Prop} {as : List α} (given : List.Forall₂ R as values)
    (object : ∀ a value, R a value → ∃ members, value = .object members) :
    ∃ e, UriLocation.decode (.array values) = .error e := by
  cases read : UriLocation.decode (.array values) with
  | error e => exact ⟨e, rfl⟩
  | ok place =>
    obtain ⟨_, found, named⟩ := (UriLocation.fields_of_decode place read).1
    cases given with
    | nil => cases found
    | cons first later =>
      cases found
      obtain ⟨members, rfl⟩ := object _ _ first
      cases named

theorem readTargets_of_places {places : List UriLocation}
    (given : List.Forall₂ UriLocation.GivenBy places values) :
    readTargets (.array values) = .ok places := by
  obtain ⟨_, single⟩ := not_place_of_objects given fun _ _ given => given.1.exists_members
  have read : Decoder.list UriLocation.decode (.array values) = .ok places :=
    list_of_given given fun _ _ => UriLocation.decode_of_given
  simp only [readTargets, single, read]

theorem readTargets_of_links {links : List LocationLink}
    (given : List.Forall₂ LocationLink.GivenBy links values)
    (bare : ∀ value ∈ values, value.member? "uri" = none) :
    readTargets (.array values) =
      .ok (links.map fun link => ⟨link.target, link.selectionRange⟩) := by
  obtain ⟨_, single⟩ := not_place_of_objects given fun _ _ given => given.2.1.exists_members
  have read : Decoder.list LocationLink.decode (.array values) = .ok links :=
    list_of_given given fun _ _ => LocationLink.decode_of_given
  cases given with
  | nil => rfl
  | @cons link value _ values first later =>
    cases places : Decoder.list UriLocation.decode (.array (value :: values)) with
    | error e => simp only [readTargets, single, places, read]
    | ok places =>
      obtain ⟨_, _, read, _⟩ := list_cons_eq_ok_iff.mp places
      obtain ⟨_, found, _⟩ := (UriLocation.fields_of_decode _ read).1
      obtain ⟨_, target, _⟩ := first.2.1
      rw [Json.fieldAt?_of_member? target, bare value (List.mem_cons_self ..)] at found
      cases found

/-- Whether a URI is that of a file. Schemes are written in letters of both cases. -/
def Uri.isFile (uri : Uri) : Bool :=
  uri.scheme.any fun scheme => String.ofList (scheme.map lower) = "file"

/-- Whether a URI is taken for that of a file of this machine though it is not one of a file. -/
def Uri.IsStray (uri : Uri) : Prop := uri.isFile = false ∧ uri.localPath.isOk = true

/-- The symbol in a local file. -/
def FoundSymbol.inFile? (s : FoundSymbol) : Option WorkspaceSymbol :=
  if s.uri.isFile then s.here? else none

namespace FoundSymbol

theorem length_filterMap_inFile?_le (found : List FoundSymbol) :
    (found.filterMap inFile?).length ≤ (found.filterMap here?).length := by
  have part : found.filterMap inFile? = (found.filter (·.uri.isFile)).filterMap here? :=
    List.filterMap_filter.symm
  rw [part]
  exact (List.filter_sublist.filterMap here?).length_le

/-- The symbols that are kept are those in local files just if none has a stray URI. -/
theorem filterMap_here?_eq_iff {found : List FoundSymbol} :
    found.filterMap here? = found.filterMap inFile? ↔ ∀ s ∈ found, ¬ s.uri.IsStray := by
  induction found with
  | nil => simp
  | cons s rest ih =>
    rw [List.forall_mem_cons]
    by_cases stray : s.uri.IsStray
    · have dropped : s.inFile? = none := if_neg (by simp [stray.1])
      obtain ⟨path, named⟩ := isOk_iff.mp stray.2
      have here : s.here? = some ⟨s.name, s.kind, s.container, path, s.range⟩ := by
        rw [here?, named]
      rw [List.filterMap_cons_some here, List.filterMap_cons_none dropped]
      refine iff_of_false (fun same => ?_) fun kept => kept.1 stray
      have fewer := length_filterMap_inFile?_le rest
      rw [← same, List.length_cons] at fewer
      omega
    · have same : s.inFile? = s.here? := by
        cases file : s.uri.isFile with
        | true => exact if_pos file
        | false =>
          rw [inFile?, if_neg (by simp [file]), here?]
          cases named : s.uri.localPath with
          | error e => rfl
          | ok path => exact absurd ⟨file, isOk_iff.mpr ⟨path, named⟩⟩ stray
      cases here : s.here? with
      | none =>
        rw [List.filterMap_cons_none here, List.filterMap_cons_none (same.trans here), ih,
          and_iff_right stray]
      | some kept =>
        rw [List.filterMap_cons_some here, List.filterMap_cons_some (same.trans here),
          List.cons_inj_right, ih, and_iff_right stray]

end FoundSymbol

/-- No answer loses anything: trees of symbols, symbols with their places, and the targets of a
definition are read as they are given, whatever the shape, and of the symbols that a search found
those in local files are read just if no URI of another scheme names a path as well. -/
theorem answers_are_read_in_full {values : List Json} :
    (∀ symbols, DocumentSymbol.AllGivenBy symbols values →
      readDocumentSymbols (.array values) = .ok symbols) ∧
    (∀ found, List.Forall₂ FoundSymbol.Located found values →
      (∀ value ∈ values, value.member? "selectionRange" = none) →
      readDocumentSymbols (.array values) =
        .ok (found.map fun s => .mk s.name s.kind s.container s.range s.range [])) ∧
    readTargets .null = .ok [] ∧
    (∀ place value, UriLocation.GivenBy place value → readTargets value = .ok [place]) ∧
    (∀ places, List.Forall₂ UriLocation.GivenBy places values →
      readTargets (.array values) = .ok places) ∧
    (∀ links, List.Forall₂ LocationLink.GivenBy links values →
      (∀ value ∈ values, value.member? "uri" = none) →
      readTargets (.array values) =
        .ok (links.map fun link => ⟨link.target, link.selectionRange⟩)) ∧
    ∀ found,
      List.Forall₂ (fun s value => FoundSymbol.Located s value ∨ s.Rangeless value) found values →
      (readWorkspaceSymbols (.array values) = .ok (found.filterMap FoundSymbol.inFile?) ↔
        ∀ s ∈ found, ¬ s.uri.IsStray) := by
  refine ⟨fun symbols given => ?_, fun found => readDocumentSymbols_of_located, rfl,
    fun place value => readTargets_of_place, fun places => readTargets_of_places,
    fun links => readTargets_of_links, fun found given => ?_⟩
  · simp only [readDocumentSymbols, DocumentSymbol.decodeForest_of_given given]
  · rw [readWorkspaceSymbols_of_given given, Except.ok.injEq, FoundSymbol.filterMap_here?_eq_iff]

/-- The labels and the place of a symbol, as a search gives them. -/
def foundValue (name : String) (kind : Int) (place : List (String × Json)) : Json :=
  .object [("kind", .int kind), ("location", .object place), ("name", .string name)]

theorem labels_foundValue {name : String} {kind : Int} (short : IsShort kind)
    (place : List (String × Json)) : (foundValue name kind place).Labels name kind :=
  ⟨⟨_, rfl, rfl⟩, ⟨_, rfl, rfl⟩, short, ⟨none, nofun⟩, ⟨none, nofun⟩⟩

/-- A symbol of which only the file is told is at the start of that file. -/
theorem bare_symbol_is_read :
    let s : FoundSymbol :=
      ⟨"T", 23, none, ⟨"file:///t.rs", some "file".toList, some [], "/t.rs".toList⟩, .origin⟩
    let value := foundValue "T" 23 [("uri", .string "file:///t.rs")]
    s.Rangeless value ∧
      readWorkspaceSymbols (.array [value]) = .ok [⟨"T", 23, none, .ofString "/t.rs", .origin⟩] := by
  intro s value
  have given : s.Rangeless value := by
    refine ⟨⟨labels_foundValue ⟨by decide, by decide⟩ _, nofun⟩, rfl, _, rfl, ?_, rfl⟩
    exact ⟨_, rfl, _, rfl, by decide +kernel⟩
  refine ⟨given, (answers_are_read_in_full.2.2.2.2.2.2 [s] (.cons (.inr given) .nil)).mpr ?_⟩
  rintro _ mem ⟨foreign, _⟩
  obtain rfl := List.mem_singleton.mp mem
  have file : s.uri.isFile = true := by decide +kernel
  exact absurd (file.symm.trans foreign) nofun

/-- A symbol in a revision of a file, which is no local file, is taken for one in that file. -/
theorem revised_symbol_is_kept :
    let s : FoundSymbol :=
      ⟨"F", 12, none, ⟨"git:/a/b", some "git".toList, none, "/a/b".toList⟩, .origin⟩
    let position := Json.object [("character", .nat 0), ("line", .nat 0)]
    let value := foundValue "F" 12
      [("range", .object [("end", position), ("start", position)]), ("uri", .string "git:/a/b")]
    s.Located value ∧ [s].filterMap FoundSymbol.inFile? = [] ∧
      readWorkspaceSymbols (.array [value]) = .ok [⟨"F", 12, none, .ofString "/a/b", .origin⟩] := by
  intro s position value
  have given : s.Located value := by
    refine ⟨⟨labels_foundValue ⟨by decide, by decide⟩ _, nofun⟩, _, rfl, ?_, ?_⟩
    · exact ⟨_, rfl, _, rfl, by decide +kernel⟩
    · exact ⟨_, rfl, ⟨_, rfl, ⟨_, rfl, rfl⟩, ⟨_, rfl, rfl⟩⟩, ⟨_, rfl, ⟨_, rfl, rfl⟩, ⟨_, rfl, rfl⟩⟩⟩
  have foreign : s.uri.isFile = false := by decide +kernel
  refine ⟨given, List.filterMap_cons_none (if_neg (by simp [foreign])), ?_⟩
  exact readWorkspaceSymbols_of_given (.cons (.inl given) .nil)

end CodeIntel
