import CodeIntel.Json.Reader

namespace CodeIntel.Json

mutual

/-- A value with other names of members and other strings. -/
def mapTexts (key text : String → String) : Json → Json
  | .string s => .string (text s)
  | .array items => .array (mapItems key text items)
  | .object members => .object (mapMembers key text members)
  | value => value

def mapItems (key text : String → String) : List Json → List Json
  | [] => []
  | item :: rest => mapTexts key text item :: mapItems key text rest

def mapMembers (key text : String → String) : List (String × Json) → List (String × Json)
  | [] => []
  | (name, value) :: rest => (key name, mapTexts key text value) :: mapMembers key text rest

end

mutual

/-- The names of members, wherever they stand in a value. -/
def names : Json → List String
  | .array items => namesOfItems items
  | .object members => namesOfMembers members
  | _ => []

def namesOfItems : List Json → List String
  | [] => []
  | item :: rest => names item ++ namesOfItems rest

def namesOfMembers : List (String × Json) → List String
  | [] => []
  | (name, value) :: rest => name :: names value ++ namesOfMembers rest

end

variable {key text : String → String}

theorem mapItems_eq (items : List Json) : mapItems key text items = items.map (mapTexts key text) := by
  induction items with
  | nil => rfl
  | cons item rest ih => rw [mapItems, ih, List.map_cons]

theorem mapMembers_eq (members : List (String × Json)) :
    mapMembers key text members = members.map (Prod.map key (mapTexts key text)) := by
  induction members with
  | nil => rfl
  | cons member rest ih => rw [mapMembers, ih, List.map_cons]; rfl

@[simp]
theorem mapTexts_array (items : List Json) :
    mapTexts key text (.array items) = .array (items.map (mapTexts key text)) :=
  congrArg Json.array (mapItems_eq items)

@[simp]
theorem mapTexts_object (members : List (String × Json)) :
    mapTexts key text (.object members) = .object (members.map (Prod.map key (mapTexts key text))) :=
  congrArg Json.object (mapMembers_eq members)

mutual

theorem mapTexts_congr : (value : Json) → (∀ name ∈ names value, key name = name) →
    mapTexts key text value = mapTexts id text value
  | .null, _ | .bool _, _ | .number _, _ | .string _, _ => rfl
  | .array items, h => congrArg Json.array (mapItems_congr items h)
  | .object members, h => congrArg Json.object (mapMembers_congr members h)

theorem mapItems_congr : (items : List Json) → (∀ name ∈ namesOfItems items, key name = name) →
    mapItems key text items = mapItems id text items
  | [], _ => rfl
  | item :: rest, h => by
    obtain ⟨here, later⟩ := List.forall_mem_append.mp h
    rw [mapItems, mapItems, mapTexts_congr item here, mapItems_congr rest later]

theorem mapMembers_congr : (members : List (String × Json)) →
    (∀ name ∈ namesOfMembers members, key name = name) →
    mapMembers key text members = mapMembers id text members
  | [], _ => rfl
  | (name, value) :: rest, h => by
    obtain ⟨same, h⟩ := List.forall_mem_cons.mp h
    obtain ⟨here, later⟩ := List.forall_mem_append.mp h
    rw [mapMembers, mapMembers, mapTexts_congr value here, mapMembers_congr rest later, same]
    rfl

end

def Token.mapText (f : String → String) : Token → Token
  | .string s => .string (f s)
  | token => token

def Frame.mapTexts (f : String → String) : Frame → Frame
  | .array items => .array (items.map (Json.mapTexts f f))
  | .object members key => .object (members.map (Prod.map f (Json.mapTexts f f))) (f key)
  | .nameless => .nameless

def Expecting.mapTexts (f : String → String) : Expecting → Expecting
  | .colon key => .colon (f key)
  | .nothing whole => .nothing (whole.mapTexts f f)
  | expecting => expecting

namespace Reader

/-- A reader that has read other texts, with room for other depths. -/
def mapTexts (f : String → String) (depth : Nat) (r : Reader) : Reader where
  expecting := r.expecting.mapTexts f
  frames := r.frames.map (Frame.mapTexts f)
  depth := depth
  standIn := r.standIn.mapTexts f f

variable {f : String → String} {depth : Nat} {r next : Reader} {token : Token}

theorem mapTexts_finish (blank : f "" = "") (value : Json) (frames : List Frame) :
    (r.finish value frames).mapTexts f depth =
      (r.mapTexts f depth).finish (value.mapTexts f f) (frames.map (Frame.mapTexts f)) := by
  cases frames with
  | nil => rfl
  | cons frame frames =>
    cases frame with
    | array items => rfl
    | object members key => simp [finish, mapTexts, Frame.mapTexts, Expecting.mapTexts, blank]
    | nameless => rfl

theorem mapTexts_push (room : r.frames.length < r.depth) (room' : r.frames.length < depth)
    (frame : Frame) (expecting : Expecting) :
    (r.mapTexts f depth).push (frame.mapTexts f) (expecting.mapTexts f) =
      (r.push frame expecting).map (mapTexts f depth) := by
  have room' : (r.mapTexts f depth).frames.length < (r.mapTexts f depth).depth := by
    simpa [mapTexts] using room'
  unfold push
  rw [if_pos room, if_pos room']
  rfl

theorem mapTexts_closeArray (blank : f "" = "") :
    (r.mapTexts f depth).closeArray = r.closeArray.map (mapTexts f depth) := by
  obtain ⟨expecting, frames, _, standIn⟩ := r
  cases frames with
  | nil => rfl
  | cons frame frames =>
    cases frame with
    | array items =>
      simp only [closeArray, Option.map_some, mapTexts_finish blank, mapTexts_array, List.map_reverse]
      rfl
    | object members key => rfl
    | nameless => rfl

theorem mapTexts_closeObject (blank : f "" = "") :
    (r.mapTexts f depth).closeObject = r.closeObject.map (mapTexts f depth) := by
  obtain ⟨expecting, frames, _, standIn⟩ := r
  cases frames with
  | nil => rfl
  | cons frame frames =>
    cases frame with
    | array items => rfl
    | object members key =>
      simp only [closeObject, Option.map_some, mapTexts_finish blank, mapTexts_object,
        List.map_reverse]
      rfl
    | nameless =>
      simp only [closeObject, Option.map_some, mapTexts_finish blank]
      rfl

theorem mapTexts_readValue (blank : f "" = "") (room : r.frames.length < r.depth)
    (room' : r.frames.length < depth) (token : Token) :
    (r.mapTexts f depth).readValue (token.mapText f) =
      (r.readValue token).map (mapTexts f depth) := by
  have finish (value : Json) : some ((r.mapTexts f depth).finish (value.mapTexts f f)
      (r.mapTexts f depth).frames) = (some (r.finish value r.frames)).map (mapTexts f depth) :=
    congrArg some (mapTexts_finish blank value r.frames).symm
  cases token with
  | openObject =>
    have opened : (r.mapTexts f depth).push (.object [] (f "")) .keyOrClose = _ :=
      mapTexts_push room room' (.object [] "") .keyOrClose
    rw [blank] at opened
    exact opened
  | openArray => exact mapTexts_push room room' (.array []) .valueOrClose
  | string s => exact finish (.string s)
  | number n => exact finish (.number n)
  | bool b => exact finish (.bool b)
  | null => exact finish .null
  | valueless => exact finish r.standIn
  | closeObject | closeArray | colon | comma => rfl

theorem mapTexts_readColon (key : String) :
    (r.mapTexts f depth).readColon (f key) = (r.readColon key).map (mapTexts f depth) := by
  obtain ⟨expecting, frames, _, standIn⟩ := r
  cases frames with
  | nil => rfl
  | cons frame frames => cases frame <;> rfl

theorem mapTexts_readComma :
    (r.mapTexts f depth).readComma = r.readComma.map (mapTexts f depth) := by
  obtain ⟨expecting, frames, _, standIn⟩ := r
  cases frames with
  | nil => rfl
  | cons frame frames => cases frame <;> rfl

theorem mapTexts_readNameless (blank : f "" = "") :
    (r.mapTexts f depth).readNameless = r.readNameless.mapTexts f depth := by
  simp [readNameless, mapTexts, Frame.mapTexts, Expecting.mapTexts, blank]

theorem mapTexts_step (blank : f "" = "") (room : r.frames.length < r.depth)
    (room' : r.frames.length < depth) (token : Token) :
    (r.mapTexts f depth).step (token.mapText f) = (r.step token).map (mapTexts f depth) := by
  have value : (r.mapTexts f depth).readValue (token.mapText f) = _ :=
    mapTexts_readValue blank room room' token
  have array : (r.mapTexts f depth).closeArray = _ := mapTexts_closeArray blank
  have object : (r.mapTexts f depth).closeObject = _ := mapTexts_closeObject blank
  have comma : (r.mapTexts f depth).readComma = _ := mapTexts_readComma
  have nameless : some (r.mapTexts f depth).readNameless = _ :=
    congrArg some (mapTexts_readNameless blank)
  obtain ⟨expecting, frames, _, standIn⟩ := r
  cases expecting with
  | value => exact value
  | valueOrClose =>
    cases token with
    | closeArray => exact array
    | _ => exact value
  | keyOrClose =>
    cases token with
    | closeObject => exact object
    | valueless => exact nameless
    | _ => rfl
  | key =>
    cases token with
    | valueless => exact nameless
    | _ => rfl
  | colon key =>
    cases token with
    | colon => exact mapTexts_readColon key
    | _ => rfl
  | commaOrClose =>
    cases token with
    | comma => exact comma
    | closeArray => exact array
    | closeObject => exact object
    | _ => rfl
  | nothing whole => cases token <;> rfl

/-- Whether a reader has opened one array or object more at most, with the room for them as it
was. -/
structure Opens (r next : Reader) : Prop where
  frames : next.frames.length ≤ r.frames.length + 1
  depth : next.depth = r.depth

theorem opens_finish (value : Json) {frames : List Frame}
    (fewer : frames.length ≤ r.frames.length) : Opens r (r.finish value frames) := by
  cases frames with
  | nil => exact ⟨Nat.zero_le _, rfl⟩
  | cons frame frames => cases frame <;> exact ⟨Nat.le_succ_of_le fewer, rfl⟩

theorem opens_push {frame : Frame} {expecting : Expecting}
    (h : r.push frame expecting = some next) : Opens r next := by
  unfold push at h
  split at h
  · cases h
    exact ⟨Nat.le_refl _, rfl⟩
  · cases h

theorem opens_closeArray (h : r.closeArray = some next) : Opens r next := by
  unfold closeArray at h
  split at h
  next frames eq =>
    cases h
    exact opens_finish _ (by simp [eq])
  next => cases h

theorem opens_closeObject (h : r.closeObject = some next) : Opens r next := by
  unfold closeObject at h
  split at h
  next eq =>
    cases h
    exact opens_finish _ (by simp [eq])
  next eq =>
    cases h
    exact opens_finish _ (by simp [eq])
  next => cases h

theorem opens_readValue (h : r.readValue token = some next) : Opens r next := by
  have finish {value : Json} (h : some (r.finish value r.frames) = some next) : Opens r next := by
    cases h
    exact opens_finish value (Nat.le_refl _)
  cases token with
  | openObject | openArray => exact opens_push h
  | string | number | bool | null | valueless => exact finish h
  | closeObject | closeArray | colon | comma => cases h

theorem opens_readColon {key : String} (h : r.readColon key = some next) : Opens r next := by
  unfold readColon at h
  split at h
  next eq =>
    cases h
    exact ⟨by simp [eq], rfl⟩
  next eq =>
    cases h
    exact ⟨Nat.le_succ _, rfl⟩
  next => cases h

theorem opens_readComma (h : r.readComma = some next) : Opens r next := by
  unfold readComma at h
  split at h
  · cases h
    exact ⟨Nat.le_succ _, rfl⟩
  · cases h
  · cases h
    exact ⟨Nat.le_succ _, rfl⟩

theorem opens_readNameless (r : Reader) : Opens r r.readNameless :=
  ⟨Nat.succ_le_succ (by simp), rfl⟩

theorem opens_step (h : r.step token = some next) : Opens r next := by
  have same {expecting : Expecting} (h : some { r with expecting := expecting } = some next) :
      Opens r next := by
    cases h
    exact ⟨Nat.le_succ _, rfl⟩
  have nameless (h : some r.readNameless = some next) : Opens r next := by
    cases h
    exact opens_readNameless r
  unfold step at h
  split at h
  · exact opens_readValue h
  · exact opens_closeArray h
  · exact opens_readValue h
  · exact opens_closeObject h
  · exact same h
  · exact nameless h
  · exact same h
  · exact nameless h
  · exact opens_readColon h
  · exact opens_readComma h
  · exact opens_closeArray h
  · exact opens_closeObject h
  · cases h

/-- Readers that have read other texts stay so, where each token has room. -/
theorem mapTexts_run (blank : f "" = "") {tokens : List Token}
    (room : r.frames.length + tokens.length ≤ r.depth)
    (room' : r.frames.length + tokens.length ≤ depth) :
    (r.mapTexts f depth).run (tokens.map (Token.mapText f)) =
      (r.run tokens).map (mapTexts f depth) := by
  induction tokens generalizing r with
  | nil => rfl
  | cons token rest ih =>
    rw [List.length_cons] at room room'
    have here : r.frames.length < r.depth ∧ r.frames.length < depth := by omega
    rw [List.map_cons, run, run, mapTexts_step blank here.1 here.2]
    cases step : r.step token with
    | none => rfl
    | some next =>
      obtain ⟨frames, same⟩ := opens_step step
      exact ih (by omega) (by omega)

theorem mapTexts_value? : (r.mapTexts f depth).value? = r.value?.map (Json.mapTexts f f) := by
  obtain ⟨expecting, frames, _, standIn⟩ := r
  cases expecting <;> rfl

end Reader

/-- The value of tokens with other texts, however deep arrays and objects may stand in it. -/
theorem ofTokens?_mapText {f : String → String} (blank : f "" = "") {depth depth' : Nat}
    {standIn : Json} (same : standIn.mapTexts f f = standIn) {tokens : List Token}
    (room : tokens.length ≤ depth) (room' : tokens.length ≤ depth') :
    ofTokens? depth' standIn (tokens.map (Token.mapText f)) =
      (ofTokens? depth standIn tokens).map (mapTexts f f) := by
  have start : Reader.start depth' standIn =
      (Reader.start depth standIn).mapTexts f depth' := by
    simp [Reader.start, Reader.mapTexts, Expecting.mapTexts, same]
  have run := Reader.mapTexts_run (r := .start depth standIn) blank
    (by simpa [Reader.start] using room) (by simpa [Reader.start] using room')
  rw [ofTokens?, ofTokens?, start, run]
  cases (Reader.start depth standIn).run tokens with
  | none => rfl
  | some r => exact Reader.mapTexts_value?

end CodeIntel.Json
