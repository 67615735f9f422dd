import CodeIntel.Path.Normal
import CodeIntel.Program.Executable

namespace CodeIntel.Shell

/-- A part of a word: characters as they stand, or a variable. -/
inductive Piece
  | plain (c : Char)
  | variable (name : String) (quoted : Bool)
deriving DecidableEq, Repr

abbrev Word := List Piece

/-- Where a script is being read. -/
inductive Mode
  | bare
  | singleQuoted
  | doubleQuoted
  | comment
  /-- Behind a backslash. -/
  | escaped (quoted : Bool)
  /-- Behind a dollar sign. -/
  | dollar (quoted : Bool)
  /-- In the name of a variable, with or without braces; its letters stand last first. -/
  | name (quoted braced : Bool) (letters : List Char)
deriving DecidableEq, Repr

/-- A script as far as it is read; everything in it stands last first. -/
structure Reading where
  commands : List (List Word)
  words : List Word
  word : Option Word
  mode : Mode

namespace Reading

def start : Reading := ⟨[], [], none, .bare⟩

def add (r : Reading) (p : Piece) : Reading := { r with word := some (p :: r.word.getD []) }

def endWord (r : Reading) : Reading :=
  { r with words := (r.word.map List.reverse).toList ++ r.words, word := none }

def endCommand (r : Reading) : Reading :=
  let r := r.endWord
  { r with commands := r.words.reverse :: r.commands, words := [] }

def outside (quoted : Bool) : Mode := if quoted then .doubleQuoted else .bare

/-- Whether the word so far ends in a sign that sends output elsewhere. -/
def isSending (r : Reading) : Bool := (r.word.bind List.head?) = some (.plain '>')

def stepBare (r : Reading) (c : Char) : Reading :=
  match c with
  | ' ' | '\t' => r.endWord
  | '\n' | ';' => r.endCommand
  | '&' => if r.isSending then r.add (.plain c) else r.endCommand
  | '\'' => { r with word := some (r.word.getD []), mode := .singleQuoted }
  | '"' => { r with word := some (r.word.getD []), mode := .doubleQuoted }
  | '\\' => { r with mode := .escaped false }
  | '$' => { r with mode := .dollar false }
  | '#' => if r.word = none then { r with mode := .comment } else r.add (.plain c)
  | _ => r.add (.plain c)

def stepDoubleQuoted (r : Reading) (c : Char) : Reading :=
  match c with
  | '"' => { r with mode := .bare }
  | '\\' => { r with mode := .escaped true }
  | '$' => { r with mode := .dollar true }
  | _ => r.add (.plain c)

/-- Reads a character that stands in no name of a variable. -/
def stepOutside (r : Reading) (quoted : Bool) (c : Char) : Reading :=
  let r := { r with mode := outside quoted }
  if quoted then r.stepDoubleQuoted c else r.stepBare c

def addVariable (r : Reading) (quoted : Bool) (letters : List Char) : Reading :=
  { r.add (.variable (String.ofList letters.reverse) quoted) with mode := outside quoted }

def isNameLetter (c : Char) : Bool := c.isAlphanum || c = '_'

def stepDollar (r : Reading) (quoted : Bool) (c : Char) : Reading :=
  if c = '@' || c = '*' || c = '#' || c.isDigit then r.addVariable quoted [c]
  else if c = '\x7b' then { r with mode := .name quoted true [] }
  else if isNameLetter c then { r with mode := .name quoted false [c] }
  else (r.add (.plain '$')).stepOutside quoted c

def stepName (r : Reading) (quoted braced : Bool) (letters : List Char) (c : Char) : Reading :=
  if braced then
    if c = '\x7d' then r.addVariable quoted letters
    else { r with mode := .name quoted true (c :: letters) }
  else if isNameLetter c then { r with mode := .name quoted false (c :: letters) }
  else (r.addVariable quoted letters).stepOutside quoted c

def isEscapable (c : Char) : Bool := ['"', '\\', '$'].contains c

/-- Reads a character behind a backslash; a line break falls away with it. Within quotes a backslash
stands for itself before most characters. -/
def stepEscaped (r : Reading) (quoted : Bool) (c : Char) : Reading :=
  let r := { r with mode := outside quoted }
  if c = '\n' then r
  else if quoted && !isEscapable c then (r.add (.plain '\\')).add (.plain c)
  else r.add (.plain c)

def step (r : Reading) (c : Char) : Reading :=
  match r.mode with
  | .bare => r.stepBare c
  | .singleQuoted => if c = '\'' then { r with mode := .bare } else r.add (.plain c)
  | .doubleQuoted => r.stepDoubleQuoted c
  | .comment => if c = '\n' then { r with mode := .bare }.endCommand else r
  | .escaped quoted => r.stepEscaped quoted c
  | .dollar quoted => r.stepDollar quoted c
  | .name quoted braced letters => r.stepName quoted braced letters c

end Reading

/-- The commands of a script, each with its words. -/
def commands (script : List Char) : List (List Word) :=
  let r := (script ++ ['\n']).foldl Reading.step .start
  (r.commands.filter fun words => words ≠ []).reverse

end CodeIntel.Shell

namespace CodeIntel

structure StartedServer where
  args : List String
  env : Environment
  directory : Path

/-- What a command turns out to be for whoever talks to it. -/
inductive Peer
  | server (server : StartedServer)
  | echo
  | silent

namespace Shell

def isBlank (c : Char) : Bool := c = ' ' || c = '\t' || c = '\n'

def words (text : List Char) : List String :=
  ((text.splitBy fun a b => isBlank a = isBlank b).filter fun run => !run.any isBlank).map String.ofList

/-- What a script knows. -/
structure State where
  around : Site
  script : String
  args : List String
  /-- The variables that are not handed on to programs. -/
  own : Environment

namespace State

/-- What a name with a dollar sign before it stands for. -/
def value (s : State) (name : String) : String :=
  if name = "*" then " ".intercalate s.args
  else if name = "#" then s.args.length.repr
  else
    match name.toNat? with
    | some 0 => s.script
    | some n => (s.args[n - 1]?).getD ""
    | none => ((s.around.env.value? name).or (s.own.value? name)).getD ""

/-- Goes to another directory, if there is one of that name. -/
def moveTo (s : State) (directory : String) : State :=
  let path := (s.around.directory.join (.ofString directory)).normal
  match s.around.files.find path true with
  | .ok (place, .directory _) => { s with around := { s.around with directory := Tree.pathOf place } }
  | _ => s

/-- Ties several arguments to a word: the first continues it, the last may be continued. -/
def tie (word : Option String) : List String → List String × Option String
  | [] => ([], word)
  | [one] => ([], some (word.getD "" ++ one))
  | first :: rest => ((word.getD "" ++ first) :: rest.dropLast, rest.getLast?)

/-- Ties the words of a text to a word; blanks at either end of the text part them from it. -/
def spread (word : Option String) (text : List Char) : List String × Option String :=
  let before := if (text.head?.any isBlank) then word.toList else []
  let word := if before = [] then word else none
  let (done, word) := tie word (words text)
  if text.getLast?.any isBlank then (before ++ done ++ word.toList, none)
  else (before ++ done, word)

/-- The texts that a word stands for. -/
def expand (s : State) (w : Word) : List String :=
  let start := if w = [] then some "" else none
  let (done, last) := w.foldl (fun (done, word) piece =>
    match piece with
    | .plain c => (done, some (word.getD "" ++ String.singleton c))
    | .variable name quoted =>
      if name = "@" || (name = "*" && !quoted) then
        let (more, word) := tie word s.args
        (done ++ more, word)
      else if quoted then (done, some (word.getD "" ++ s.value name))
      else
        let (more, word) := spread word (s.value name).toList
        (done ++ more, word)) (([] : List String), start)
  done ++ last.toList

end State

/-- The name and the value in a word that sets a variable. -/
def assignment? (word : String) : Option (String × String) :=
  let name := word.toList.takeWhile Reading.isNameLetter
  match word.toList.drop name.length with
  | '=' :: value =>
    if name = [] || (name.head?.any Char.isDigit) then none
    else some (String.ofList name, String.ofList value)
  | _ => none

/-- The variables that are set first, and the words behind them. -/
def settingFirst : List String → List (String × String) × List String
  | [] => ([], [])
  | word :: rest =>
    match assignment? word with
    | some entry => let (more, words) := settingFirst rest; (entry :: more, words)
    | none => ([], word :: rest)

/-- Whether a word tells where input comes from or output goes to. -/
def isSending (word : String) : Bool :=
  match word.toList.dropWhile Char.isDigit with
  | '<' :: _ | '>' :: _ => true
  | _ => false

/-- The words without those that send input or output elsewhere. -/
def withoutSending : List String → List String
  | [] => []
  | [word] => if isSending word then [] else [word]
  | word :: next :: rest =>
    if !isSending word then word :: withoutSending (next :: rest)
    else if word.endsWith "<" || word.endsWith ">" then withoutSending rest
    else withoutSending (next :: rest)

def setAll (around : Site) (entries : List (String × String)) : Site :=
  { around with env := entries.foldl (fun env e => env.set e.1 e.2) around.env }

/-- Sets a variable. It is handed on if it was before. -/
def State.assign (s : State) (entry : String × String) : State :=
  if (s.around.env.value? entry.1).isSome then { s with around := setAll s.around [entry] }
  else { s with own := s.own.set entry.1 entry.2 }

/-- Has a variable handed on, which may be set with it. -/
def State.handOn (s : State) (word : String) : State :=
  let value := (s.own.value? word).map fun value => (word, value)
  { s with around := setAll s.around ((assignment? word).or value).toList }

/-- What one command of a script comes to. -/
inductive Effect
  /-- The script goes on. -/
  | next (state : State)
  /-- Runs a command; the script goes on behind it unless the command takes its place. -/
  | run (around : Site) (replacing : Bool) (command : String) (args : List String)
  | quit

def effect (s : State) (words : List String) : Effect :=
  let (entries, words) := settingFirst (withoutSending words)
  let around := setAll s.around entries
  match words with
  | [] => .next (entries.foldl State.assign s)
  | "exec" :: command :: args => .run around true command args
  | "cd" :: directory :: _ => .next (({ s with around := around } : State).moveTo directory)
  | "shift" :: _ => .next { s with args := s.args.drop 1 }
  | "export" :: more => .next (more.foldl State.handOn s)
  | "exit" :: _ => .quit
  | command :: args => .run around false command args

/-- Runs the commands of a script until one of them comes to something that can be talked to. -/
def runCommands (start : Site → String → List String → Peer) : State → List (List Word) → Peer
  | _, [] => .silent
  | s, command :: rest =>
    match effect s (command.flatMap s.expand) with
    | .next s => runCommands start s rest
    | .quit => .silent
    | .run around replacing command args =>
      match start around command args with
      | .silent => if replacing then .silent else runCommands start s rest
      | peer => peer

/-- The commands and the arguments that a shell is given. -/
def script? (around : Site) : List String → Option (String × State)
  | "-c" :: text :: rest => some (text, ⟨around, rest.headD "sh", rest.drop 1, .ofList []⟩)
  | word :: rest =>
    if word.startsWith "-" then script? around rest
    else
      match around.files.readText (around.directory.join (.ofString word)) with
      | .ok text => some (text, ⟨around, word, rest, .ofList []⟩)
      | .error _ => none
  | [] => none

/-- The words of a launcher; one that starts with an option for it is split. -/
def launcherWords : List String → List String
  | [] => []
  | word :: rest =>
    if word.startsWith "-S" then (words (word.toList.drop 2)) ++ rest else word :: rest

/-- What a program turns out to be. -/
def reach (around : Site) : Nat → Executable → List String → Peer
  | _, .silent, _ => .silent
  | _, .echo, args => if args.all (·.startsWith "-") then .echo else .silent
  | _, .server, args => .server ⟨args, around.env, around.directory⟩
  | 0, _, _ => .silent
  | depth + 1, program, args =>
    let start (around : Site) (command : String) (args : List String) :=
      match around.locate true command args with
      | .ok (program, args) => reach around depth program args
      | .error _ => .silent
    match program with
    | .launcher =>
      let (entries, words) := settingFirst (launcherWords args)
      match words with
      | command :: args => start (setAll around entries) command args
      | [] => .silent
    | _ =>
      match script? around args with
      | some (text, s) => runCommands start s (commands text.toList)
      | none => .silent

end Shell

end CodeIntel
