import CodeIntel.Plan
import CodeIntel.Settings.Basic

namespace CodeIntel.Settings

/-- What stands before the name of a variable whose value is wanted. -/
def opening : List Char := ['\x7b', 'e', 'n', 'v', ':']

def closing : Char := '\x7d'

/-- A reference to a variable at the start of a text: its name and the text behind it. -/
def reference? (cs : List Char) : Option (List Char × List Char) :=
  if opening.isPrefixOf cs then
    let rest := cs.drop opening.length
    match rest.takeWhile (· ≠ closing), rest.dropWhile (· ≠ closing) with
    | [], _ => none
    | _, [] => none
    | name, _ :: behind => some (name, behind)
  else none

/-- The first reference in a text, with the text before it (last character first) and behind
it. -/
def findReference? (before : List Char) : List Char →
    Option (List Char × List Char × List Char)
  | [] => none
  | c :: cs =>
    match reference? (c :: cs) with
    | some (name, behind) => some (before, name, behind)
    | none => findReference? (c :: before) cs

end CodeIntel.Settings

namespace CodeIntel

/-- What the loading of settings asks of the machine. -/
inductive Lookup
  | realPath (path : Path)
  | present (path : Path)
  | readText (path : Path)
  /-- The value of an environment variable. -/
  | envValue (name : String)

abbrev Lookup.Reply : Lookup → Type
  | realPath _ => Except FileError Path
  | present _ => Bool
  | readText _ => Except FileError String
  | envValue _ => Option String

/-- Steps that load something. -/
abbrev Loading := ExceptT SettingsError (Plan Lookup Lookup.Reply)

namespace Settings

def look (q : Lookup) : Loading q.Reply := liftM (m := Plan Lookup Lookup.Reply) (Plan.query q)

/-- Puts the values of variables in the stead of references to them, from the first to the last.
Each round takes a reference out of the text, which bounds the rounds. -/
def substitute : Nat → List Char → Loading (List Char)
  | 0, text => pure text
  | rounds + 1, text =>
    match findReference? [] text with
    | none => pure text
    | some (before, name, behind) => do
      let name := String.ofList name
      match ← look (.envValue name) with
      | none => throw (.variableNotFound name)
      | some value => do
        let rest ← substitute rounds behind
        pure (before.reverse ++ value.toList ++ rest)

def substituteAll (text : String) : Loading String := do
  let filled ← substitute text.length text.toList
  pure (String.ofList filled)

def loadFile (path : Path) : Loading SettingsFile := do
  match ← look (.readText path) with
  | .error e => throw (.unreadable path e)
  | .ok text =>
    match SettingsFile.ofText? (← substituteAll text) with
    | some file => pure file
    | none => throw (.malformed path)

def addPresent (path : Path) (found : SettingsFile × List Path) :
    Loading (SettingsFile × List Path) := do
  if ← look (.present path) then
    let file ← loadFile path
    pure (found.1.merge file, found.2 ++ [path])
  else pure found

def addRequired (path : Path) (found : SettingsFile × List Path) :
    Loading (SettingsFile × List Path) := do
  let file ← loadFile path
  pure (found.1.merge file, found.2 ++ [path])

def userDirectory : Loading (Option Path) := do
  let named := (← look (.envValue "XDG_CONFIG_HOME")).map Path.ofString
  match named.filter Path.isAbsolute with
  | some directory => pure (some directory)
  | none =>
    let home := (← look (.envValue "HOME")).filter fun h => h ≠ ""
    pure (home.map fun h => (Path.ofString h).join (.ofString ".config"))

def userFile (directory : Path) : Path := directory.join (.ofString "lspbridge/config.json")

def workspaceFile (workspace : Path) : Path := workspace.join (.ofString "lspbridge.json")

/-- Loads the settings: the user's file counts least, then the file of the workspace or the one
that the command line names in its stead, then the command line. -/
def load (line : CommandLine) : Loading Settings := do
  match ← look (.realPath line.workspace) with
  | .error e => throw (.workspaceNotFound line.workspace e)
  | .ok workspace =>
    let found : SettingsFile × List Path := (.empty, [])
    let found ←
      match ← userDirectory with
      | some directory => addPresent (userFile directory) found
      | none => pure found
    let found ←
      match line.config with
      | some path => addRequired path found
      | none => addPresent (workspaceFile workspace) found
    (resolve line found.1 workspace found.2 : Except SettingsError Settings)

end Settings

end CodeIntel
