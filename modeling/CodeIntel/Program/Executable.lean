import CodeIntel.Files.Tree
import CodeIntel.Table
import CodeIntel.Text.Utf8

namespace CodeIntel

/-- The variables of a process. -/
structure Environment where
  table : Table String

namespace Environment

def ofList (entries : List (String × String)) : Environment := ⟨.ofList entries⟩

/-- A variable as the process holds it. -/
def line (entry : String × String) : List Char :=
  (entry.1 ++ "=" ++ entry.2).toList

/-- What stands behind a name and an equals sign in the first line that starts with them. So a name
may reach into the value of a variable, but an empty one finds nothing. -/
def value? (e : Environment) (name : String) : Option String :=
  let start := (name ++ "=").toList
  if name = "" then none
  else
    (e.table.entries.map line).findSome? fun text =>
      if start.isPrefixOf text then some (String.ofList (text.drop start.length)) else none

/-- The variable of a line: its name ends before the first equals sign that does not start it. -/
def ofLine? : List Char → Option (String × String)
  | [] => none
  | first :: rest =>
    match rest.dropWhile (· ≠ '=') with
    | [] => none
    | _ :: value => some (String.ofList (first :: rest.takeWhile (· ≠ '=')), String.ofList value)

/-- The variables of a process that is started with some set anew. -/
def extended (e : Environment) (more : Table String) : Environment :=
  ⟨(Table.ofList ((e.table.entries.map line).filterMap ofLine?)).merge more⟩

def set (e : Environment) (name value : String) : Environment := ⟨e.table.insert name value⟩

/-- Where programs are looked for if no variable says so. -/
def usualDirectories : String := "/bin:/usr/bin"

/-- The directories in which programs are looked for; an empty one is the directory at hand. -/
def directories (e : Environment) : List String :=
  ((e.value? "PATH").getD usualDirectories).splitOn ":"

end Environment

/-- What a program that needs no other one to run does. -/
inductive Executable
  | server
  | shell
  /-- Runs the command that stands behind the variables it is given. -/
  | launcher
  /-- Says what it is told, unless it is given files to read. -/
  | echo
  /-- Says nothing and ends. -/
  | silent
deriving DecidableEq, Repr, Inhabited

/-- Where programs are found and run. -/
structure Site where
  files : Tree
  /-- The files that hold programs. -/
  programs : List (Place × Executable)
  directory : Path
  env : Environment

/-- The program that a script names in its first line. -/
structure Interpreter where
  path : Path
  argument : Option (List UInt8)

namespace Interpreter

def isBlank (b : UInt8) : Bool := b = 0x20 || b = 0x09

/-- So many bytes of a file are looked at; a shorter one has zeros behind it. -/
def headSize : Nat := 256

def head (content : List UInt8) : List UInt8 :=
  (content ++ List.replicate headSize 0).take headSize

def trimRight (line : List UInt8) : List UInt8 := (line.reverse.dropWhile isBlank).reverse

/-- What stands behind the two signs of a first line, if it names a program. A line that reaches out
of the head is taken as far as it goes if the name ends within it. -/
def line? (behind : List UInt8) : Option (List UInt8) :=
  let line := behind.takeWhile fun b => b ≠ 0x0A && b ≠ 0
  match behind.drop line.length with
  | 0x0A :: _ => if line.all isBlank then none else some (trimRight line)
  | _ :: _ => some line
  | [] => if (line.dropWhile isBlank).any isBlank then some (trimRight line.dropLast) else none

/-- A first line names a program and at most one argument, which may hold blanks. -/
def ofContent? (content : List UInt8) : Option Interpreter :=
  match head content with
  | 0x23 :: 0x21 :: behind =>
    (line? behind).map fun line =>
      let line := line.dropWhile isBlank
      let name := line.takeWhile fun b => !isBlank b
      match line.drop name.length with
      | [] => ⟨⟨name⟩, none⟩
      | blanks => ⟨⟨name⟩, some (blanks.dropWhile isBlank)⟩
  | _ => none

end Interpreter

namespace Site

/-- Whether permissions let anybody run a file. -/
def isRunnable (mode : Nat) : Bool := mode &&& 0o111 ≠ 0

/-- The program that a path leads to, with its arguments. A script is given to its interpreter, which
may be a script again, but not without end. -/
def open? (s : Site) :
    Nat → Path → List String → Except FileError (Executable × List String)
  | 0, _, _ => .error .linkLoop
  | scripts + 1, path, args =>
    if path.bytes = [] then .error .notFound
    else
      match s.files.find (s.directory.join path) true with
      | .error e => .error e
      | .ok (place, .file content mode) =>
        if !isRunnable mode then .error .accessDenied
        else
          match s.programs.find? fun p => p.1 = place with
          | some (_, program) => .ok (program, args)
          | none =>
            match Interpreter.ofContent? content with
            | none => .error .badFormat
            | some i =>
              open? s scripts i.path ((i.argument.map lossyText).toList ++ path.text :: args)
      | .ok _ => .error .accessDenied

/-- A program is reached over at most this many scripts less one. -/
def greatestDepth : Nat := 6

/-- A file that is no program may be a script without a first line. -/
def openLoosely (s : Site) (loose : Bool) (path : Path) (args : List String) :
    Except FileError (Executable × List String) :=
  match s.open? greatestDepth path args with
  | .error .badFormat => if loose then .ok (.shell, path.text :: args) else .error .badFormat
  | found => found

/-- The first of some paths at which a program is found. Where none is, a program that may not be
run counts for more than the error at the last path. -/
def firstOf (run : Path → Except FileError α) (denied : Bool) (last : FileError) :
    List Path → Except FileError α
  | [] => .error (if denied then .accessDenied else last)
  | path :: rest =>
    match run path with
    | .error .accessDenied => firstOf run true .accessDenied rest
    | .error .notFound => firstOf run denied .notFound rest
    | .error .notDirectory => firstOf run denied .notDirectory rest
    | found => found

def pathsOf (s : Site) (command : String) : List Path :=
  s.env.directories.map fun directory =>
    .ofString (if directory = "" then command else directory ++ "/" ++ command)

/-- The program of a command: one with a slash is a path. -/
def locate (s : Site) (loose : Bool) (command : String) (args : List String) :
    Except FileError (Executable × List String) :=
  let run (path : Path) := s.openLoosely loose path args
  if command = "" then .error .notFound
  else if command.toList.contains '/' then run (.ofString command)
  else if Tree.greatestName < (utf8Bytes command).length then .error .nameTooLong
  else firstOf run false .notFound (s.pathsOf command)

end Site

end CodeIntel
