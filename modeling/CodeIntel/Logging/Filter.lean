import CodeIntel.Text.Basic

namespace CodeIntel

/-- How much a remark matters. -/
inductive Severity
  | error
  | warn
  | info
  | debug
  | trace
deriving DecidableEq, Repr, Inhabited

/-- The names of the severities, the gravest first. -/
def Severity.names : List (String × Severity) :=
  [("error", error), ("warn", warn), ("info", info), ("debug", debug), ("trace", trace)]

/-- How many severities are as grave at least. -/
def Severity.rank : Severity → Nat
  | error => 1
  | warn => 2
  | info => 3
  | debug => 4
  | trace => 5

/-- What part of the program a remark comes from. -/
inductive Speaker
  | program
  | bridge
  | client
  | transport
  /-- The language server, in its messages. -/
  | server
  /-- The language server, on its error stream. -/
  | serverErrors
  | conversation
  | agentServer
  | tools
  | prompts
  | edits
  | session
deriving DecidableEq, Repr, Inhabited

/-- The name under which filters know a part of the program. -/
def Speaker.target : Speaker → String
  | program => "lspbridge"
  | bridge => "lspbridge::bridge"
  | client => "lspbridge_lsp::client"
  | transport => "lspbridge_lsp::transport"
  | server => "lspbridge_lsp::server"
  | serverErrors => "lspbridge_lsp::stderr"
  | conversation => "lspbridge_mcp::stdio"
  | agentServer => "lspbridge_mcp::serve"
  | tools => "lspbridge_tools::registry"
  | prompts => "lspbridge_tools::prompt"
  | edits => "lspbridge_tools::edit"
  | session => "lspbridge_tools::session"

/-- That the program has something to tell, but not what. -/
structure Remark where
  speaker : Speaker
  severity : Severity
deriving DecidableEq, Repr, Inhabited

/-- A rule of a filter: how much is kept of the remarks that it covers. -/
structure Directive where
  /-- What the names of the parts start with that it covers; none covers all. -/
  target : Option String
  /-- The fields that a remark must have. -/
  fields : List String
  /-- Whether it covers remarks only in the course of something, or with certain values. -/
  special : Bool
  /-- The greatest rank that is kept. -/
  level : Nat
deriving DecidableEq, Repr

namespace Directive

/-- A rule that has not said anything yet keeps everything. -/
def start : Directive := ⟨none, [], false, Severity.trace.rank⟩

/-- A level as a number; a plus sign may stand before it. -/
def numberedLevel? (text : List Char) : Option Nat :=
  let digits := if text.head? = some '+' then text.drop 1 else text
  if digits = [] || digits.any (!Char.isDigit ·) then none
  else
    let n := digits.foldl (fun n c => 10 * n + (c.toNat - '0'.toNat)) 0
    if n ≤ Severity.trace.rank then some n else none

/-- A level by its name in capital or small letters. -/
def namedLevel? (text : List Char) : Option Nat :=
  let name := String.ofList (text.map Char.toLower)
  if name = "off" then some 0 else (Severity.names.find? fun e => e.1 = name).map (·.2.rank)

def level? (text : List Char) : Option Nat := (numberedLevel? text).or (namedLevel? text)

/-- Where a rule is being read; numbers tell where a part of it began. -/
inductive Position
  | start
  | word (start : Nat)
  | span (start : Nat)
  | field (start : Nat)
  | fieldsEnd
  | targetEnd
  | level (start : Nat)
deriving DecidableEq, Repr

/-- The part of a text between two places. -/
def part (text : List Char) (first behind : Nat) : List Char := (text.take behind).drop first

/-- Whether a rule may start with a character. -/
def isInitial (c : Char) : Bool := c.isAlphanum || 0x80 ≤ c.toNat || ['-', ':', '_'].contains c

/-- Takes in a field: its name and perhaps a value. -/
def addField (d : Directive) (text : List Char) : Option Directive :=
  if text = [] then none
  else
    let name := String.ofList (text.takeWhile (· ≠ '='))
    some { d with fields := d.fields ++ [name], special := d.special || text.contains '=' }

/-- Reads the character at a place of a rule. -/
def step (text : List Char) (d : Directive) (p : Position) (place : Nat) (c : Char) :
    Option (Directive × Position) :=
  let named (first : Nat) : Directive :=
    { d with target := some (String.ofList (part text first place)) }
  match p, c with
  | .start, '[' => some (d, .span (place + 1))
  | .start, c => if isInitial c then some (d, .word place) else none
  | .word first, '=' => some (named first, .level (place + 1))
  | .word first, '[' => some (named first, .span (place + 1))
  | .word first, _ => some (d, .word first)
  | .targetEnd, '=' => some (d, .level (place + 1))
  | .span _, ']' => some ({ d with special := true }, .targetEnd)
  | .span first, '\x7b' =>
    some ({ d with special := d.special || part text first place ≠ [] }, .field (place + 1))
  | .span first, _ => some (d, .span first)
  | .field first, '\x7d' => (d.addField (part text first place)).map fun d => (d, .fieldsEnd)
  | .field first, _ => some (d, .field first)
  | .fieldsEnd, ']' => some (d, .targetEnd)
  | .level first, _ => some (d, .level first)
  | _, _ => none

/-- What a rule comes to at its end. A single word is a level or, failing that, a target. -/
def finish (text : List Char) (d : Directive) : Position → Option Directive
  | .word first =>
    match level? (text.drop first) with
    | some level => some { d with level := level }
    | none => some { d with target := some (String.ofList (text.drop first)) }
  | .level first =>
    if text.drop first = [] then some d
    else (level? (text.drop first)).map fun level => { d with level := level }
  | .targetEnd => some d
  | _ => none

/-- Reads a rule. The places of its parts are counted without the blanks around it, but the parts
are cut from the text as it stands. -/
def ofText? (text : List Char) : Option Directive := do
  let (d, p) ← (trimBlank text).zipIdx.foldlM (fun (d, p) (c, place) => d.step text p place c)
    (start, .start)
  d.finish text p

/-- All remarks have this field. -/
def messageField : String := "message"

def covers (d : Directive) (r : Remark) : Bool :=
  !d.special && d.fields.all (· = messageField) &&
    d.target.all fun start => start.toList.isPrefixOf r.speaker.target.toList

/-- Of two rules that cover a remark, the one with the longer target is closer to it, and then the
one with more fields. -/
def isCloser (d e : Directive) : Bool :=
  let size (d : Directive) := (d.target.map fun t => t.length + 1).getD 0
  size e < size d || (size d = size e && e.fields.length < d.fields.length)

end Directive

/-- The parts of the program whose log lines are kept. -/
def logTargets : List String := ["lspbridge", "lspbridge_lsp", "lspbridge_tools", "lspbridge_mcp"]

/-- The level of log lines: the debug level if verbose, else the level asked for. -/
def logLevel (verbose : Bool) (level : Option String) : String :=
  if verbose then "debug" else level.getD "info"

def logFilter (verbose : Bool) (level : Option String) : String :=
  let level := logLevel verbose level
  ",".intercalate (logTargets.map fun target => s!"{target}={level}")

def rulesOf (filter : String) : List (List Char) :=
  (filter.toList.splitOn ',').filter (· ≠ [])

/-- The rules of a filter; those that cannot be read do not count. -/
def directivesOf (filter : String) : List Directive := (rulesOf filter).filterMap Directive.ofText?

/-- The rules of a filter, if all of them can be read. -/
def allDirectivesOf? (filter : String) : Option (List Directive) :=
  (rulesOf filter).mapM Directive.ofText?

/-- The rules by which log lines are kept: those of a filter that the environment gives, if it can be
read, else those of the program's own. -/
def logDirectives (given : Option String) (verbose : Bool) (level : Option String) : List Directive :=
  (given.bind allDirectivesOf?).getD (directivesOf (logFilter verbose level))

/-- Without a rule errors are kept. -/
def onlyErrors : Directive := { Directive.start with level := Severity.error.rank }

/-- The closest of the rules that cover a remark; of rules that are as close, the last. -/
def closest? (r : Remark) (directives : List Directive) : Option Directive :=
  (directives.filter fun d => d.covers r).foldl (fun best d =>
    match best with
    | some b => if b.isCloser d then some b else some d
    | none => some d) none

/-- Whether a remark is kept by some rules. -/
def keeps (directives : List Directive) (r : Remark) : Bool :=
  let directives := if directives.isEmpty then [onlyErrors] else directives
  (closest? r directives).any fun d => r.severity.rank ≤ d.level

end CodeIntel
