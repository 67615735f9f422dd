import CodeIntel.Agent.Error
import CodeIntel.Server.Error
import CodeIntel.Settings.Basic

namespace CodeIntel

/-- Why the program ends with a failure, and what lies behind that, the nearest cause first. -/
structure Failure where
  message : String
  causes : List String

namespace Failure

def indented (space : String) (cause : String) : String := cause.replace "\n" ("\n" ++ space)

/-- The causes; several of them are numbered. -/
def causesText : List String → String
  | [cause] => "    " ++ indented "    " cause
  | causes =>
    "\n".intercalate <| causes.zipIdx.map fun (cause, n) =>
      s!"    {n}: " ++ indented "       " cause

def text (f : Failure) : String :=
  "Error: " ++ f.message ++
    if f.causes.isEmpty then "" else "\n\nCaused by:\n" ++ causesText f.causes

def ofSettings (e : SettingsError) : Failure := ⟨e.message, e.causes⟩

/-- The errors that stand for an error of the machine have that one behind them. -/
def serverCauses : ServerError → List String
  | .io cause => [ServerError.message (.io cause), cause]
  | e => [e.message]

def ofStart (command : String) (e : ServerError) : Failure :=
  ⟨s!"Failed to start language server {command}", serverCauses e⟩

def agentCauses : Agent.ServeError → List String
  | .io cause => [Agent.ServeError.message (.io cause), cause]
  | e => [e.message]

def ofServe (e : Agent.ServeError) : Failure := ⟨"MCP transport failed", agentCauses e⟩

end Failure

end CodeIntel
