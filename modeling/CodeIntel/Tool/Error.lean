import CodeIntel.Server.Error
import CodeIntel.Path.Basic
import CodeIntel.Text.Quoted

namespace CodeIntel

/-- Why a tool fails. -/
inductive ToolError
  | validation (reason : String)
  | symbolNotFound (query : String)
  | ambiguousSymbol (query : String) (candidates : List String)
  | backend (cause : ServerError)
  | invalidEditRange (reason : String)
  | indexOutOfRange (index : Int) (count : Nat)
  | fileIo (path : Path) (cause : String)
  | diagnosticsUnavailable (path : Path)
  | cancelled

namespace ToolError

def message : ToolError → String
  | validation reason => s!"Validation error: {reason}"
  | symbolNotFound query => s!"Symbol not found: {query}"
  | ambiguousSymbol query candidates =>
    "Ambiguous symbol " ++ quoted query ++ ", candidates: " ++ ", ".intercalate candidates
  | backend cause => s!"Language server error: {cause.message}"
  | invalidEditRange reason => s!"Invalid edit range: {reason}"
  | indexOutOfRange index count =>
    s!"Code lens index {index} out of range: file has {count} code lens(es)"
  | fileIo path cause => s!"File error on {path.text}: {cause}"
  | diagnosticsUnavailable path =>
    s!"Diagnostics unavailable for {path.text}: " ++
      "the language server has not reported diagnostics for this document"
  | cancelled => "Cancelled"

/-- Whether the caller is at fault for what it sent. -/
def isValidation : ToolError → Bool
  | validation _ => true
  | _ => false

end ToolError

/-- A failed call: the operation and why it failed. -/
structure CallError where
  operation : String
  cause : ToolError

def CallError.message (e : CallError) : String := s!"{e.operation} failed: {e.cause.message}"

end CodeIntel
