import CodeIntel.Decimal
import CodeIntel.Shape.Decoder

namespace CodeIntel

/-- Why bytes or a value could not be read as the JSON that was expected. -/
inductive JsonFault
  | malformed
  | shape (error : ShapeError)

def JsonFault.message : JsonFault → String
  | malformed => "malformed text"
  | shape error => error.message

/-- What goes wrong while talking to a language server. -/
inductive ServerError
  | connectionLost (reason : String)
  | process (reason : String)
  | protocol (reason : String)
  | requestFailed (reason : String)
  | unsupported (method : String)
  | io (cause : String)
  | json (fault : JsonFault)
  | timeout (method : String) (milliseconds : Nat)
  | initialization (reason : String)
  | invalidUri (reason : String)

/-- Seconds are positional and whole ones bear no point. -/
def secondsStyle : Decimal.Style := ⟨fun _ => true, ""⟩

/-- A duration in seconds with single precision: whole seconds and the rest are rounded apart, and
then their sum. -/
def secondsText (milliseconds : Nat) : String :=
  let single := BinaryFormat.single
  let (wholeNum, wholeDen) := (single.nearest (milliseconds / 1000) 1).ratio
  let (nanosNum, nanosDen) := (single.nearest (milliseconds % 1000 * 1000000) 1).ratio
  let (restNum, restDen) := (single.nearest nanosNum (nanosDen * 1000000000)).ratio
  let sum := single.nearest (wholeNum * restDen + restNum * wholeDen) (wholeDen * restDen)
  (sum.shortest single false).text secondsStyle

namespace ServerError

def message : ServerError → String
  | connectionLost reason => s!"Connection to language server lost: {reason}"
  | process reason => s!"Language server process error: {reason}"
  | protocol reason => s!"LSP protocol error: {reason}"
  | requestFailed reason => s!"Request failed: {reason}"
  | unsupported method => s!"Server does not support {method}"
  | io cause => s!"I/O error: {cause}"
  | json fault => s!"JSON error: {fault.message}"
  | timeout method milliseconds => s!"{method} timed out after {secondsText milliseconds}s"
  | initialization reason => s!"Initialization failed: {reason}"
  | invalidUri reason => s!"Invalid URI: {reason}"

/-- Whether the connection can carry no more requests. -/
def isFatal : ServerError → Bool
  | connectionLost _ | process _ | io _ => true
  | _ => false

end ServerError

end CodeIntel
