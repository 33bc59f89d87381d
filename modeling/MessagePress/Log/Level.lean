import MessagePress.Text.Blank

/-! The levels at which log lines are kept. -/

namespace MessagePress.Log

inductive Level
  | trace
  | debug
  | info
  | warn
  | error
  deriving DecidableEq, Repr

namespace Level

def name : Level → String
  | trace => "trace"
  | debug => "debug"
  | info => "info"
  | warn => "warn"
  | error => "error"

/-- The name in front of a log line. -/
def label : Level → String
  | trace => "TRACE"
  | debug => "DEBUG"
  | info => "INFO"
  | warn => "WARN"
  | error => "ERROR"

/-- The level of a name in any case of ASCII letters; an unknown name means `info`. -/
def ofText (text : String) : Level :=
  match String.ofList ((Text.trim Text.isBlank text.toList).map Char.toLower) with
  | "trace" => trace
  | "debug" => debug
  | "warn" | "warning" => warn
  | "error" => error
  | _ => info

end Level

end MessagePress.Log
