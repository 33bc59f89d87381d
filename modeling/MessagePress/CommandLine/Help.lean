import MessagePress.CommandLine.Arguments

/-! What the program says of itself and of arguments that it refuses. -/

namespace MessagePress.CommandLine

def programName : String := "kafka-pusher"

def programVersion : String := "0.1.0"

def environmentVariable : String := "KAFKA_PUSHER_CONFIG"

def versionText : String := programName ++ " " ++ programVersion ++ "\n"

def usageLine : String := "Usage: " ++ programName ++ " [OPTIONS]"

/-- The options with what they do; the value of the environment is shown with the option that
it stands in for. -/
def helpText (environment : Option String) : String :=
  "Generate templated JSON messages and push them to Kafka\n\n" ++ usageLine ++ "\n\nOptions:\n" ++
  "  -c, --config <CONFIG>  Path to the configuration file [env: " ++ environmentVariable ++ "=" ++
    environment.getD "" ++ "] [default: " ++ defaultConfigPath ++ "]\n" ++
  "      --once             Push once and exit even if the scheduler is enabled\n" ++
  "      --dry-run          Print generated messages to stdout instead of sending them\n" ++
  "  -h, --help             Print help\n" ++
  "  -V, --version          Print version\n"

def Refusal.message : Refusal → String
  | .unknown argument none => "unexpected argument '" ++ argument ++ "' found"
  | .unknown argument (some flag) =>
    "unexpected argument '" ++ argument ++ "' found\n\n  tip: a similar argument exists: '--" ++
      flag.long ++ "'"
  | .missingValue flag => "a value is required for '" ++ flag.shown ++ "' but none was supplied"
  | .unneededValue flag value =>
    "unexpected value '" ++ value ++ "' for '" ++ flag.shown ++ "' found; no more were expected"
  | .repeated flag => "the argument '" ++ flag.shown ++ "' cannot be used multiple times"

/-- The program's own options as alternatives. -/
def ownOptions : String :=
  "<" ++ "|".intercalate ((Flag.all.filter Flag.isOwn).map Flag.shown) ++ ">"

def Shown.usage (shown : Shown) : String :=
  let parts := (shown.other.map Flag.shown).toList ++ if shown.own then [ownOptions] else []
  if parts.isEmpty then usageLine
  else "Usage: " ++ programName ++ " " ++ " ".intercalate parts

/-- Where a value is missing, no usage is shown. -/
def refusalText (refusal : Refusal) (shown : Shown) : String :=
  let usage := match refusal with
    | .missingValue _ => ""
    | _ => "\n\n" ++ shown.usage
  "error: " ++ refusal.message ++ usage ++ "\n\nFor more information, try '--help'.\n"

end MessagePress.CommandLine
