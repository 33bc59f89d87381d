import MessagePress.Text.Similarity

/-! The arguments of the program. Options have a long name, some a letter too; one of them
takes a value, which may stand behind it, behind an equals sign, or right behind its letter.
Nothing but options is expected. -/

namespace MessagePress.CommandLine

inductive Flag
  | config
  | once
  | dryRun
  | help
  | version
  deriving DecidableEq, Repr

namespace Flag

def long : Flag → String
  | config => "config"
  | once => "once"
  | dryRun => "dry-run"
  | help => "help"
  | version => "version"

def letter? : Flag → Option Char
  | config => some 'c'
  | help => some 'h'
  | version => some 'V'
  | _ => none

def all : List Flag := [config, once, dryRun, help, version]

def ofLong? (name : String) : Option Flag := all.find? fun flag => flag.long == name

def ofLetter? (letter : Char) : Option Flag := all.find? fun flag => flag.letter? == some letter

/-- An option with the value it takes. -/
def shown : Flag → String
  | config => "--config <CONFIG>"
  | flag => "--" ++ flag.long

/-- Whether the option is one of the program's own. -/
def isOwn : Flag → Bool
  | config | once | dryRun => true
  | help | version => false

end Flag

/-- What is wrong with the arguments. -/
inductive Refusal
  | unknown (argument : String) (suggestion : Option Flag)
  | missingValue (flag : Flag)
  | unneededValue (flag : Flag) (value : String)
  | repeated (flag : Flag)
  deriving DecidableEq, Repr

/-- The options that a usage line shows in place of all options: whether one of the program's
own was given, and one more. -/
structure Shown where
  own : Bool
  other : Option Flag
  deriving DecidableEq, Repr

/-- Why the program does not run. -/
inductive Stop
  | help
  | version
  | refused (refusal : Refusal) (shown : Shown)
  deriving DecidableEq, Repr

/-- The arguments read so far. A value is not looked at before the next option is. -/
structure Progress where
  config : Option String := none
  once : Bool := false
  dryRun : Bool := false
  /-- An option that takes a value, and the value if it was met. -/
  pending : Option (Option String) := none
  /-- Whether one of the program's own options was met. -/
  own : Bool := false

def refuse (refusal : Refusal) : Stop := .refused refusal ⟨false, none⟩

namespace Progress

/-- Sets the value of the option that takes one. -/
def setConfig (value : String) (progress : Progress) : Progress × Option Refusal :=
  if progress.config.isSome then
    ({ progress with config := none }, some (.repeated .config))
  else
    ({ progress with config := some value, own := true },
      if value.isEmpty then some (.missingValue .config) else none)

/-- Looks at the value that was put off. -/
def settle (progress : Progress) : Progress × Option Refusal :=
  match progress.pending with
  | none => (progress, none)
  | some none => ({ progress with pending := none }, some (.missingValue .config))
  | some (some value) => { progress with pending := none }.setConfig value

/-- As `settle`, where a fault ends the reading. -/
def settled (progress : Progress) : Except Stop Progress :=
  match progress.settle with
  | (_, some refusal) => .error (refuse refusal)
  | (progress, none) => .ok progress

/-- Takes an option without a value. -/
def switch (flag : Flag) (progress : Progress) : Except Stop Progress := do
  let progress ← progress.settled
  match flag with
  | .help => .error .help
  | .version => .error .version
  | .once =>
    if progress.once then .error (refuse (.repeated flag))
    else .ok { progress with once := true, own := true }
  | .dryRun =>
    if progress.dryRun then .error (refuse (.repeated flag))
    else .ok { progress with dryRun := true, own := true }
  | .config => .ok { progress with pending := some none }

/-- Takes the option that has a value, with its value. -/
def attach (value : String) (progress : Progress) : Except Stop Progress := do
  let progress ← progress.settled
  match progress.setConfig value with
  | (_, some refusal) => .error (refuse refusal)
  | (progress, none) => .ok progress

/-- An unknown option; a name that is like it is suggested. -/
def unknownLong (name : String) (progress : Progress) : Stop :=
  let (progress, _) := progress.settle
  let suggestion := (Text.mostSimilar? name (Flag.all.map Flag.long)).bind Flag.ofLong?
  let own := progress.own || suggestion.any Flag.isOwn
  .refused (.unknown ("--" ++ name) suggestion) ⟨own, suggestion.filter fun flag => !flag.isOwn⟩

/-- Takes an option by its long name, and what stands behind an equals sign. -/
def readLong (name : String) (value : Option String) (progress : Progress) :
    Except Stop Progress :=
  match Flag.ofLong? name, value with
  | none, _ => .error (progress.unknownLong name)
  | some .config, some value => progress.attach value
  | some flag, none => progress.switch flag
  | some flag, some value =>
    let other := if progress.own && flag.isOwn then none else some flag
    .error (.refused (.unneededValue flag value) ⟨progress.own, other⟩)

/-- Takes options by their letters; the rest behind the one that has a value is its value. -/
def readLetters : List Char → Progress → Except Stop Progress
  | [], progress => .ok progress
  | letter :: rest, progress =>
    match Flag.ofLetter? letter with
    | none => .error (refuse (.unknown (String.ofList ['-', letter]) none))
    | some .config =>
      match rest with
      | [] => progress.switch .config
      | '=' :: value => progress.attach (String.ofList value)
      | value => progress.attach (String.ofList value)
    | some flag => do readLetters rest (← progress.switch flag)

/-- Takes one argument. -/
def readArgument (argument : String) (progress : Progress) : Except Stop Progress :=
  match argument.toList with
  | '-' :: '-' :: body =>
    let value := if body.contains '=' then
        some (String.ofList ((body.dropWhile (· != '=')).drop 1))
      else none
    progress.readLong (String.ofList (body.takeWhile (· != '='))) value
  | '-' :: letter :: rest => progress.readLetters (letter :: rest)
  | _ =>
    match progress.pending with
    | some none => .ok { progress with pending := some (some argument) }
    | _ => .error (refuse (.unknown argument none))

/-- Takes all arguments. Behind a double dash nothing is an option. -/
def readAll : List String → Progress → Except Stop Progress
  | [], progress => progress.settled
  | "--" :: [], progress => progress.settled
  | "--" :: argument :: _, _ => .error (refuse (.unknown argument none))
  | argument :: rest, progress => do readAll rest (← progress.readArgument argument)

end Progress

/-- What the program is asked to do. -/
structure Options where
  configPath : String
  once : Bool
  dryRun : Bool
  deriving DecidableEq, Repr

def defaultConfigPath : String := "./config.yaml"

/-- Reads the arguments. Where they do not name a configuration, the environment may. -/
def readOptions (arguments : List String) (environment : Option String) :
    Except Stop Options := do
  let progress ← Progress.readAll arguments {}
  match progress.config, environment with
  | some path, _ => return ⟨path, progress.once, progress.dryRun⟩
  | none, some path =>
    if path.isEmpty then throw (refuse (.missingValue .config))
    else return ⟨path, progress.once, progress.dryRun⟩
  | none, none => return ⟨defaultConfigPath, progress.once, progress.dryRun⟩

end MessagePress.CommandLine
