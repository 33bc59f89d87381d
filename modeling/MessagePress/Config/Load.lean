import MessagePress.Config.Document
import MessagePress.Config.Validation
import MessagePress.Files.Tree

/-! Settings from a text or a file. -/

namespace MessagePress.Config

/-- Why a text gives no settings. -/
inductive Fault
  | malformed (fault : Yaml.Fault)
  | violates (violation : Violation)
  deriving DecidableEq, Repr

def Fault.message : Fault → String
  | .malformed fault => "Failed to parse config YAML: " ++ fault.message
  | .violates violation => violation.message

def ofText (text : List Char) : Except Fault Config := do
  let draft ← (Draft.ofText text).mapError .malformed
  draft.accept.mapError .violates

/-- Why a file gives no settings. -/
inductive LoadFault
  | unreadable (path : String) (fault : Files.Fault)
  | invalid (path : String) (fault : Fault)
  deriving DecidableEq, Repr

def LoadFault.message : LoadFault → String
  | .unreadable path fault =>
    "Failed to read config file: " ++ Text.quoted path ++ ": " ++ fault.message
  | .invalid path fault =>
    "Invalid configuration in " ++ Text.quoted path ++ ": " ++ fault.message

def load (read : Files.Reader) (path : String) : Except LoadFault Config := do
  let text ← (read.text path).mapError (.unreadable path)
  (ofText text).mapError (.invalid path)

end MessagePress.Config
