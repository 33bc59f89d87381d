import MessagePress.Files.Tree
import MessagePress.Template.JsonDocument
import MessagePress.Yaml.Decode

/-! Loading templates from bytes and files. A document of unknown format is read as YAML
first, and as JSON only if that fails. -/

namespace MessagePress.Template

open Yaml (Decode Located)

/-- One entry of a document's mapping. Other entries are passed over. -/
def decodeEntry (depth : Nat) (sections : Sections) (name : String) (value : Located) :
    Decode Sections := do
  match name with
  | "substitution" =>
    let section? ← Decode.once name sections.substitution (Decode.jsonMembers depth value)
    return { sections with substitution := section? }
  | "template" =>
    let section? ← Decode.once name sections.body (Decode.jsonMembers depth value)
    return { sections with body := section? }
  | _ =>
    Decode.ignore value
    return sections

def decode : Located → Decode Template :=
  Decode.fields Yaml.depthLimit expectation .none decodeEntry fun sections =>
    pure sections.template

def ofYaml (bytes : List UInt8) : Except Yaml.Fault Template :=
  (Yaml.Document.ofBytes bytes).decode decode

/-- Why a template could not be loaded. -/
inductive LoadFault
  | unreadable (path : String) (fault : Files.Fault)
  | json (report : Json.Report)
  | yaml (fault : Yaml.Fault)
  | undetected (yaml : Yaml.Fault) (json : Json.Report)
  deriving DecidableEq, Repr

namespace LoadFault

def message : LoadFault → String
  | unreadable path fault =>
    "Failed to read template file " ++ Text.quoted path ++ ": " ++ fault.message
  | json report => "Failed to parse JSON template: " ++ report.message
  | yaml fault => "Failed to parse YAML template: " ++ fault.message
  | undetected asYaml asJson =>
    "Failed to parse template as YAML or JSON: YAML error: " ++ asYaml.message ++
      ", JSON error: " ++ asJson.message

/-- The fault behind this one, which a chain of messages shows once more. -/
def cause? : LoadFault → Option String
  | unreadable _ fault => some fault.message
  | json report => some report.message
  | yaml fault => some fault.message
  | undetected _ _ => none

/-- The message followed by that of the cause. -/
def chain (fault : LoadFault) : List String := fault.message :: fault.cause?.toList

end LoadFault

/-- Reads a template in a format. -/
def ofBytes (format : Format) (bytes : List UInt8) : Except LoadFault Template :=
  match format with
  | .json => (ofJson bytes).mapError .json
  | .yaml => (ofYaml bytes).mapError .yaml
  | .auto =>
    match ofYaml bytes with
    | .ok template => .ok template
    | .error yaml => (ofJson bytes).mapError (.undetected yaml)

/-- Loads a template file in the format that its extension tells. -/
def load (read : Files.Reader) (path : String) : Except LoadFault Template := do
  let bytes ← (read path).mapError (.unreadable path)
  ofBytes (.ofPath path) bytes

end MessagePress.Template
