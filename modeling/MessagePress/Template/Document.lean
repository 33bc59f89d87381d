import MessagePress.Files.Path
import MessagePress.Json.Basic

/-! Message templates: the definitions of substitutions, and the body that refers to them.
Both are sections of one document, and a section that is left out is empty. -/

namespace MessagePress

structure Template where
  substitution : Json.Members
  body : Json.Members
  deriving Repr

namespace Template

/-- The sections met so far in a document. -/
structure Sections where
  substitution : Option Json.Members
  body : Option Json.Members

def Sections.none : Sections := ⟨Option.none, Option.none⟩

def Sections.template (sections : Sections) : Template :=
  ⟨sections.substitution.getD [], sections.body.getD []⟩

/-- What a document is called where something else stands in its place. -/
def expectation : String := "struct Template"

/-- The format of a document; an unknown one is found out by trying. -/
inductive Format
  | json
  | yaml
  | auto
  deriving DecidableEq, Repr

namespace Format

def name : Format → String
  | json => "json"
  | yaml => "yaml"
  | auto => "auto"

/-- The format that a file's extension tells, in any case of ASCII letters. -/
def ofPath (path : String) : Format :=
  match (Files.extension? path).map (·.map Char.toLower) with
  | some "json" => json
  | some "yaml" | some "yml" => yaml
  | _ => auto

end Format

end Template

end MessagePress
