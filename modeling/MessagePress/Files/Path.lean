/-! The parts of a file path's last component. Paths are separated by slashes; empty parts
and parts that stand for the current directory name no file. -/

namespace MessagePress.Files

/-- The parts of a path between its slashes. -/
def splitSlashes : List Char → List (List Char)
  | [] => [[]]
  | c :: rest =>
    match c, splitSlashes rest with
    | '/', parts => [] :: parts
    | _, part :: parts => (c :: part) :: parts
    | _, [] => [[c]]

/-- The name of the file or directory a path leads to, unless that is a parent. -/
def fileName? (path : String) : Option (List Char) :=
  match (splitSlashes path.toList).reverse.find? fun part => part != [] && part != ['.'] with
  | some ['.', '.'] => none
  | name? => name?

/-- A name cut at its last dot. A dot at the start is part of the name. -/
def splitExtension (name : List Char) : List Char × Option (List Char) :=
  if name.contains '.' then
    let extension := (name.reverse.takeWhile (· != '.')).reverse
    let stem := name.take (name.length - (extension.length + 1))
    if stem.isEmpty then (name, none) else (stem, some extension)
  else (name, none)

def fileStem? (path : String) : Option String :=
  (fileName? path).map fun name => String.ofList (splitExtension name).1

def extension? (path : String) : Option String :=
  (fileName? path).bind fun name => (splitExtension name).2.map String.ofList

end MessagePress.Files
