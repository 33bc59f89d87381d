import MessagePress.Files.Path
import MessagePress.Text.Utf8

/-! A tree of directories and files, read by path from a working directory. Of what lies
outside that directory only the null device is known. -/

namespace MessagePress.Files

/-- Why a file cannot be read. -/
inductive Fault
  | notFound
  | notDirectory
  | isDirectory
  | nameTooLong
  | zeroInPath
  | notText
  /-- Another fault, in the words of the system. -/
  | other (message : String)
  deriving DecidableEq, Repr

def Fault.message : Fault → String
  | .notFound => "No such file or directory (os error 2)"
  | .notDirectory => "Not a directory (os error 20)"
  | .isDirectory => "Is a directory (os error 21)"
  | .nameTooLong => "File name too long (os error 36)"
  | .zeroInPath => "file name contained an unexpected NUL byte"
  | .notText => "stream did not contain valid UTF-8"
  | .other message => message

/-- How files are read: a path gives the bytes of its file. -/
abbrev Reader := String → Except Fault (List UInt8)

inductive Entry
  | file (bytes : List UInt8)
  | directory (entries : List (String × Entry))

namespace Entry

def empty : Entry := .directory []

/-- Puts an entry at the end of a way of names; directories are made where they are
missing, and a directory that is already there stays. -/
def insert (tree : Entry) (names : List String) (entry : Entry) : Entry :=
  match names, tree with
  | [], .file _ => entry
  | [], .directory entries =>
    match entry with
    | .file _ => entry
    | .directory _ => .directory entries
  | name :: rest, .file _ => .directory [(name, insert empty rest entry)]
  | name :: rest, .directory entries =>
    let inner := insert ((entries.lookup name).getD empty) rest entry
    .directory ((name, inner) :: entries.filter fun other => other.1 != name)

/-- The longest name of a file, in bytes. -/
def maxNameLength : Nat := 255

/-- The longest path, in bytes. -/
def maxPathLength : Nat := 4095

/-- Follows the parts of a path from an entry whose parents are given, innermost first.
Only directories have parts behind them. -/
def walk : List Entry → Entry → List (List Char) → Except Fault Entry
  | _, entry, [] => .ok entry
  | _, .file _, _ :: _ => .error .notDirectory
  | parents, .directory entries, part :: rest =>
    if part = [] ∨ part = ['.'] then walk parents (.directory entries) rest
    else if part = ['.', '.'] then
      match parents with
      | parent :: further => walk further parent rest
      | [] => walk [] empty rest
    else if maxNameLength < (Text.Utf8.encode part).length then .error .nameTooLong
    else
      match entries.lookup (String.ofList part) with
      | some entry => walk (.directory entries :: parents) entry rest
      | none => .error .notFound

/-- What is known outside the working directory. -/
def outside : Entry := .directory [("dev", .directory [("null", .file [])])]

/-- The entry that a path leads to from a working directory. -/
def find (tree : Entry) (path : String) : Except Fault Entry :=
  if path.toList.contains '\x00' then .error .zeroInPath
  else if path.isEmpty then .error .notFound
  else if maxPathLength < path.utf8ByteSize then .error .nameTooLong
  else walk [] (if path.toList.head? = some '/' then outside else tree) (splitSlashes path.toList)

/-- Reads files below a working directory. -/
def reader (tree : Entry) : Reader := fun path => do
  match ← find tree path with
  | .file bytes => return bytes
  | .directory _ => throw .isDirectory

end Entry

/-- Reads a file that has to hold a text. -/
def Reader.text (read : Reader) (path : String) : Except Fault (List Char) := do
  match Text.Utf8.decode? (← read path) with
  | some text => return text
  | none => throw .notText

end MessagePress.Files
