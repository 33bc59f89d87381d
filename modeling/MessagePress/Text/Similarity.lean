/-! How alike two names are, to suggest a name for one that is unknown: characters match if
they are equal and not far apart, and matches in another order count less. -/

namespace MessagePress.Text

/-- Takes a match for a character: the first one that is not taken yet, at an index below
`high` and not below `low`. -/
def takeMatch (c : Char) (low high : Nat) : Nat → List (Char × Bool) → Option (List (Char × Bool))
  | _, [] => none
  | index, (other, taken) :: rest =>
    if high ≤ index then none
    else if low ≤ index && c == other && !taken then some ((other, true) :: rest)
    else (takeMatch c low high (index + 1) rest).map fun rest => (other, taken) :: rest

/-- The matched characters of a first text, and a second text with its matches taken. -/
def matchFrom (reach : Nat) : Nat → List Char → List (Char × Bool) →
    List Char × List (Char × Bool)
  | _, [], second => ([], second)
  | index, c :: rest, second =>
    match takeMatch c (index - reach) (index + reach + 1) 0 second with
    | some second =>
      let (others, second) := matchFrom reach (index + 1) rest second
      (c :: others, second)
    | none => matchFrom reach (index + 1) rest second

/-- The matched characters of both texts, each in its own order. -/
def matched (first second : List Char) : List Char × List Char :=
  let reach := max first.length second.length / 2 - 1
  let (inFirst, second) := matchFrom reach 0 first (second.map fun c => (c, false))
  (inFirst, (second.filter (·.2)).map (·.1))

/-- Half the number of places at which the matches differ. -/
def transpositions (first second : List Char) : Nat :=
  ((first.zip second).filter fun (a, b) => a != b).length / 2

/-- From zero for nothing alike to one for equal texts. -/
def similarity (first second : List Char) : Float :=
  let (inFirst, inSecond) := matched first second
  let count := inFirst.length
  if first.isEmpty && second.isEmpty then 1
  else if count = 0 then 0
  else
    let moved := transpositions inFirst inSecond
    (count.toFloat / first.length.toFloat + count.toFloat / second.length.toFloat +
      (count - moved).toFloat / count.toFloat) / 3

/-- The name most like a text, if it is like enough; of equal ones the last. -/
def mostSimilar? (text : String) (names : List String) : Option String :=
  let close := names.filterMap fun name =>
    let degree := similarity text.toList name.toList
    if degree > 0.7 then some (degree, name) else none
  let better (best : Option (Float × String)) (candidate : Float × String) :=
    match best with
    | some current => if current.1 > candidate.1 then some current else some candidate
    | none => some candidate
  (close.foldl better none).map (·.2)

end MessagePress.Text
