import MessagePress.Proofs.NumberTexts
import MessagePress.Proofs.StringEscapes

/-! The compact text of a value as its string literals and the marks between them. Outside
the literals an opening brace is followed by a quote or a closing brace, so a pair of opening
braces, and whatever begins with one and holds no quote, lies inside one literal. -/

namespace MessagePress.Proofs.JsonLayout
open Json BracePairs StringEscapes NumberTexts

inductive Part
  | literal (content : String)
  | marks (content : List Char)

def Part.text : Part → List Char
  | literal content => quote content
  | marks content => content

def partsText (parts : List Part) : List Char := parts.flatMap Part.text

@[simp] theorem partsText_nil : partsText [] = [] := rfl

@[simp] theorem partsText_cons (part : Part) (parts : List Part) :
    partsText (part :: parts) = part.text ++ partsText parts := rfl

@[simp] theorem partsText_append (parts rest : List Part) :
    partsText (parts ++ rest) = partsText parts ++ partsText rest := List.flatMap_append

mutual

/-- The literals and marks of a value, in the order of its text. -/
def layout : Json → List Part
  | .null => [.marks ['n', 'u', 'l', 'l']]
  | .bool value => [.marks (Json.bool value).render]
  | .number value => [.marks value.text]
  | .text content => [.literal content]
  | .array items => .marks ['['] :: layoutItems items ++ [.marks [']']]
  | .object [] => [.marks ['{', '}']]
  | .object (member :: rest) => .marks ['{'] :: layoutMembers (member :: rest) ++ [.marks ['}']]

def layoutItems : List Json → List Part
  | [] => []
  | [item] => layout item
  | item :: next :: rest => layout item ++ .marks [','] :: layoutItems (next :: rest)

def layoutMembers : List (String × Json) → List Part
  | [] => []
  | [(name, value)] => .literal name :: .marks [':'] :: layout value
  | (name, value) :: next :: rest =>
    .literal name :: .marks [':'] :: (layout value ++ .marks [','] :: layoutMembers (next :: rest))

end

mutual

theorem layout_text : (value : Json) → partsText (layout value) = value.render
  | .null => rfl
  | .bool value => by simp [layout, Part.text]
  | .number value => by simp [layout, Part.text, render]
  | .text content => by simp [layout, Part.text, render]
  | .array items => by simp [layout, Part.text, render, layoutItems_text items]
  | .object [] => rfl
  | .object (member :: rest) => by
    simp [layout, Part.text, render, layoutMembers_text (member :: rest)]

theorem layoutItems_text : (items : List Json) →
    partsText (layoutItems items) = commaSeparated (renderItems items)
  | [] => rfl
  | [item] => by simp [layoutItems, renderItems, commaSeparated, layout_text item]
  | item :: next :: rest => by
    have later := layoutItems_text (next :: rest)
    rw [renderItems] at later
    simp [layoutItems, renderItems, commaSeparated, Part.text, layout_text item, later]

theorem layoutMembers_text : (members : List (String × Json)) →
    partsText (layoutMembers members) = commaSeparated (renderMembers members)
  | [] => rfl
  | [(name, value)] => by
    simp [layoutMembers, renderMembers, commaSeparated, Part.text, layout_text value]
  | (name, value) :: next :: rest => by
    have later := layoutMembers_text (next :: rest)
    obtain ⟨name', value'⟩ := next
    rw [renderMembers] at later
    simp [layoutMembers, renderMembers, commaSeparated, Part.text, layout_text value, later]

end

/-- Marks hold no pair of opening braces, and one at their end is followed by a quote. -/
inductive Laid : List Part → Prop
  | nil : Laid []
  | literal {content rest} (laid : Laid rest) : Laid (.literal content :: rest)
  | marks {content rest} (free : PairFree '{' (content ++ ['{'])) (laid : Laid rest) :
      Laid (.marks content :: rest)
  | brace {content rest} (laid : Laid (.literal content :: rest)) :
      Laid (.marks ['{'] :: .literal content :: rest)

theorem Laid.append {parts rest : List Part} (laid : Laid parts) (behind : Laid rest) :
    Laid (parts ++ rest) := by
  induction laid with
  | nil => exact behind
  | literal laid ih => exact .literal ih
  | marks free laid ih => exact .marks free ih
  | brace laid ih => exact .brace ih

theorem Laid.braceless {content : List Char} {rest : List Part} (absent : '{' ∉ content)
    (laid : Laid rest) : Laid (.marks content :: rest) :=
  .marks (pairFree_concat absent) laid

theorem number_braceless (value : Number) : '{' ∉ value.text :=
  fun member => absurd (number_char value _ member) (by decide)

mutual

theorem layout_laid : (value : Json) → Laid (layout value)
  | .null => .braceless (by decide) .nil
  | .bool true => .braceless (by decide) .nil
  | .bool false => .braceless (by decide) .nil
  | .number value => .braceless (number_braceless value) .nil
  | .text _ => .literal .nil
  | .array items =>
    .braceless (by decide) ((layoutItems_laid items).append (.braceless (by decide) .nil))
  | .object [] => .marks (by simp [pairFree_cons]) .nil
  | .object ((name, value) :: rest) => by
    obtain ⟨tail, named⟩ : ∃ tail, layoutMembers ((name, value) :: rest) = .literal name :: tail := by
      cases rest <;> exact ⟨_, rfl⟩
    have members := layoutMembers_laid ((name, value) :: rest)
    rw [layout, named]
    rw [named] at members
    exact .brace (members.append (.braceless (by decide) .nil))

theorem layoutItems_laid : (items : List Json) → Laid (layoutItems items)
  | [] => .nil
  | [item] => layout_laid item
  | item :: next :: rest =>
    (layout_laid item).append (.braceless (by decide) (layoutItems_laid (next :: rest)))

theorem layoutMembers_laid : (members : List (String × Json)) → Laid (layoutMembers members)
  | [] => .nil
  | [(_, value)] => .literal (.braceless (by decide) (layout_laid value))
  | (_, value) :: next :: rest =>
    .literal (.braceless (by decide)
      ((layout_laid value).append (.braceless (by decide) (layoutMembers_laid (next :: rest)))))

end

/-- A word that begins with two opening braces and holds no quote lies inside one literal. -/
theorem inside_literal {parts : List Part} {before word after : List Char} (laid : Laid parts)
    (quoteless : '"' ∉ '{' :: '{' :: word)
    (occurs : partsText parts = before ++ '{' :: '{' :: (word ++ after)) :
    ∃ left content right front back, parts = left ++ .literal content :: right ∧
      escape content.toList = front ++ '{' :: '{' :: (word ++ back) ∧
      before = partsText left ++ '"' :: front ∧ after = back ++ '"' :: partsText right := by
  induction laid generalizing before with
  | nil => simp at occurs
  | @marks content rest free laid ih =>
    obtain ⟨inner, rfl, later⟩ := pair_behind free occurs
    obtain ⟨left, literal, right, front, back, rfl, inside, rfl, rfl⟩ := ih later
    exact ⟨.marks content :: left, literal, right, front, back, rfl, inside, by simp [Part.text], rfl⟩
  | @literal content rest laid ih =>
    cases before with
    | nil => cases occurs
    | cons c before =>
      obtain ⟨rfl, behind⟩ : '"' = c ∧ escape content.toList ++ '"' :: partsText rest =
          before ++ (('{' :: '{' :: word) ++ after) := by
        simpa [Part.text, quote] using occurs
      rcases List.append_eq_append_iff.mp behind with ⟨inner, rfl, later⟩ | ⟨inner, same, later⟩
      · cases inner with
        | nil => cases later
        | cons d inner =>
          obtain ⟨rfl, next⟩ := List.cons.inj later
          obtain ⟨left, literal, right, front, back, rfl, inside, rfl, rfl⟩ := ih next
          exact ⟨.literal content :: left, literal, right, front, back, rfl, inside,
            by simp [Part.text, quote], rfl⟩
      · rcases List.append_eq_append_iff.mp later with ⟨back, rfl, tail⟩ | ⟨back, same', tail⟩
        · exact ⟨[], content, rest, before, back, rfl, by simpa using same, rfl, tail⟩
        · cases back with
          | nil => exact ⟨[], content, rest, before, [], rfl, by simp [same, same'], rfl, tail.symm⟩
          | cons d back =>
            obtain ⟨rfl, -⟩ := List.cons.inj tail
            exact absurd (by simp [same']) quoteless
  | @brace content rest laid ih =>
    cases before with
    | nil => cases occurs
    | cons c before =>
      obtain ⟨rfl, later⟩ := List.cons.inj occurs
      obtain ⟨left, literal, right, front, back, same, inside, rfl, rfl⟩ := ih later
      exact ⟨.marks ['{'] :: left, literal, right, front, back, congrArg _ same, inside, rfl, rfl⟩

end MessagePress.Proofs.JsonLayout
