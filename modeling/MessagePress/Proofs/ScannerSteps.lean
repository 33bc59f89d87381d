import MessagePress.Proofs.PartialRuns
import MessagePress.Yaml.Token.Stream

/-! The small steps of the scanner, evaluated. Most look at a position and leave it as it is. -/

namespace MessagePress.Proofs.ScannerSteps
open Yaml Yaml.Scan PartialRuns

variable {cursor : Cursor} {layout : Layout} {α : Type}

def ahead (cursor : Cursor) (place : Nat) : Char := (cursor.rest.drop place).headD '\x00'

/-- Whether a position begins a line with three of a character and nothing joined to them. -/
def indicates (cursor : Cursor) (c : Char) : Bool :=
  cursor.mark.column = 0 && ahead cursor 0 == c && ahead cursor 1 == c && ahead cursor 2 == c &&
    isBlankOrEnd (ahead cursor 3)

theorem peekAt_apply (place : Nat) : peekAt place cursor = .ok (ahead cursor place, cursor) := rfl

theorem peek_apply : peek cursor = .ok (ahead cursor 0, cursor) := rfl

theorem here_apply : here cursor = .ok (cursor.mark, cursor) := rfl

theorem remaining_apply : remaining cursor = .ok (cursor.size - cursor.mark.index, cursor) := rfl

theorem need_apply (whole : cursor.broken = none) (count : Nat) : need count cursor = .ok ((), cursor) := by
  rw [need, whole]

theorem yields_need {count : Nat} {condition : Unit × Cursor → Prop} :
    Yields (need count cursor) condition ↔
      (cursor.broken = none ∨ count ≤ cursor.rest.length → condition ((), cursor)) := by
  unfold need
  cases cursor.broken with
  | none => simp
  | some fault =>
    dsimp only
    split
    next less => simp [Nat.not_le.mpr less]
    next enough => simp [Nat.not_lt.mp enough]

theorem atDocumentIndicator_apply (c : Char) :
    atDocumentIndicator c cursor = .ok (indicates cursor c, cursor) := rfl

theorem malformed_apply (problem : Problem) (context : Option (Context × Mark)) :
    (malformed problem context : Scan α) cursor = .error (.malformed problem cursor.mark context) := rfl

theorem inFlow_apply : Lex.inFlow layout cursor = .ok ((1 < layout.keys.length, layout), cursor) := rfl

theorem get_apply : (get : Yaml.Lex Layout) layout cursor = .ok ((layout, layout), cursor) := rfl

theorem set_apply (later : Layout) : (set later : Yaml.Lex PUnit) layout cursor = .ok (((), later), cursor) := rfl

theorem modify_apply (change : Layout → Layout) :
    (modify change : Yaml.Lex PUnit) layout cursor = .ok (((), change layout), cursor) := rfl

theorem yields_ite {p : Prop} {_ : Decidable p} {first second : Yaml.Lex α}
    {condition : (α × Layout) × Cursor → Prop} (yes : p → Yields (first layout cursor) condition)
    (no : ¬p → Yields (second layout cursor) condition) :
    Yields ((if p then first else second) layout cursor) condition := by
  split
  next holds => exact yes holds
  next fails => exact no fails

theorem liftM_apply (scan : Scan α) :
    (liftM scan : Yaml.Lex α) layout cursor = (scan cursor).map fun reached => ((reached.1, layout), reached.2) := by
  change (scan cursor >>= fun reached => .ok ((reached.1, layout), reached.2)) = _
  cases scan cursor <;> rfl

/-- A position in a source that is not broken, in front of a text that ends the source. -/
structure Stands (cursor : Cursor) (text : List Char) : Prop where
  rest : cursor.rest = text
  whole : cursor.broken = none
  counted : cursor.mark.index + text.length = cursor.size

variable {text taken : List Char} {c : Char}

theorem Stands.ahead (stands : Stands cursor text) (place : Nat) :
    ahead cursor place = (text.drop place).headD '\x00' := by rw [ScannerSteps.ahead, stands.rest]

theorem Stands.remaining (stands : Stands cursor text) : remaining cursor = .ok (text.length, cursor) := by
  rw [remaining_apply, ← stands.counted, Nat.add_sub_cancel_left]

theorem yields_remaining {condition : Nat × Cursor → Prop} (stands : Stands cursor text)
    (later : condition (text.length, cursor)) : Yields (remaining cursor) condition := by
  rw [stands.remaining]
  exact yields_ok.mpr later

theorem yields_skip (taken : List Char) {condition : Unit × Cursor → Prop} (stands : Stands cursor (taken ++ text))
    (later : ∀ behind, Stands behind text → condition ((), behind)) :
    Yields (skip taken.length cursor) condition := by
  refine yields_ok.mpr (later _ ⟨?_, stands.whole, ?_⟩)
  · dsimp only
    rw [stands.rest, List.drop_left]
  · have counted := stands.counted
    rw [List.length_append] at counted
    dsimp only
    omega

theorem yields_pass {condition : Unit × Cursor → Prop} (stands : Stands cursor (c :: text))
    (later : ∀ behind, Stands behind text → condition ((), behind)) : Yields (skip 1 cursor) condition :=
  yields_skip [c] stands later

theorem yields_whole {count : Nat} {condition : Unit × Cursor → Prop} (stands : Stands cursor text)
    (later : condition ((), cursor)) : Yields (need count cursor) condition := by
  rw [need_apply stands.whole]
  exact yields_ok.mpr later

def keyless (layout : Layout) : Layout := { layout with keys := layout.keys.modifyHead fun _ => none }

/-- The token to come is a possible key, if one can stand here. -/
def keyed (layout : Layout) (cursor : Cursor) : Layout :=
  if layout.keyAllowed then
    let required := !decide (1 < layout.keys.length) && layout.indent == (cursor.mark.column : Int)
    { layout with keys := some ⟨layout.count, required, cursor.mark⟩ :: layout.keys.drop 1 }
  else layout

theorem yields_dropKey {condition : (Unit × Layout) × Cursor → Prop}
    (later : condition (((), keyless layout), cursor)) :
    Yields (Lex.dropKey layout cursor) condition := by
  unfold Lex.dropKey
  simp only [bind_apply, yields_bind, get_apply, yields_ok]
  obtain ⟨tokens, count, indent, indents, keyAllowed, keys⟩ := layout
  rcases keys with _ | ⟨_ | key, rest⟩
  · exact yields_pure.mpr later
  · exact yields_pure.mpr later
  · refine yields_ite (fun _ => ?_) (fun _ => yields_ok.mpr later)
    simp only [liftM_apply, malformed_apply, yields_map, yields_error]

theorem yields_saveKey {condition : (Unit × Layout) × Cursor → Prop}
    (later : condition (((), keyed layout cursor), cursor)) :
    Yields (Lex.saveKey layout cursor) condition := by
  unfold Lex.saveKey
  rw [keyed] at later
  simp only [bind_apply, yields_bind, get_apply, yields_ok]
  split at later
  next allowed =>
    rw [if_pos allowed]
    simp only [bind_apply, yields_bind, liftM_apply, yields_map, here_apply, inFlow_apply, yields_ok]
    refine yields_dropKey (yields_ok.mpr ?_)
    have front : (keyless layout).keys.drop 1 = layout.keys.drop 1 := by
      unfold keyless
      cases layout.keys <;> rfl
    dsimp only
    rw [front]
    exact later
  next forbidden =>
    rw [if_neg forbidden]
    exact yields_pure.mpr later

/-- The possible keys that have become too long are given up. -/
def freshened (layout : Layout) (mark : Mark) : Layout :=
  { layout with keys := layout.keys.map fun key => key.filter fun key => !Lex.isStale mark key }

theorem yields_dropStaleKeys {condition : (Unit × Layout) × Cursor → Prop}
    (later : condition (((), freshened layout cursor.mark), cursor)) :
    Yields (Lex.dropStaleKeys layout cursor) condition := by
  unfold Lex.dropStaleKeys
  simp only [bind_apply, yields_bind, get_apply, yields_ok, liftM_apply, here_apply, yields_map]
  cases (layout.keys.reverse.filterMap id).find? fun key => Lex.isStale cursor.mark key && key.required with
  | none => exact yields_ok.mpr later
  | some key =>
    dsimp only
    rw [liftM_apply, malformed_apply]
    exact yields_error

end MessagePress.Proofs.ScannerSteps
