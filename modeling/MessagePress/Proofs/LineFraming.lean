import Mathlib.Data.List.Basic
import Mathlib.Tactic.SplitIfs
import MessagePress.Proofs.Interpolation
import MessagePress.Proofs.PushDelivery
import MessagePress.Proofs.Utf8Coding

/-! Printed batches line by line. A message holds no control character, whatever is inserted
into it, so a newline ends a message and nothing else: the lines of what is printed are the
messages. -/

namespace MessagePress.Proofs.LineFraming
open Template Delivery Text.Utf8 Utf8Coding NumberTexts Interpolation PushDelivery

variable {text rest : List Char}

/-- None of the characters that an escape stands for by their number. -/
def ControlFree (text : List Char) : Prop := ∀ c ∈ text, 0x20 ≤ c.toNat

instance (text : List Char) : Decidable (ControlFree text) :=
  List.decidableBAll (fun c : Char => 0x20 ≤ c.toNat) text

@[simp] theorem controlFree_nil : ControlFree [] := fun _ member => nomatch member

@[simp] theorem controlFree_cons {c : Char} :
    ControlFree (c :: text) ↔ 0x20 ≤ c.toNat ∧ ControlFree text := List.forall_mem_cons

@[simp] theorem controlFree_append :
    ControlFree (text ++ rest) ↔ ControlFree text ∧ ControlFree rest := List.forall_mem_append

private theorem digitChar_above {digit : Nat} (small : digit < 16) :
    0x20 ≤ (Nat.digitChar digit).toNat := by
  have all : ∀ digit : Fin 16, 0x20 ≤ (Nat.digitChar digit).toNat := by decide
  exact all ⟨digit, small⟩

theorem escapeChar_controlFree (c : Char) : ControlFree (Json.escapeChar c) := by
  unfold Json.escapeChar
  split_ifs with quote backslash newline return' tab backspace feed control
  iterate 7 · decide
  · have high := digitChar_above (show c.toNat / 16 < 16 by omega)
    have low := digitChar_above (show c.toNat % 16 < 16 by omega)
    simp [high, low]
  · exact List.forall_mem_singleton.mpr (Nat.not_lt.mp control)

theorem escape_controlFree (text : List Char) : ControlFree (Json.escape text) := by
  intro c member
  obtain ⟨d, -, inside⟩ := List.mem_flatMap.mp member
  exact escapeChar_controlFree d c inside

theorem quote_controlFree (text : String) : ControlFree (Json.quote text) := by
  simp [Json.quote, escape_controlFree]

private theorem isNumberChar_above {c : Char} (written : isNumberChar c = true) :
    0x20 ≤ c.toNat := by
  simp only [isNumberChar, Bool.or_eq_true, beq_iff_eq] at written
  obtain (((digit | rfl) | rfl) | rfl) | rfl := written
  · have zero : '0'.toNat ≤ c.toNat := by
      simp only [Char.isDigit, Bool.and_eq_true, decide_eq_true_eq] at digit
      exact digit.1
    exact Nat.le_trans (by decide) zero
  all_goals decide

theorem number_controlFree (value : Json.Number) : ControlFree value.text := by
  intro c member
  exact isNumberChar_above (number_char value c member)

theorem commaSeparated_controlFree {parts : List (List Char)}
    (free : ∀ part ∈ parts, ControlFree part) : ControlFree (Json.commaSeparated parts) := by
  induction parts with
  | nil => exact controlFree_nil
  | cons part parts ih =>
    obtain ⟨first, others⟩ := List.forall_mem_cons.mp free
    cases parts with
    | nil => exact first
    | cons next parts =>
      rw [Json.commaSeparated]
      · exact controlFree_append.mpr ⟨first, controlFree_cons.mpr ⟨by decide, ih others⟩⟩
      · simp

mutual

theorem render_controlFree : (value : Json) → ControlFree value.render
  | .null => by decide
  | .bool true => by decide
  | .bool false => by decide
  | .number value => number_controlFree value
  | .text content => quote_controlFree content
  | .array items => by
    have inside := commaSeparated_controlFree (renderItems_controlFree items)
    simp [Json.render, inside]
  | .object members => by
    have inside := commaSeparated_controlFree (renderMembers_controlFree members)
    simp [Json.render, inside]

theorem renderItems_controlFree : (items : List Json) →
    ∀ part ∈ Json.renderItems items, ControlFree part
  | [] => fun _ member => nomatch member
  | item :: rest =>
    List.forall_mem_cons.mpr ⟨render_controlFree item, renderItems_controlFree rest⟩

theorem renderMembers_controlFree : (members : List (String × Json)) →
    ∀ part ∈ Json.renderMembers members, ControlFree part
  | [] => fun _ member => nomatch member
  | (name, value) :: rest => by
    refine List.forall_mem_cons.mpr ⟨?_, renderMembers_controlFree rest⟩
    simp [quote_controlFree, render_controlFree value]

end

/-- A message is the compact text of its interpolated body, so what is inserted is escaped. -/
theorem message_controlFree {body values : Json.Members} {message : String}
    (rendered : render body values = .ok message) : ControlFree message.toList := by
  obtain ⟨filled, -, rfl⟩ := interpolated_of_render rendered
  simp [Json.compact, render_controlFree]

theorem encodeChar_above {c : Char} (above : 0x20 ≤ c.toNat) :
    ∀ byte ∈ String.utf8EncodeChar c, 0x20 ≤ byte := by
  have byte_above {n : Nat} (low : 0x20 ≤ n) (high : n < 256) : 0x20 ≤ UInt8.ofNat n := by
    rw [UInt8.le_iff_toNat_le, UInt8.toNat_ofNat_of_lt' high]
    exact low
  obtain ⟨least, bytes⟩ | ⟨least, most, bytes⟩ | ⟨least, most, bytes⟩ | ⟨least, most, bytes⟩ :=
    encodeChar_cases c
  all_goals
    rw [bytes]
    simp only [List.forall_mem_cons, List.not_mem_nil, false_imp_iff, implies_true, and_true]
  · exact byte_above above (by omega)
  · exact ⟨byte_above (by omega) (by omega), byte_above (by omega) (by omega)⟩
  · exact ⟨byte_above (by omega) (by omega), byte_above (by omega) (by omega),
      byte_above (by omega) (by omega)⟩
  · exact ⟨byte_above (by omega) (by omega), byte_above (by omega) (by omega),
      byte_above (by omega) (by omega), byte_above (by omega) (by omega)⟩

theorem encode_above (free : ControlFree text) : ∀ byte ∈ encode text, 0x20 ≤ byte := by
  intro byte member
  obtain ⟨c, inside, encoded⟩ := List.mem_flatMap.mp member
  exact encodeChar_above (free c inside) byte encoded

/-- The bytes of a message. -/
def line (message : String) : List UInt8 := encode message.toList

/-- The messages of a batch, each as a line. -/
def block (batch : Batch) : List (List UInt8) := batch.messages.map line

/-- What is printed, split at newlines. -/
def splitLines (output : List Char) : List (List UInt8) := (encode output).splitOn 0x0a

/-- A template and values give the message. -/
def Rendered (message : String) : Prop := ∃ body values, render body values = .ok message

theorem Rendered.newline_notMem {message : String} (rendered : Rendered message) :
    (0x0a : UInt8) ∉ line message := by
  obtain ⟨body, values, rendered⟩ := rendered
  intro member
  have above := encode_above (message_controlFree rendered) 0x0a member
  exact absurd above (by decide)

theorem splitLines_line {message : String} (rendered : Rendered message) (output : List Char) :
    splitLines (message.toList ++ '\n' :: output) = line message :: splitLines output := by
  have bytes : encode (message.toList ++ '\n' :: output) = line message ++ 0x0a :: encode output := by
    rw [encode, List.flatMap_append, List.flatMap_cons]
    rfl
  rw [splitLines, bytes, List.splitOn_eq_splitOnP, List.splitOnP_append_cons_of_forall_mem]
  · rw [← List.splitOn_eq_splitOnP]
    rfl
  · intro byte member
    refine beq_false_of_ne fun newline => ?_
    subst newline
    exact rendered.newline_notMem member
  · rfl

theorem splitLines_messages {messages : List String}
    (rendered : ∀ message ∈ messages, Rendered message) (output : List Char) :
    splitLines ((messages.flatMap fun message => message.toList ++ ['\n']) ++ output) =
      messages.map line ++ splitLines output := by
  induction messages with
  | nil => rfl
  | cons message messages ih =>
    obtain ⟨first, others⟩ := List.forall_mem_cons.mp rendered
    have parted : (message :: messages).flatMap (fun message => message.toList ++ ['\n']) ++ output =
        message.toList ++ '\n' ::
          ((messages.flatMap fun message => message.toList ++ ['\n']) ++ output) := by
      simp
    rw [parted, splitLines_line first, ih others, List.map_cons, List.cons_append]

/-- The lines of what is printed are the messages of the batches; nothing follows the last
newline. -/
structure Framed (batches : List Batch) (output : List Char) : Prop where
  lines : splitLines output = batches.flatMap block ++ [[]]
  texts : (splitLines output).dropLast.map decode? =
    (batches.flatMap Batch.messages).map fun message => some message.toList
  /-- A batch stands behind all messages of the batches before it, in one piece. -/
  contiguous : ∀ before batch after, batches = before ++ batch :: after →
    ((splitLines output).drop (before.flatMap Batch.messages).length).take batch.messages.length =
      block batch

private theorem decode?_line (message : String) : decode? (line message) = some message.toList :=
  decode?_encode message.toList

private theorem length_blocks (batches : List Batch) :
    (batches.flatMap block).length = (batches.flatMap Batch.messages).length := by
  simp [List.length_flatMap, block]

theorem Framed.of_lines {batches : List Batch} {output : List Char}
    (lines : splitLines output = batches.flatMap block ++ [[]]) : Framed batches output where
  lines := lines
  texts := by
    rw [lines, List.dropLast_concat, List.map_flatMap, List.map_flatMap]
    refine List.flatMap_congr fun batch _ => ?_
    simp [block, decode?_line]
  contiguous before batch after parted := by
    have placed : splitLines output =
        before.flatMap block ++ (block batch ++ (after.flatMap block ++ [[]])) := by
      rw [lines, parted]
      simp
    have length : (block batch).length = batch.messages.length := List.length_map line
    rw [placed, ← length_blocks, List.drop_left, ← length, List.take_left]

theorem framed_printed {batches : List Batch}
    (rendered : ∀ batch ∈ batches, ∀ message ∈ batch.messages, Rendered message) :
    Framed batches (batches.flatMap Batch.printed) := by
  apply Framed.of_lines
  induction batches with
  | nil => rfl
  | cons batch batches ih =>
    obtain ⟨first, others⟩ := List.forall_mem_cons.mp rendered
    rw [List.flatMap_cons, Batch.printed, splitLines_messages first, ih others,
      List.flatMap_cons, block, List.append_assoc]

theorem streamBatch?_rendered {sink : Sink} {stream : Stream} {verbose : Bool} {supply : Supply}
    {batch : Batch} (delivered : streamBatch? sink (stream, (stream.produce verbose supply).1) = some batch) :
    ∀ message ∈ batch.messages, Rendered message := by
  unfold streamBatch? delivered? at delivered
  split at delivered
  next fault failed => cases delivered
  next messages produced =>
    split at delivered
    · cases delivered
    · cases delivered
      intro message member
      obtain ⟨-, -, values, -, rendered⟩ := (produce_rendered produced).2 message member
      exact ⟨stream.template.body, values, rendered⟩

theorem push_rendered (sink : Sink) (verbose : Bool) (streams : List Stream) (order : List Nat)
    (supply : Supply) :
    ∀ batch ∈ (Delivery.push sink verbose streams order supply).1.batches,
      ∀ message ∈ batch.messages, Rendered message := by
  intro batch member
  have delivered := (push_batches sink verbose streams order supply).mem_iff.mp member
  obtain ⟨⟨stream, production⟩, inside, delivered⟩ := List.mem_filterMap.mp delivered
  obtain ⟨reached, same⟩ := (produceAll_produced verbose streams supply).2 _ inside
  dsimp only at same
  subst same
  exact streamBatch?_rendered delivered

/-- A message that is rendered has no byte below the blank. So the lines of printed batches are
their messages, batch after batch; and whatever the order in which the streams of a push take
their steps, its lines are those of the batches that are generated, one block for each. -/
theorem lines_are_messages :
    (∀ body values message, render body values = .ok message →
      ∀ byte ∈ line message, 0x20 ≤ byte) ∧
    (∀ batches : List Batch, (∀ batch ∈ batches, ∀ message ∈ batch.messages, Rendered message) →
      Framed batches (batches.flatMap Batch.printed)) ∧
    ∀ verbose streams order supply,
      let push := (Delivery.push .accepting verbose streams order supply).1
      Framed push.batches push.printed ∧
        push.batches.Perm
          ((produceAll verbose streams supply).1.filterMap (streamBatch? .accepting)) := by
  refine ⟨?_, ?_, ?_⟩
  · intro body values message rendered
    exact encode_above (message_controlFree rendered)
  · intro batches rendered
    exact framed_printed rendered
  · intro verbose streams order supply push
    have rendered := push_rendered .accepting verbose streams order supply
    exact ⟨framed_printed rendered, push_batches .accepting verbose streams order supply⟩

/-- A newline and a tab are inserted into three messages, two of which are sent together. -/
theorem lines_are_messages_newline :
    let message := "\x7b\"a\":\"x\\ny\\t\"\x7d"
    let batches : List Batch := [⟨"first", [message, message]⟩, ⟨"second", [message]⟩]
    render [("a", .text "\x7b\x7b.n\x7d\x7d")] [("n", .text "x\ny\t")] = .ok message ∧
      (∀ byte ∈ line message, 0x20 ≤ byte) ∧
      Framed batches (batches.flatMap Batch.printed) ∧
      (splitLines (batches.flatMap Batch.printed)).length = 4 := by
  intro message batches
  have rendered : render [("a", .text "\x7b\x7b.n\x7d\x7d")] [("n", .text "x\ny\t")] =
      .ok message := by decide +kernel
  obtain ⟨clean, framed, -⟩ := lines_are_messages
  have all : ∀ batch ∈ batches, ∀ other ∈ batch.messages, Rendered other := by
    have same : ∀ batch ∈ batches, ∀ other ∈ batch.messages, other = message := by
      decide +kernel
    intro batch inside other member
    rw [same batch inside other member]
    exact ⟨_, _, rendered⟩
  refine ⟨rendered, clean _ _ _ rendered, framed batches all, ?_⟩
  rw [(framed batches all).lines]
  rfl

end MessagePress.Proofs.LineFraming
