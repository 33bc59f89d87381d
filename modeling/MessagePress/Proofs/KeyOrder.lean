import Mathlib.Data.List.Forall2
import MessagePress.Proofs.ByteOrder
import MessagePress.Proofs.Interpolation
import MessagePress.Proofs.PartialRuns

/-! The order of the keys in a message. Members are written in the order of the body's keys,
which increase; filling a key does not move its member. Keys without placeholders are written
as they are, so among those the order of the body shows in the message. -/

namespace MessagePress.Proofs.KeyOrder
open Template Interpolation BracePairs MemberLists ByteOrder
open Text.Utf8 (encode)
open PartialRuns (of_toOption)

mutual

/-- The objects of a value, at any depth, from the outside in. -/
def objects : Json → List Json.Members
  | .null | .bool _ | .number _ | .text _ => []
  | .array items => itemObjects items
  | .object members => members :: memberObjects members

def itemObjects : List Json → List Json.Members
  | [] => []
  | item :: rest => objects item ++ itemObjects rest

def memberObjects : List (String × Json) → List Json.Members
  | [] => []
  | (_, value) :: rest => objects value ++ memberObjects rest

end

/-- A key that refers to nothing. -/
def Plain (key : String) : Prop := PairFree '{' key.toList

variable {values : Json.Members} {origin object : Json.Members}

/-- An object of a message and the one of the body that it was written for. -/
def Written (values : Json.Members) (origin object : Json.Members) : Prop :=
  List.Forall₂ (fun key filled => interpolateText values key.1 = some filled.1) origin object

private theorem forall₂_append {α β : Type} {relation : α → β → Prop} {left left' : List α}
    {right right' : List β} (first : List.Forall₂ relation left right)
    (later : List.Forall₂ relation left' right') :
    List.Forall₂ relation (left ++ left') (right ++ right') := by
  induction first with
  | nil => exact later
  | cons related _ ih => exact .cons related ih

mutual

theorem objects_written : (value : Json) → {filled : Json} →
    interpolateValue values value = some filled →
    List.Forall₂ (Written values) (objects value) (objects filled)
  | .null, _, interpolated => by cases interpolated; exact .nil
  | .bool _, _, interpolated => by cases interpolated; exact .nil
  | .number _, _, interpolated => by cases interpolated; exact .nil
  | .text _, _, interpolated => by
    obtain ⟨content, -, rfl⟩ := Option.map_eq_some_iff.mp interpolated
    exact .nil
  | .array items, _, interpolated => by
    obtain ⟨filled, known, rfl⟩ := Option.map_eq_some_iff.mp interpolated
    exact itemObjects_written items known
  | .object members, _, interpolated => by
    obtain ⟨filled, known, rfl⟩ := Option.map_eq_some_iff.mp interpolated
    obtain ⟨written, inside⟩ := memberObjects_written members known
    exact .cons written inside

theorem itemObjects_written : (items : List Json) → {filled : List Json} →
    interpolateItems values items = some filled →
    List.Forall₂ (Written values) (itemObjects items) (itemObjects filled)
  | [], _, interpolated => by cases interpolated; exact .nil
  | item :: rest, _, interpolated => by
    simp only [interpolateItems, Option.bind_eq_bind, Option.bind_eq_some_iff] at interpolated
    obtain ⟨first, here, others, later, same⟩ := interpolated
    cases same
    exact forall₂_append (objects_written item here) (itemObjects_written rest later)

theorem memberObjects_written : (members : List (String × Json)) → {filled : List (String × Json)} →
    interpolateMembers values members = some filled →
    Written values members filled ∧
      List.Forall₂ (Written values) (memberObjects members) (memberObjects filled)
  | [], _, interpolated => by cases interpolated; exact ⟨.nil, .nil⟩
  | (key, value) :: rest, _, interpolated => by
    simp only [interpolateMembers, Option.bind_eq_bind, Option.bind_eq_some_iff] at interpolated
    obtain ⟨name, named, first, here, others, later, same⟩ := interpolated
    cases same
    obtain ⟨written, inside⟩ := memberObjects_written rest later
    exact ⟨.cons named written, forall₂_append (objects_written value here) inside⟩

end

theorem interpolateText_plain {key : String} (plain : Plain key) :
    interpolateText values key = some key := by
  rw [interpolateText, interpolate_free plain]
  simp

/-- Of two members whose keys hold no placeholder, the one that is written first has the lesser
key. -/
def Increasing (origin object : Json.Members) : Prop :=
  (origin.zip object).Pairwise fun first second =>
    Plain first.1.1 → Plain second.1.1 → encode first.2.1.toList < encode second.2.1.toList

theorem Written.increasing (ordered : ByteOrdered origin) (written : Written values origin object) :
    Increasing origin object := by
  induction written with
  | nil => exact .nil
  | @cons member filled origin object named written ih =>
    obtain ⟨least, ordered⟩ := List.pairwise_cons.mp ordered
    refine List.pairwise_cons.mpr ⟨fun pair behind plain plain' => ?_, ih ordered⟩
    have named' : interpolateText values pair.1.1 = some pair.2.1 :=
      (List.forall₂_iff_zip.mp written).2 behind
    rw [interpolateText_plain plain] at named
    rw [interpolateText_plain plain'] at named'
    rw [← Option.some.inj named, ← Option.some.inj named']
    exact least pair.1 (List.of_mem_zip behind).1

/-- An object none of whose keys refer to anything keeps the order of the body. -/
theorem Written.byteOrdered (ordered : ByteOrdered origin) (written : Written values origin object)
    (plain : ∀ member ∈ origin, Plain member.1) : ByteOrdered object := by
  have length : object.length = origin.length := written.length_eq.symm
  have zipped : (origin.zip object).Pairwise fun first second =>
      encode first.2.1.toList < encode second.2.1.toList :=
    (written.increasing ordered).imp_of_mem fun left right less =>
      less (plain _ (List.of_mem_zip left).1) (plain _ (List.of_mem_zip right).1)
  have second : (origin.zip object).map Prod.snd = object := List.map_snd_zip length.le
  rw [ByteOrdered, ← second, List.pairwise_map]
  exact zipped

theorem lt_of_encode_lt {first second : List Char} (less : encode first < encode second) :
    first < second := by
  by_contra notLess
  rcases List.le_iff_lt_or_eq.mp (List.not_lt.mp notLess) with greater | rfl
  · exact List.lt_asymm less (encode_lt greater)
  · exact List.lt_irrefl _ less

theorem ordered_of_byteOrdered (ordered : ByteOrdered object) : Ordered object :=
  ordered.imp fun less => lt_of_encode_lt less

private theorem insert_behind {members : Json.Members} {name : String} {value : Json}
    (least : ∀ member ∈ members, member.1 < name) :
    members.insert name value = members ++ [(name, value)] := by
  induction members with
  | nil => rfl
  | cons first rest ih =>
    obtain ⟨key, old⟩ := first
    obtain ⟨before, later⟩ := List.forall_mem_cons.mp least
    have apart : name ≠ key := by
      rintro rfl
      exact String.lt_irrefl name before
    rw [Json.Members.insert, if_neg (String.lt_asymm before), if_neg apart, ih later,
      List.cons_append]

theorem ofList_ordered_eq (ordered : Ordered object) : Json.Members.ofList object = object := by
  suffices all : ∀ first later : Json.Members, Ordered (first ++ later) →
      later.foldl (fun members member => members.insert member.1 member.2) first = first ++ later from
    all [] object ordered
  intro first later
  induction later generalizing first with
  | nil => intro _; exact (List.append_nil first).symm
  | cons member later ih =>
    intro ordered
    have behind : Ordered (first ++ [member] ++ later) := by rwa [List.append_assoc]
    have least : ∀ earlier ∈ first, earlier.1 < member.1 := fun earlier found =>
      (List.pairwise_append.mp ordered).2.2 earlier found member List.mem_cons_self
    have step : Json.Members.insert member.1 member.2 first = first ++ [member] := insert_behind least
    calc later.foldl _ (Json.Members.insert member.1 member.2 first)
        = later.foldl _ (first ++ [member]) := by rw [step]
      _ = first ++ [member] ++ later := ih _ behind
      _ = first ++ member :: later := List.append_assoc ..

/-- What the order of the body leaves of an object of the message. -/
structure Kept (values origin object : Json.Members) : Prop where
  ordered : ByteOrdered origin
  written : Written values origin object
  increasing : Increasing origin object
  whole : (∀ member ∈ origin, Plain member.1) →
    ByteOrdered object ∧ Json.Members.ofList object = object

theorem Written.kept (ordered : ByteOrdered origin) (written : Written values origin object) :
    Kept values origin object where
  ordered := ordered
  written := written
  increasing := written.increasing ordered
  whole plain :=
    have sorted := written.byteOrdered ordered plain
    ⟨sorted, ofList_ordered_eq (ordered_of_byteOrdered sorted)⟩

/-- Every object of a message, at any depth, has its members in the order of the keys that they
were written from. So of keys without placeholders the earlier is the lesser, and an object with
such keys only has increasing keys and comes back with all of its members. -/
theorem keys_in_order {body values : Json.Members} {message : String}
    (sorted : ∀ origin ∈ objects (.object body), ByteOrdered origin)
    (rendered : render body values = .ok message) :
    ∃ filled, message = Json.compact (.object filled) ∧
      List.Forall₂ (Kept values) (objects (.object body)) (objects (.object filled)) := by
  obtain ⟨filled, interpolated, written⟩ := interpolated_of_render rendered
  have whole : interpolateValue values (.object body) = some (.object filled) := by
    rw [interpolateValue, interpolated, Option.map_some]
  have pairs := objects_written (.object body) whole
  refine ⟨filled, written, List.forall₂_iff_zip.mpr ⟨pairs.length_eq, fun {origin object} found => ?_⟩⟩
  exact ((List.forall₂_iff_zip.mp pairs).2 found).kept (sorted origin (List.of_mem_zip found).1)

/-- A body with a key that refers to a value, behind one that does not. -/
def shuffled : Json.Members :=
  [("b", .object [("c", .null), ("d", .null)]), ("\x7b\x7b.k\x7d\x7d", .text "\x7b\x7b.k\x7d\x7d")]

def shuffledMessage : String :=
  "\x7b\"b\":\x7b\"c\":null,\"d\":null\x7d,\"a\":\"a\"\x7d"

private theorem shuffled_sorted : ∀ origin ∈ objects (.object shuffled), ByteOrdered origin := by
  unfold ByteOrdered
  decide +kernel

private theorem render_shuffled : render shuffled [("k", .text "a")] = .ok shuffledMessage :=
  of_toOption (by decide +kernel)

theorem keys_in_order_shuffled : ∃ filled, shuffledMessage = Json.compact (.object filled) ∧
    List.Forall₂ (Kept [("k", .text "a")]) (objects (.object shuffled)) (objects (.object filled)) :=
  keys_in_order shuffled_sorted render_shuffled

/-- The keys of a message may be out of order, when the values say so. -/
theorem keys_out_of_order : ¬∀ (body values filled : Json.Members) (message : String),
    (∀ origin ∈ objects (.object body), ByteOrdered origin) → render body values = .ok message →
      message = Json.compact (.object filled) → ∀ object ∈ objects (.object filled),
        ByteOrdered object := by
  intro all
  have inside := all shuffled [("k", .text "a")]
    [("b", .object [("c", .null), ("d", .null)]), ("a", .text "a")] _ shuffled_sorted
    render_shuffled (by decide +kernel) _ List.mem_cons_self
  revert inside
  unfold ByteOrdered
  decide +kernel

end MessagePress.Proofs.KeyOrder
