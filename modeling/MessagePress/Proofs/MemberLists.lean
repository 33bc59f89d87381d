import MessagePress.Json.Basic

/-! The members of objects. Each name has one value, the last one given, and the names stay in
increasing order whatever order they come in. -/

namespace MessagePress.Proofs.MemberLists
open Json

/-- Members in strictly increasing order of their names. -/
def Ordered (members : Members) : Prop := members.Pairwise fun first second => first.1 < second.1

variable {members : Members} {name other : String} {value : Json}

theorem lookup_cons {rest : List (String × α)} {found : α} :
    List.lookup other ((name, found) :: rest) =
      if other = name then some found else rest.lookup other := by
  rw [List.lookup_cons]
  by_cases same : other = name
  · simp [same]
  · simp [same, beq_false_of_ne same]

theorem lookup_insert : (members.insert name value).lookup other =
    if other = name then some value else members.lookup other := by
  induction members with
  | nil => rw [Members.insert, lookup_cons]
  | cons member rest ih =>
    obtain ⟨key, old⟩ := member
    rw [Members.insert]
    split
    · rw [lookup_cons]
    · split
      next same =>
        subst same
        rw [lookup_cons, lookup_cons]
        split <;> rfl
      next apart =>
        rw [lookup_cons, lookup_cons, ih]
        split
        next same => rw [if_neg (fun equal => apart (equal.symm.trans same))]
        next => rfl

theorem mem_insert {member : String × Json} (found : member ∈ members.insert name value) :
    member = (name, value) ∨ member ∈ members := by
  induction members with
  | nil => exact Or.inl (List.mem_singleton.mp found)
  | cons first rest ih =>
    obtain ⟨key, old⟩ := first
    rw [Members.insert] at found
    split at found
    · exact List.mem_cons.mp found
    · split at found
      · exact (List.mem_cons.mp found).imp_right (List.mem_cons_of_mem _)
      · rcases List.mem_cons.mp found with rfl | later
        · exact Or.inr List.mem_cons_self
        · exact (ih later).imp_right (List.mem_cons_of_mem _)

theorem Ordered.insert (ordered : Ordered members) (name : String) (value : Json) :
    Ordered (members.insert name value) := by
  induction members with
  | nil => exact List.pairwise_singleton _ _
  | cons first rest ih =>
    obtain ⟨key, old⟩ := first
    obtain ⟨least, behind⟩ := List.pairwise_cons.mp ordered
    rw [Members.insert]
    split
    next before =>
      refine List.pairwise_cons.mpr ⟨fun member found => ?_, ordered⟩
      rcases List.mem_cons.mp found with rfl | later
      · exact before
      · exact String.lt_trans before (least member later)
    next notBefore =>
      split
      next same =>
        subst same
        exact List.pairwise_cons.mpr ⟨least, behind⟩
      next apart =>
        have after : key < name := Decidable.byContradiction fun notAfter =>
          apart (String.le_antisymm (String.not_lt.mp notAfter) (String.not_lt.mp notBefore))
        refine List.pairwise_cons.mpr ⟨fun member found => ?_, ih behind⟩
        rcases mem_insert found with rfl | old
        · exact after
        · exact least member old

private theorem foldl_insert (pairs : List (String × Json)) (ordered : Ordered members) :
    Ordered (pairs.foldl (fun members (name, value) => members.insert name value) members) ∧
      ∀ name, (pairs.foldl (fun members (name, value) => members.insert name value) members).lookup
        name = (pairs.reverse.lookup name).or (members.lookup name) := by
  induction pairs generalizing members with
  | nil => exact ⟨ordered, fun _ => rfl⟩
  | cons pair pairs ih =>
    obtain ⟨key, value⟩ := pair
    obtain ⟨sorted, found⟩ := ih (ordered.insert key value)
    refine ⟨sorted, fun name => ?_⟩
    rw [List.foldl_cons, found, lookup_insert, List.reverse_cons, List.lookup_append,
      Option.or_assoc, lookup_cons]
    split <;> rfl

theorem ofList_ordered (pairs : List (String × Json)) : Ordered (Members.ofList pairs) :=
  (foldl_insert pairs List.Pairwise.nil).1

/-- Of equal names in a document the last one counts. -/
theorem lookup_ofList (pairs : List (String × Json)) (name : String) :
    (Members.ofList pairs).lookup name = pairs.reverse.lookup name := by
  rw [Members.ofList, (foldl_insert pairs List.Pairwise.nil).2, List.lookup_nil, Option.or_none]

theorem mem_ofList {pairs : List (String × Json)} {member : String × Json}
    (found : member ∈ Members.ofList pairs) : member ∈ pairs := by
  suffices all : ∀ members : Members,
      member ∈ pairs.foldl (fun members (name, value) => members.insert name value) members →
        member ∈ members ∨ member ∈ pairs from
    (all [] found).resolve_left List.not_mem_nil
  clear found
  induction pairs with
  | nil => exact fun members found => Or.inl found
  | cons pair pairs ih =>
    intro members found
    rcases ih _ found with set | later
    · rcases mem_insert set with rfl | old
      · exact Or.inr List.mem_cons_self
      · exact Or.inl old
    · exact Or.inr (List.mem_cons_of_mem _ later)

end MessagePress.Proofs.MemberLists
