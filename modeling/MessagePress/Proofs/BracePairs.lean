import MessagePress.Template.Call

/-! Where a text is cut at its first pair of equal characters. Calls and placeholders both
look for braces in this way, so both rest on these facts. -/

namespace MessagePress.Proofs.BracePairs
open Template

/-- The character never stands twice in a row. -/
def PairFree (c : Char) (text : List Char) : Prop := ¬ [c, c] <:+: text

@[simp] theorem pairFree_nil (c : Char) : PairFree c [] := by simp [PairFree]

theorem pairFree_cons {c first : Char} {rest : List Char} :
    PairFree c (first :: rest) ↔ ¬(first = c ∧ rest.head? = some c) ∧ PairFree c rest := by
  have front : [c, c] <+: first :: rest ↔ first = c ∧ rest.head? = some c := by
    cases rest with
    | nil => simp
    | cons second rest => simp [List.cons_prefix_cons, eq_comm]
  simp only [PairFree, List.infix_cons_iff, not_or, front]

@[simp] theorem pairFree_singleton (c first : Char) : PairFree c [first] := by
  simp [pairFree_cons]

theorem PairFree.right {c : Char} {text rest : List Char} (free : PairFree c (text ++ rest)) :
    PairFree c rest :=
  fun found => free (found.trans (List.suffix_append text rest).isInfix)

theorem pairFree_concat {c : Char} {text : List Char} (absent : c ∉ text) :
    PairFree c (text ++ [c]) := by
  induction text with
  | nil => exact pairFree_singleton c c
  | cons first text ih =>
    simp only [List.mem_cons, not_or] at absent
    exact pairFree_cons.mpr ⟨fun found => absent.1 found.1.symm, ih absent.2⟩

theorem pairFree_concat_iff {c : Char} {text : List Char} :
    PairFree c (text ++ [c]) ↔ PairFree c text ∧ text.getLast? ≠ some c := by
  induction text with
  | nil => simp
  | cons first text ih =>
    rw [List.cons_append, pairFree_cons, pairFree_cons, ih]
    cases text with
    | nil => simp
    | cons second text => simp [and_assoc]

/-- A pair that straddles the end of a text needs the character at that end. -/
theorem pairFree_append {c : Char} {text rest : List Char} (free : PairFree c (text ++ [c])) :
    PairFree c (text ++ rest) ↔ PairFree c rest := by
  induction text with
  | nil => rfl
  | cons first text ih =>
    obtain ⟨apart, free⟩ := pairFree_cons.mp free
    rw [List.cons_append, pairFree_cons, ih free, and_iff_right_iff_imp]
    rintro - ⟨same, next⟩
    apply apart ⟨same, ?_⟩
    cases text with
    | nil => rfl
    | cons second text => exact next

theorem pair_behind {c : Char} {text rest before after : List Char}
    (free : PairFree c (text ++ [c])) (same : text ++ rest = before ++ c :: c :: after) :
    ∃ inner, before = text ++ inner ∧ rest = inner ++ c :: c :: after := by
  rcases List.append_eq_append_iff.mp same with ⟨inner, rfl, rest⟩ | ⟨inner, rfl, pair⟩
  · exact ⟨inner, rfl, rest⟩
  · rcases inner with _ | ⟨first, _ | ⟨second, inner⟩⟩
    · exact ⟨[], by simp, pair.symm⟩
    · cases pair
      exact absurd ⟨before, [], by simp⟩ free
    · cases pair
      exact absurd ⟨before, inner ++ [c], by simp⟩ free

theorem pairFree_separated {c separator : Char} (different : separator ≠ c)
    {text rest : List Char} :
    PairFree c (text ++ separator :: rest) ↔ PairFree c text ∧ PairFree c rest := by
  induction text with
  | nil => simp [pairFree_cons, different]
  | cons first text ih =>
    have next : (text ++ separator :: rest).head? = some c ↔ text.head? = some c := by
      cases text with
      | nil => simp [different]
      | cons second text => rfl
    rw [List.cons_append, pairFree_cons, pairFree_cons, ih, next, and_assoc]

theorem splitPair?_eq_none {c : Char} {text : List Char} :
    splitPair? c text = none ↔ PairFree c text := by
  induction text with
  | nil => simp [splitPair?]
  | cons first rest ih =>
    rw [splitPair?, pairFree_cons, ← ih]
    split
    next found => simp [found]
    next missing => simp [missing]

/-- The text is cut at the first pair: up to its first character there is none. -/
theorem splitPair?_eq_some {c : Char} {text before after : List Char} :
    splitPair? c text = some (before, after) ↔
      text = before ++ c :: c :: after ∧ PairFree c (before ++ [c]) := by
  induction text generalizing before after with
  | nil => simp [splitPair?]
  | cons first rest ih =>
    rw [splitPair?]
    split
    next found =>
      obtain ⟨rfl, second⟩ := found
      obtain ⟨rest, rfl⟩ : ∃ tail, rest = first :: tail := by
        cases rest with
        | nil => cases second
        | cons second' tail => cases second; exact ⟨tail, rfl⟩
      cases before with
      | nil => simp
      | cons other before =>
        simp only [Option.some.injEq, Prod.mk.injEq, List.nil_eq, reduceCtorEq, false_and,
          List.cons_append, List.cons.injEq, false_iff, not_and, and_imp]
        rintro rfl same free
        refine (pairFree_cons.mp free).1 ⟨rfl, ?_⟩
        cases before with
        | nil => rfl
        | cons third before => cases same; rfl
    next missing =>
      simp only [Option.map_eq_some_iff, Prod.exists, Prod.mk.injEq, ih]
      constructor
      · rintro ⟨inner, _, ⟨rfl, free⟩, rfl, rfl⟩
        refine ⟨rfl, pairFree_cons.mpr ⟨?_, free⟩⟩
        rintro ⟨same, next⟩
        apply missing ⟨same, ?_⟩
        cases inner with
        | nil => rfl
        | cons second inner => exact next
      · rintro ⟨same, free⟩
        cases before with
        | nil =>
          cases same
          exact absurd ⟨rfl, rfl⟩ missing
        | cons other before =>
          cases same
          exact ⟨before, after, ⟨rfl, (pairFree_cons.mp free).2⟩, rfl, rfl⟩

end MessagePress.Proofs.BracePairs
