import Mathlib.Data.List.TakeWhile
import MessagePress.Text.Blank

/-! Trimming takes off the longest runs of blanks at the ends of a text, and nothing else. -/

namespace MessagePress.Proofs.Trimming
open Text

variable {blank : Char → Bool}

/-- No blank stands at either end. -/
structure Bare (blank : Char → Bool) (text : List Char) : Prop where
  head : ∀ c ∈ text.head?, blank c = false
  last : ∀ c ∈ text.getLast?, blank c = false

private theorem dropWhile_head (text : List Char) :
    ∀ c ∈ (text.dropWhile blank).head?, blank c = false := by
  intro c first
  have outside := List.head?_dropWhile_not blank text
  rw [Option.mem_def.mp first] at outside
  simpa using outside

private theorem takeWhile_blank (text : List Char) : ∀ c ∈ text.takeWhile blank, blank c = true :=
  fun _ member => List.mem_takeWhile_imp member

theorem trimStart_cut (blank : Char → Bool) (text : List Char) :
    ∃ lead, text = lead ++ trimStart blank text ∧ ∀ c ∈ lead, blank c = true :=
  ⟨text.takeWhile blank, List.takeWhile_append_dropWhile.symm, takeWhile_blank text⟩

theorem trimEnd_cut (blank : Char → Bool) (text : List Char) :
    ∃ trail, text = trimEnd blank text ++ trail ∧ ∀ c ∈ trail, blank c = true := by
  refine ⟨(text.reverse.takeWhile blank).reverse, ?_, ?_⟩
  · rw [trimEnd, ← List.reverse_append, List.takeWhile_append_dropWhile, List.reverse_reverse]
  · intro c member
    exact takeWhile_blank _ c (List.mem_reverse.mp member)

theorem trimStart_head (text : List Char) : ∀ c ∈ (trimStart blank text).head?, blank c = false :=
  dropWhile_head text

theorem trimEnd_last (text : List Char) : ∀ c ∈ (trimEnd blank text).getLast?, blank c = false := by
  intro c last
  rw [trimEnd, List.getLast?_reverse] at last
  exact dropWhile_head _ c last

theorem trim_cut (blank : Char → Bool) (text : List Char) :
    ∃ lead trail, text = lead ++ (trim blank text ++ trail) ∧
      (∀ c ∈ lead, blank c = true) ∧ ∀ c ∈ trail, blank c = true := by
  obtain ⟨lead, whole, leading⟩ := trimStart_cut blank text
  obtain ⟨trail, inner, trailing⟩ := trimEnd_cut blank (trimStart blank text)
  exact ⟨lead, trail, whole.trans (congrArg (lead ++ ·) inner), leading, trailing⟩

theorem trim_bare (text : List Char) : Bare blank (trim blank text) := by
  refine ⟨?_, trimEnd_last _⟩
  intro c first
  apply trimStart_head text
  obtain ⟨trail, inner, -⟩ := trimEnd_cut blank (trimStart blank text)
  rw [trim, Option.mem_def] at first
  rw [inner, List.head?_append, first]
  rfl

theorem trimStart_eq {lead inner : List Char} (leading : ∀ c ∈ lead, blank c = true)
    (head : ∀ c ∈ inner.head?, blank c = false) : trimStart blank (lead ++ inner) = inner := by
  rw [trimStart, List.dropWhile_append_of_pos leading]
  cases inner with
  | nil => rfl
  | cons c rest => rw [List.dropWhile_cons_of_neg (by simp [head c rfl])]

theorem trimEnd_eq {inner trail : List Char} (trailing : ∀ c ∈ trail, blank c = true)
    (last : ∀ c ∈ inner.getLast?, blank c = false) : trimEnd blank (inner ++ trail) = inner := by
  have reversed : trimStart blank (trail.reverse ++ inner.reverse) = inner.reverse :=
    trimStart_eq (fun c member => trailing c (List.mem_reverse.mp member)) (by simpa using last)
  rw [trimEnd, List.reverse_append]
  exact (congrArg List.reverse reversed).trans inner.reverse_reverse

/-- A bare text between two runs of blanks is what trimming leaves of them. -/
theorem trim_eq {lead inner trail : List Char} (bare : Bare blank inner)
    (leading : ∀ c ∈ lead, blank c = true) (trailing : ∀ c ∈ trail, blank c = true) :
    trim blank (lead ++ (inner ++ trail)) = inner := by
  cases inner with
  | nil =>
    have blanks : trimStart blank (lead ++ trail) = [] := by
      apply List.dropWhile_eq_nil_iff.mpr
      exact fun c member => (List.mem_append.mp member).elim (leading c) (trailing c)
    simp [trim, blanks, trimEnd]
  | cons c rest =>
    rw [trim, trimStart_eq leading (by simpa using bare.head c rfl), trimEnd_eq trailing bare.last]

end MessagePress.Proofs.Trimming
