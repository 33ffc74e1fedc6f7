import Mathlib.Data.List.Basic

/-!
# Replacing all occurrences

`replaceAll` goes through a list from the left and puts `format` for every occurrence of
`search` that does not overlap the one before.

## Main results

- `replaceAll_singleton`: an element is replaced wherever it is
- `replaceAll_double`: an element that was doubled everywhere is single again
-/

namespace Snapper.General

universe u

variable {α : Type u} [DecidableEq α]

/-- What is put for the rest of a list whose first `skip` elements were replaced already. -/
def replaceFrom (search format : List α) : Nat → List α → List α
  | _, [] => []
  | skip + 1, _ :: l => replaceFrom search format skip l
  | 0, a :: l =>
    if search ≠ [] ∧ search.isPrefixOf (a :: l) = true then
      format ++ replaceFrom search format (search.length - 1) l
    else a :: replaceFrom search format 0 l

/-- Every occurrence that is found from the left, the replacement is not searched again. -/
def replaceAll (search format l : List α) : List α := replaceFrom search format 0 l

@[simp] theorem replaceAll_nil (search format : List α) : replaceAll search format [] = [] := rfl

/-- Replacing a single element replaces each of its occurrences, and nothing else. -/
theorem replaceAll_singleton (a : α) (format l : List α) :
    replaceAll [a] format l = l.flatMap fun b => if b = a then format else [b] := by
  induction l with
  | nil => rfl
  | cons b l ih =>
    rw [List.flatMap_cons, ← ih]
    by_cases hb : b = a
    · simp [replaceAll, replaceFrom, hb]
    · simp [replaceAll, replaceFrom, hb, Ne.symm hb]

theorem replaceAll_singleton_cons (a b : α) (format l : List α) :
    replaceAll [a] format (b :: l) =
      (if b = a then format else [b]) ++ replaceAll [a] format l := by
  rw [replaceAll_singleton, replaceAll_singleton, List.flatMap_cons]

theorem replaceAll_pair (a : α) (format l : List α) :
    replaceAll [a, a] format (a :: a :: l) = format ++ replaceAll [a, a] format l := by
  simp [replaceAll, replaceFrom]

theorem replaceAll_cons_of_ne {a b : α} (h : b ≠ a) (search format l : List α) :
    replaceAll (a :: search) format (b :: l) = b :: replaceAll (a :: search) format l := by
  simp [replaceAll, replaceFrom, Ne.symm h]

/-- Undoing a doubling gives the list back. -/
theorem replaceAll_double (a : α) (l : List α) :
    replaceAll [a, a] [a] (replaceAll [a] [a, a] l) = l := by
  induction l with
  | nil => rfl
  | cons b l ih =>
    rw [replaceAll_singleton_cons]
    by_cases hb : b = a
    · rw [if_pos hb, List.cons_append, List.singleton_append, replaceAll_pair, ih, hb]
      rfl
    · rw [if_neg hb, List.singleton_append, replaceAll_cons_of_ne hb, ih]

end Snapper.General
