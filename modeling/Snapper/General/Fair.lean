import Mathlib.Data.List.Infix
import Mathlib.Data.Nat.Init

/-!
# Fair runs

A run without end takes a state through a sequence of actions.  A thread is treated fairly when
it acts sometimes, unless it is now and then unable to.  The rule of this module proves that
something happens at last: a rank never rises and falls with each action of the thread.
-/

namespace Snapper.General

universe u v

section Fair

variable {σ : Type u} {α : Type v} {step : σ → α → σ} {actions : ℕ → α} {s : σ}
  {can : σ → α → Prop}

/-- The state after a number of actions. -/
def after (step : σ → α → σ) (actions : ℕ → α) (s : σ) : ℕ → σ
  | 0 => s
  | n + 1 => step (after step actions s n) (actions n)

/-- The actions before a time. -/
def before (actions : ℕ → α) (n : ℕ) : List α := (List.range n).map actions

theorem before_succ {n : ℕ} : before actions (n + 1) = before actions n ++ [actions n] := by
  simp [before, List.range_succ]

theorem after_eq_foldl {n : ℕ} : after step actions s n = (before actions n).foldl step s := by
  induction n with
  | zero => rfl
  | succ n ih =>
    rw [before_succ, List.foldl_append, ← ih]
    rfl

theorem before_isPrefix {n m : ℕ} (h : n ≤ m) : before actions n <+: before actions m := by
  induction h with
  | refl => exact List.prefix_rfl
  | step _ ih =>
    rw [before_succ]
    exact ih.trans (List.prefix_append _ _)

/-- A thread that can act from some time on, whatever is done, does act. -/
def WeaklyFair (can : σ → α → Prop) (step : σ → α → σ) (actions : ℕ → α) (s : σ) : Prop :=
  ∀ n, (∀ m ≥ n, ∃ a, can (after step actions s m) a) →
    ∃ m ≥ n, can (after step actions s m) (actions m)

/-- Until something happens the thread can act, a rank does not rise, and it falls when the thread
acts.  Then it happens. -/
theorem WeaklyFair.eventually {G : ℕ → Prop} {n : ℕ} (hfair : WeaklyFair can step actions s)
    (rank : ℕ → ℕ)
    (hcan : ∀ m ≥ n, ¬ G m → ∃ a, can (after step actions s m) a)
    (hkeep : ∀ m ≥ n, ¬ G m → rank (m + 1) ≤ rank m)
    (hdown : ∀ m ≥ n, ¬ G m → can (after step actions s m) (actions m) → rank (m + 1) < rank m) :
    ∃ m ≥ n, G m := by
  induction hrank : rank n using Nat.strong_induction_on generalizing n with
  | _ r ih =>
    by_contra hnever
    have hnot : ∀ m ≥ n, ¬ G m := fun m hm hG => hnever ⟨m, hm, hG⟩
    have hbelow : ∀ m ≥ n, rank m ≤ rank n := by
      intro m hm
      induction hm with
      | refl => exact le_rfl
      | @step k hk ih => exact Nat.le_trans (hkeep k hk (hnot k hk)) ih
    -- the thread acts, and from there on the rank is smaller
    obtain ⟨m, hm, hact⟩ := hfair n fun m hm => hcan m hm (hnot m hm)
    have hlt : rank (m + 1) < r := by
      rw [← hrank]
      exact Nat.lt_of_lt_of_le (hdown m hm (hnot m hm) hact) (hbelow m hm)
    have hlater : ∀ k ≥ m + 1, k ≥ n := fun k hk =>
      Nat.le_trans hm (Nat.le_of_succ_le hk)
    obtain ⟨k, hk, hG⟩ := ih _ hlt (fun k hk => hcan k (hlater k hk))
      (fun k hk => hkeep k (hlater k hk)) (fun k hk => hdown k (hlater k hk)) rfl
    exact hnot k (hlater k hk) hG

end Fair

end Snapper.General
