import Mathlib.Data.List.Induction
import Mathlib.Data.List.Infix

/-!
# Runs

A run takes a state through a list of actions.  `Along C step l s` says that each action
meets the condition `C` in the state before it.  The rules prove an invariant of every
point of a run from what one step does: of all runs, of those with a condition, or of
those with a condition from some point on.  An invariant may speak about the actions done
so far.
-/

namespace Snapper.General

universe u v

section Run

variable {σ : Type u} {α : Type v} {step : σ → α → σ} {C : σ → α → Prop} {P : List α → σ → Prop}
  {l done rest : List α} {s : σ}

/-- Each action of the run meets the condition in the state before it. -/
def Along (C : σ → α → Prop) (step : σ → α → σ) : List α → σ → Prop
  | [], _ => True
  | a :: l, s => C s a ∧ Along C step l (step s a)

instance Along.decidable [∀ s a, Decidable (C s a)] :
    ∀ (l : List α) (s : σ), Decidable (Along C step l s)
  | [], _ => isTrue trivial
  | a :: l, s => @instDecidableAnd _ _ inferInstance (Along.decidable l (step s a))

theorem Along.and {D : σ → α → Prop} (h : Along C step l s) (h' : Along D step l s) :
    Along (fun s a => C s a ∧ D s a) step l s := by
  induction l generalizing s with
  | nil => trivial
  | cons a l ih => exact ⟨⟨h.1, h'.1⟩, ih h.2 h'.2⟩

/-- The condition holds at every point of the run. -/
theorem along_iff :
    Along C step l s ↔ ∀ done a rest, l = done ++ a :: rest → C (done.foldl step s) a := by
  induction l generalizing s with
  | nil => simp [Along]
  | cons b l ih =>
    rw [Along, ih]
    constructor
    · intro ⟨hb, hrest⟩ done a rest hl
      cases done with
      | nil =>
        cases hl
        exact hb
      | cons b' done =>
        cases hl
        exact hrest done a rest rfl
    · intro h
      refine ⟨h [] b l rfl, fun done a rest hl => ?_⟩
      exact h (b :: done) a rest (by rw [hl]; rfl)

/-- An invariant of the points of a run from one of them on. -/
theorem foldl_induction_from {front : List α} (hfront : P front (front.foldl step s))
    (hstep : ∀ done a rest, l = done ++ a :: rest → front <+: done →
      P done (done.foldl step s) → P (done ++ [a]) (step (done.foldl step s) a))
    (hpoint : l = done ++ rest) (hafter : front <+: done) : P done (done.foldl step s) := by
  induction done using List.reverseRec generalizing rest with
  | nil =>
    obtain rfl := List.prefix_nil.mp hafter
    exact hfront
  | append_singleton done a ih =>
    obtain hsame | hafter := List.prefix_concat_iff.mp hafter
    · rw [← hsame]
      exact hfront
    · have hpoint : l = done ++ a :: rest := by simpa using hpoint
      rw [List.foldl_append]
      exact hstep done a rest hpoint hafter (ih hpoint hafter)

/-- An invariant of the points of a run that meets a condition. -/
theorem Along.induction (hrun : Along C step l s) (hinit : P [] s)
    (hstep : ∀ done a rest, l = done ++ a :: rest → P done (done.foldl step s) →
      C (done.foldl step s) a → P (done ++ [a]) (step (done.foldl step s) a))
    (hpoint : l = done ++ rest) : P done (done.foldl step s) :=
  foldl_induction_from hinit
    (fun done a rest hl _ hP => hstep done a rest hl hP (along_iff.mp hrun done a rest hl)) hpoint
    List.nil_prefix

/-- An invariant of the points of a run. -/
theorem foldl_induction (hinit : P [] s)
    (hstep : ∀ done a rest, l = done ++ a :: rest → P done (done.foldl step s) →
      P (done ++ [a]) (step (done.foldl step s) a))
    (hpoint : l = done ++ rest) : P done (done.foldl step s) :=
  foldl_induction_from hinit (fun done a rest hl _ hP => hstep done a rest hl hP)
    hpoint List.nil_prefix

/-- An invariant that does not depend on the actions done. -/
theorem Along.invariant {I : σ → Prop} (hrun : Along C step l s) (hinit : I s)
    (hstep : ∀ s a, I s → C s a → I (step s a)) : I (l.foldl step s) :=
  hrun.induction (P := fun _ => I) hinit (fun _ a _ _ hI hC => hstep _ a hI hC)
    (List.append_nil l).symm

/-- Two conditions that agree wherever an invariant holds, which they keep, hold along the same
runs. -/
theorem Along.congr {I : σ → Prop} {D E : σ → α → Prop} (hrun : Along C step l s) (hinit : I s)
    (hiff : ∀ s a, I s → C s a → (D s a ↔ E s a))
    (hstep : ∀ s a, I s → C s a → D s a → I (step s a)) : Along D step l s ↔ Along E step l s := by
  induction l generalizing s with
  | nil => exact Iff.rfl
  | cons a l ih =>
    have hhead := hiff s a hinit hrun.1
    constructor
    · intro ⟨hD, hrest⟩
      exact ⟨hhead.mp hD, (ih hrun.2 (hstep s a hinit hrun.1 hD)).mp hrest⟩
    · intro ⟨hE, hrest⟩
      have hD := hhead.mpr hE
      exact ⟨hD, (ih hrun.2 (hstep s a hinit hrun.1 hD)).mpr hrest⟩

/-- A property of states holds at every point of a run exactly when each step meets the condition
that decides whether it keeps the property. -/
theorem points_iff_along {I R : σ → Prop} {D : σ → α → Prop} (hrun : Along C step l s) (hinit : I s)
    (hkeeps : ∀ s a, I s → C s a → I (step s a)) (hR : R s)
    (hiff : ∀ s a, I s → C s a → R s → (R (step s a) ↔ D s a)) :
    (∀ done rest, l = done ++ rest → R (done.foldl step s)) ↔ Along D step l s := by
  -- the first step decides about the second point, and so on
  induction l generalizing s with
  | nil =>
    refine iff_of_true (fun done rest hl => ?_) trivial
    obtain ⟨rfl, -⟩ := List.append_eq_nil_iff.mp hl.symm
    exact hR
  | cons a l ih =>
    have hhead := hiff s a hinit hrun.1 hR
    constructor
    · intro hpoints
      have hnext : R (step s a) := hpoints [a] l rfl
      refine ⟨hhead.mp hnext, (ih hrun.2 (hkeeps s a hinit hrun.1) hnext).mp ?_⟩
      intro done rest hl
      exact hpoints (a :: done) rest (by rw [hl]; rfl)
    · intro ⟨hD, hrest⟩ done rest hl
      cases done with
      | nil => exact hR
      | cons b done =>
        cases hl
        exact (ih hrun.2 (hkeeps s a hinit hrun.1) (hhead.mpr hD)).mpr hrest done rest rfl

end Run

end Snapper.General
