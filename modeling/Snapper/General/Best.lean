import Mathlib.Order.Lattice
import Snapper.General.Run

/-!
# The last of the best

One pass over a list keeps the best candidate so far.  A candidate that is just as good takes its
place, so that of several best ones the last is left.

## Main results

- `lastBest_of_foldl_better`: what is left is the last of the best candidates
- `foldl_better_eq_none_iff`: nothing is left where there is no candidate
-/

namespace Snapper.General

universe u v

variable {α : Type u} {β : Type v} [LinearOrder β] {p : α → Prop} {w : α → β} {l : List α} {a b : α}

/-- The best candidate once one more element was looked at. -/
def better (p : α → Prop) [DecidablePred p] (w : α → β) (best : Option α) (a : α) : Option α :=
  if p a ∧ best.all (fun b => w b ≤ w a) = true then some a else best

/-- A candidate that is at least as good as those before it and better than those after it -/
def LastBest (p : α → Prop) (w : α → β) (l : List α) (a : α) : Prop :=
  p a ∧ ∃ before after, l = before ++ a :: after ∧
    (∀ b ∈ before, p b → w b ≤ w a) ∧ ∀ b ∈ after, p b → w b < w a

namespace LastBest

theorem mem (h : LastBest p w l a) : a ∈ l := by
  obtain ⟨-, before, after, rfl, -, -⟩ := h
  exact List.mem_append_right _ List.mem_cons_self

/-- No candidate is better. -/
theorem le (h : LastBest p w l a) (hb : b ∈ l) (hp : p b) : w b ≤ w a := by
  obtain ⟨-, before, after, rfl, hbefore, hafter⟩ := h
  rcases List.mem_append.mp hb with hb | hb
  · exact hbefore b hb hp
  · rcases List.mem_cons.mp hb with rfl | hb
    · exact le_refl _
    · exact le_of_lt (hafter b hb hp)

/-- Two conditions with the same candidates -/
theorem congr {q : α → Prop} (h : LastBest p w l a) (hpq : ∀ b ∈ l, p b ↔ q b) :
    LastBest q w l a := by
  have hq := (hpq a h.mem).mp h.1
  obtain ⟨-, before, after, rfl, hbefore, hafter⟩ := h
  refine ⟨hq, before, after, rfl, ?_, ?_⟩
  · intro b hb hqb
    exact hbefore b hb ((hpq b (List.mem_append_left _ hb)).mpr hqb)
  · intro b hb hqb
    exact hafter b hb ((hpq b (List.mem_append_right _ (List.mem_cons_of_mem _ hb))).mpr hqb)

/-- One more candidate that none is better than -/
theorem concat_self (hp : p a) (h : ∀ b ∈ l, p b → w b ≤ w a) : LastBest p w (l ++ [a]) a :=
  ⟨hp, l, [], rfl, h, by simp⟩

/-- One more element that is no candidate or not as good -/
theorem concat (h : LastBest p w l a) (hb : p b → w b < w a) : LastBest p w (l ++ [b]) a := by
  obtain ⟨hp, before, after, rfl, hbefore, hafter⟩ := h
  refine ⟨hp, before, after ++ [b], by simp, hbefore, ?_⟩
  intro c hc hpc
  rcases List.mem_append.mp hc with hc | hc
  · exact hafter c hc hpc
  · obtain rfl := List.mem_singleton.mp hc
    exact hb hpc

/-- There is one last best candidate at most. -/
theorem unique (ha : LastBest p w l a) (hb : LastBest p w l b) : a = b := by
  have hab := ha.le hb.mem hb.1
  have hba := hb.le ha.mem ha.1
  obtain ⟨hpa, before, after, rfl, -, hafter⟩ := ha
  obtain ⟨hpb, before', after', hl, -, hafter'⟩ := hb
  rcases List.append_eq_append_iff.mp hl with ⟨c, -, hc⟩ | ⟨c, -, hc⟩
  · cases c with
    | nil => exact (List.cons.inj hc).1
    | cons _ c =>
      -- `b` would stand after `a`
      have hmem : b ∈ after := (List.cons.inj hc).2 ▸ List.mem_append_right c List.mem_cons_self
      exact absurd hba (not_le.mpr (hafter b hmem hpb))
  · cases c with
    | nil => exact (List.cons.inj hc).1.symm
    | cons _ c =>
      have hmem : a ∈ after' := (List.cons.inj hc).2 ▸ List.mem_append_right c List.mem_cons_self
      exact absurd hab (not_le.mpr (hafter' a hmem hpa))

end LastBest

variable [DecidablePred p]

/-- The best candidate at every point of the pass -/
theorem foldl_better_spec : (∀ a, l.foldl (better p w) none = some a → LastBest p w l a) ∧
    (l.foldl (better p w) none = none → ∀ a ∈ l, ¬p a) := by
  apply foldl_induction (P := fun done best => (∀ a, best = some a → LastBest p w done a) ∧
    (best = none → ∀ a ∈ done, ¬p a)) _ _ (List.append_nil l).symm
  · simp
  · rintro done a - - ⟨hsome, hnone⟩
    rw [better]
    split
    · next hbetter =>
      -- `a` is taken: it is as good as the best so far, and so as all before it
      obtain ⟨hp, hall⟩ := hbetter
      refine ⟨?_, by simp⟩
      intro a' ha'
      obtain rfl := Option.some.inj ha'
      apply LastBest.concat_self hp
      intro b hb hpb
      cases hbest : done.foldl (better p w) none with
      | none => exact absurd hpb (hnone hbest b hb)
      | some c =>
        rw [hbest] at hall
        exact ((hsome c hbest).le hb hpb).trans (of_decide_eq_true hall)
    · next hworse =>
      -- `a` is passed over: then there is a best already, and it is strictly better
      have hworse' : p a → ∃ c, done.foldl (better p w) none = some c ∧ w a < w c := by
        intro hp
        cases hbest : done.foldl (better p w) none with
        | none => simp [hbest, hp] at hworse
        | some c => exact ⟨c, rfl, by simpa [hbest, hp] using hworse⟩
      constructor
      · intro c hc
        apply (hsome c hc).concat
        intro hp
        obtain ⟨c', hc', hlt⟩ := hworse' hp
        rw [hc] at hc'
        exact Option.some.inj hc' ▸ hlt
      · intro hnil b hb hpb
        rcases List.mem_append.mp hb with hb | hb
        · exact hnone hnil b hb hpb
        · obtain rfl := List.mem_singleton.mp hb
          obtain ⟨c, hc, -⟩ := hworse' hpb
          rw [hnil] at hc
          cases hc

/-- What is left is the last of the best candidates. -/
theorem lastBest_of_foldl_better (h : l.foldl (better p w) none = some a) : LastBest p w l a :=
  foldl_better_spec.1 a h

/-- Nothing is left where there is no candidate. -/
theorem foldl_better_eq_none_iff : l.foldl (better p w) none = none ↔ ∀ a ∈ l, ¬p a := by
  refine ⟨foldl_better_spec.2, ?_⟩
  intro hno
  rw [Option.eq_none_iff_forall_not_mem]
  intro a ha
  have hbest := lastBest_of_foldl_better ha
  exact hno a hbest.mem hbest.1

end Snapper.General
