import Mathlib.Order.Basic

/-!
# Commands with state, and triples about them

A command takes a state to a result and the next state.  `Triple P c Q` says that from
every state with `P` the command ends with a result and a state that satisfy `Q`, and
`Keeps I c` that it keeps an invariant.  The rules follow the structure of a `do` block.
-/

namespace Snapper.General

universe u v

/-- A command that returns an `α`. -/
structure Cmd (σ : Type u) (α : Type v) where
  run : σ → α × σ

namespace Cmd

variable {σ : Type u} {α β : Type u}

instance : Monad (Cmd σ) where
  pure a := ⟨fun s => (a, s)⟩
  bind c k := ⟨fun s => (k (c.run s).1).run (c.run s).2⟩

@[simp] theorem run_pure (a : α) (s : σ) : (pure a : Cmd σ α).run s = (a, s) := rfl

@[simp] theorem run_bind (c : Cmd σ α) (k : α → Cmd σ β) (s : σ) :
    (c >>= k).run s = (k (c.run s).1).run (c.run s).2 := rfl

@[simp] theorem run_ite (p : Prop) [Decidable p] (c c' : Cmd σ α) (s : σ) :
    (if p then c else c').run s = if p then c.run s else c'.run s := by
  split <;> rfl

/-- The command where `c` holds, and otherwise just the result `a`. -/
def when (c : Bool) (cmd : Cmd σ α) (a : α) : Cmd σ α := if c then cmd else Pure.pure a

@[simp] theorem when_true (cmd : Cmd σ α) (a : α) : when true cmd a = cmd := rfl

@[simp] theorem when_false (cmd : Cmd σ α) (a : α) : when false cmd a = Pure.pure a := rfl

/-- Started with `P`, the command ends with `Q`. -/
def Triple (P : σ → Prop) (c : Cmd σ α) (Q : α → σ → Prop) : Prop :=
  ∀ s, P s → Q (c.run s).1 (c.run s).2

namespace Triple

variable {P P' : σ → Prop} {Q Q' : α → σ → Prop} {R : β → σ → Prop}

theorem pure {a : α} (h : ∀ s, P s → Q a s) : Triple P (pure a : Cmd σ α) Q := h

/-- The first command establishes what the second starts from, for each of its results. -/
theorem bind {c : Cmd σ α} {k : α → Cmd σ β} (hc : Triple P c Q)
    (hk : ∀ a, Triple (Q a) (k a) R) : Triple P (c >>= k) R := by
  intro s hs
  exact hk _ _ (hc s hs)

theorem ite {p : Prop} [Decidable p] {c c' : Cmd σ α}
    (hc : p → Triple P c Q) (hc' : ¬p → Triple P c' Q) :
    Triple P (if p then c else c') Q := by
  split
  · next h => exact hc h
  · next h => exact hc' h

theorem when {b : Bool} {c : Cmd σ α} {a : α} (hc : b = true → Triple P c Q)
    (ha : b = false → ∀ s, P s → Q a s) : Triple P (when b c a) Q := by
  cases b with
  | true => exact hc rfl
  | false => exact ha rfl

theorem conseq {c : Cmd σ α} (h : Triple P' c Q') (hP : ∀ s, P s → P' s)
    (hQ : ∀ a s, Q' a s → Q a s) : Triple P c Q := by
  intro s hs
  exact hQ _ _ (h s (hP s hs))

/-- A fact that does not depend on the state is known throughout the command. -/
theorem of_fact {p : Prop} {c : Cmd σ α} (h : p → Triple P c Q) :
    Triple (fun s => P s ∧ p) c Q :=
  fun s hs => h hs.2 s hs.1

theorem post {c : Cmd σ α} (h : Triple P c Q') (hQ : ∀ a s, Q' a s → Q a s) : Triple P c Q :=
  h.conseq (fun _ hs => hs) hQ

/-- What another command keeps may be added to both sides. -/
theorem and_keeps {I : σ → Prop} {c : Cmd σ α} (h : Triple P c Q)
    (hI : Triple I c fun _ => I) : Triple (fun s => P s ∧ I s) c fun a s => Q a s ∧ I s :=
  fun s hs => ⟨h s hs.1, hI s hs.2⟩

end Triple

/-- The command keeps the invariant, whatever it returns. -/
def Keeps (I : σ → Prop) (c : Cmd σ α) : Prop := Triple I c fun _ => I

namespace Keeps

variable {I : σ → Prop}

theorem pure (a : α) : Keeps I (pure a : Cmd σ α) := fun _ hs => hs

theorem bind {c : Cmd σ α} {k : α → Cmd σ β} (hc : Keeps I c) (hk : ∀ a, Keeps I (k a)) :
    Keeps I (c >>= k) :=
  Triple.bind hc hk

theorem ite {p : Prop} [Decidable p] {c c' : Cmd σ α} (hc : Keeps I c) (hc' : Keeps I c') :
    Keeps I (if p then c else c') :=
  Triple.ite (fun _ => hc) fun _ => hc'

theorem when {b : Bool} {c : Cmd σ α} (a : α) (hc : Keeps I c) : Keeps I (when b c a) :=
  Triple.when (fun _ => hc) fun _ _ hs => hs

end Keeps

/-- When the command reports success it ends with `Q`. -/
def Succeeds {σ : Type} (P : σ → Prop) (c : Cmd σ Bool) (Q : σ → Prop) : Prop :=
  Triple P c fun b s => b = true → Q s

namespace Succeeds

variable {σ α : Type} {P Q R : σ → Prop}

theorem failure : Succeeds P (pure false : Cmd σ Bool) Q := fun _ _ h => by cases h

theorem success (h : ∀ s, P s → Q s) : Succeeds P (pure true : Cmd σ Bool) Q :=
  fun s hs _ => h s hs

theorem pre {c : Cmd σ Bool} (P' : σ → Prop) (hP : ∀ s, P s → P' s) (h : Succeeds P' c Q) :
    Succeeds P c Q :=
  Triple.conseq h hP fun _ _ hQ => hQ

/-- A command whose failure is reported at once. -/
theorem check {c : Cmd σ α} {fails : α → Bool} {rest : Cmd σ Bool}
    (hc : Triple P c fun r s => fails r = false → Q s) (hrest : Succeeds Q rest R) :
    Succeeds P (c >>= fun r => if fails r = true then pure false else rest) R := by
  refine Triple.bind hc fun r => Triple.ite (fun _ => failure) fun hr => ?_
  exact hrest.pre _ fun s hs => hs (by simpa using hr)

/-- A command that runs whether or not those before it have succeeded. -/
theorem and {c : Cmd σ Bool} (d : Bool) (h : Succeeds P c Q) :
    Triple (fun s => d = true → P s) c fun b s => (d && b) = true → Q s := by
  intro s hs hboth
  obtain ⟨hd, hb⟩ := Bool.and_eq_true_iff.mp hboth
  exact h s (hs hd) hb

theorem when {b : Bool} {c : Cmd σ Bool} (hc : b = true → Succeeds P c Q)
    (hskip : b = false → ∀ s, P s → Q s) : Succeeds P (Cmd.when b c true) Q :=
  Triple.when hc fun hb s hs _ => hskip hb s hs

end Succeeds

end Cmd

end Snapper.General
