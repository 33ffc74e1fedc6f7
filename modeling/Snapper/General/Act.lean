import Mathlib.Logic.Relation

/-!
# Actions with state and exceptions

An action takes a state to a result or an exception, and to the next state: what was
changed before an exception stays changed.  `Spec P c Q E` says that from every state with
`P` the action returns with `Q` or throws with `E`.
-/

namespace Snapper.General

universe u

/-- An action that returns an `α` or throws an `ε`. -/
structure Act (σ : Type u) (ε : Type u) (α : Type u) where
  run : σ → Except ε α × σ

namespace Act

variable {σ ε α β : Type u}

instance : Monad (Act σ ε) where
  pure a := ⟨fun s => (.ok a, s)⟩
  bind c k := ⟨fun s =>
    match c.run s with
    | (.ok a, s') => (k a).run s'
    | (.error e, s') => (.error e, s')⟩

instance : MonadExceptOf ε (Act σ ε) where
  throw e := ⟨fun s => (.error e, s)⟩
  tryCatch c k := ⟨fun s =>
    match c.run s with
    | (.ok a, s') => (.ok a, s')
    | (.error e, s') => (k e).run s'⟩

/-- Look at the state. -/
def read (f : σ → α) : Act σ ε α := ⟨fun s => (.ok (f s), s)⟩

/-- Change the state. -/
def modify (f : σ → σ) : Act σ ε PUnit := ⟨fun s => (.ok ⟨⟩, f s)⟩

/-- Throw other exceptions instead. -/
def mapError {ε' : Type u} (f : ε → ε') (c : Act σ ε α) : Act σ ε' α :=
  ⟨fun s =>
    match c.run s with
    | (.ok a, s') => (.ok a, s')
    | (.error e, s') => (.error (f e), s')⟩

/-- What is known already: a result, or an exception. -/
def ofExcept (r : Except ε α) : Act σ ε α := ⟨fun s => (r, s)⟩

/-- Throw where something holds. -/
def throwIf (b : Bool) (e : ε) : Act σ ε PUnit := if b then throw e else pure ⟨⟩

@[simp] theorem run_pure (a : α) (s : σ) : (pure a : Act σ ε α).run s = (.ok a, s) := rfl

@[simp] theorem run_throw (e : ε) (s : σ) : (throw e : Act σ ε α).run s = (.error e, s) := rfl

@[simp] theorem run_read (f : σ → α) (s : σ) : (read f : Act σ ε α).run s = (.ok (f s), s) := rfl

@[simp] theorem run_modify (f : σ → σ) (s : σ) :
    (modify f : Act σ ε PUnit).run s = (.ok ⟨⟩, f s) := rfl

@[simp] theorem run_ofExcept (r : Except ε α) (s : σ) :
    (ofExcept r : Act σ ε α).run s = (r, s) := rfl

theorem run_mapError_ok {ε' : Type u} {f : ε → ε'} {c : Act σ ε α} {s s' : σ} {a : α}
    (h : c.run s = (.ok a, s')) : (c.mapError f).run s = (.ok a, s') := by
  simp [mapError, h]

theorem run_mapError_error {ε' : Type u} {f : ε → ε'} {c : Act σ ε α} {s s' : σ} {e : ε}
    (h : c.run s = (.error e, s')) : (c.mapError f).run s = (.error (f e), s') := by
  simp [mapError, h]

theorem run_bind (c : Act σ ε α) (k : α → Act σ ε β) (s : σ) :
    (c >>= k).run s =
      match c.run s with
      | (.ok a, s') => (k a).run s'
      | (.error e, s') => (.error e, s') := rfl

theorem run_bind_ok {c : Act σ ε α} {k : α → Act σ ε β} {s s' : σ} {a : α}
    (h : c.run s = (.ok a, s')) : (c >>= k).run s = (k a).run s' := by
  rw [run_bind, h]

theorem run_bind_error {c : Act σ ε α} {k : α → Act σ ε β} {s s' : σ} {e : ε}
    (h : c.run s = (.error e, s')) : (c >>= k).run s = (.error e, s') := by
  rw [run_bind, h]

/-- Three actions in a row. -/
theorem bind_bind {γ : Type u} {c : Act σ ε α} {k : α → Act σ ε β} {l : β → Act σ ε γ} :
    ((c >>= k) >>= l) = (c >>= fun a => k a >>= l) := by
  show (⟨_⟩ : Act σ ε γ) = ⟨_⟩
  congr 1
  funext s
  show ((c >>= k) >>= l).run s = (c >>= fun a => k a >>= l).run s
  rw [run_bind, run_bind, run_bind]
  cases hrun : c.run s with
  | mk r s' =>
    cases r with
    | ok a => rfl
    | error e => rfl

theorem run_tryCatch_ok {c : Act σ ε α} {k : ε → Act σ ε α} {s s' : σ} {a : α}
    (h : c.run s = (.ok a, s')) : (tryCatch c k).run s = (.ok a, s') := by
  show (match c.run s with
    | (.ok a, s') => (.ok a, s')
    | (.error e, s') => (k e).run s') = (.ok a, s')
  rw [h]

theorem run_tryCatch_error {c : Act σ ε α} {k : ε → Act σ ε α} {s s' : σ} {e : ε}
    (h : c.run s = (.error e, s')) : (tryCatch c k).run s = (k e).run s' := by
  show (match c.run s with
    | (.ok a, s') => (.ok a, s')
    | (.error e, s') => (k e).run s') = (k e).run s'
  rw [h]

@[simp] theorem run_ite (p : Prop) [Decidable p] (c c' : Act σ ε α) (s : σ) :
    (if p then c else c').run s = if p then c.run s else c'.run s := by
  split <;> rfl

/-- From `P` the action returns with `Q` or throws with `E`. -/
def Spec (P : σ → Prop) (c : Act σ ε α) (Q : α → σ → Prop) (E : ε → σ → Prop) : Prop :=
  ∀ s, P s →
    match c.run s with
    | (.ok a, s') => Q a s'
    | (.error e, s') => E e s'

namespace Spec

variable {P P' : σ → Prop} {Q Q' : α → σ → Prop} {R : β → σ → Prop} {E E' : ε → σ → Prop}

theorem error {c : Act σ ε α} (h : Spec P c Q E) {s s' : σ} {e : ε} (hs : P s)
    (hrun : c.run s = (.error e, s')) : E e s' := by
  have hspec := h s hs
  rwa [hrun] at hspec

/-- What holds either way holds of the state afterwards. -/
theorem final {P' : σ → Prop} {c : Act σ ε α} (h : Spec P c (fun _ => P') fun _ => P') {s : σ}
    (hs : P s) : P' (c.run s).2 := by
  have hspec := h s hs
  cases hrun : c.run s with
  | mk r s' =>
    rw [hrun] at hspec
    cases r with
    | ok _ => exact hspec
    | error _ => exact hspec

theorem pure {a : α} (h : ∀ s, P s → Q a s) : Spec P (pure a : Act σ ε α) Q E := h

theorem throw {e : ε} (h : ∀ s, P s → E e s) : Spec P (throw e : Act σ ε α) Q E := h

theorem read {f : σ → α} (h : ∀ s, P s → Q (f s) s) : Spec P (read f) Q E := h

theorem modify {f : σ → σ} {Q : PUnit → σ → Prop} (h : ∀ s, P s → Q ⟨⟩ (f s)) :
    Spec P (modify f) Q E := h

/-- The first action establishes what the second starts from. -/
theorem bind {c : Act σ ε α} {k : α → Act σ ε β} (hc : Spec P c Q E)
    (hk : ∀ a, Spec (Q a) (k a) R E) : Spec P (c >>= k) R E := by
  intro s hs
  rw [run_bind]
  have hspec := hc s hs
  cases hrun : c.run s with
  | mk r s' =>
    rw [hrun] at hspec
    cases r with
    | ok a => exact hk a s' hspec
    | error e => exact hspec

/-- What is established with an exception is what its handler starts from. -/
theorem tryCatch {c : Act σ ε α} {k : ε → Act σ ε α} (hc : Spec P c Q E)
    (hk : ∀ e, Spec (E e) (k e) Q E') : Spec P (tryCatch c k) Q E' := by
  intro s hs
  have hspec := hc s hs
  cases hrun : c.run s with
  | mk r s' =>
    rw [hrun] at hspec
    cases r with
    | ok a =>
      rw [run_tryCatch_ok hrun]
      exact hspec
    | error e =>
      rw [run_tryCatch_error hrun]
      exact hk e s' hspec

theorem ite {p : Prop} [Decidable p] {c c' : Act σ ε α} (hc : p → Spec P c Q E)
    (hc' : ¬p → Spec P c' Q E) : Spec P (if p then c else c') Q E := by
  split
  · next h => exact hc h
  · next h => exact hc' h

theorem throwIf {b : Bool} {e : ε} {Q : PUnit → σ → Prop} (hthrow : b = true → ∀ s, P s → E e s)
    (hgo : b = false → ∀ s, P s → Q ⟨⟩ s) : Spec P (throwIf b e) Q E := by
  cases b with
  | true => exact hthrow rfl
  | false => exact hgo rfl

/-- A fact about every start may be used. -/
theorem of_fact {c : Act σ ε α} {p : Prop} (hp : ∀ s, P s → p) (h : p → Spec P c Q E) :
    Spec P c Q E := fun s hs => h (hp s hs) s hs

/-- What holds anyway is still known when the action returns. -/
theorem fact {p : Prop} {c : Act σ ε α} :
    Spec (fun _ => p) c (fun _ _ => p) fun _ _ => True := by
  intro s hp
  split
  · exact hp
  · trivial

/-- The rule of consequence: a weaker precondition is enough, a stronger outcome and a stronger
exception are given up. -/
theorem conseq {c : Act σ ε α} (h : Spec P' c Q' E') (hP : ∀ s, P s → P' s)
    (hQ : ∀ a s, Q' a s → Q a s) (hE : ∀ e s, E' e s → E e s) : Spec P c Q E := by
  intro s hs
  have hspec := h s (hP s hs)
  cases hrun : c.run s with
  | mk r s' =>
    rw [hrun] at hspec
    cases r with
    | ok a => exact hQ a s' hspec
    | error e => exact hE e s' hspec

end Spec

/-- From `P` the action changes the state only by steps of `R`, also when it throws, and where
it returns it establishes `Q`. -/
def Through (R : σ → σ → Prop) (P : σ → Prop) (c : Act σ ε α) (Q : α → σ → Prop) : Prop :=
  ∀ s, P s → Relation.ReflTransGen R s (c.run s).2 ∧
    ∀ a, (c.run s).1 = .ok a → Q a (c.run s).2

/-- What the steps keep, sequences of them keep. -/
theorem keeps_of_steps {R : σ → σ → Prop} {I : σ → Prop} (hI : ∀ s s', R s s' → I s → I s')
    {s s' : σ} (h : Relation.ReflTransGen R s s') (hs : I s) : I s' := by
  induction h with
  | refl => exact hs
  | tail _ hstep ih => exact hI _ _ hstep ih

namespace Through

variable {R : σ → σ → Prop} {P P' : σ → Prop} {Q Q' : α → σ → Prop} {Q₂ : β → σ → Prop}

theorem pure {a : α} (h : ∀ s, P s → Q a s) : Through R P (pure a : Act σ ε α) Q := by
  intro s hs
  refine ⟨.refl, fun b hb => ?_⟩
  cases hb
  exact h s hs

theorem throw {e : ε} : Through R P (throw e : Act σ ε α) Q := by
  intro s _
  exact ⟨.refl, fun b hb => by cases hb⟩

theorem read {f : σ → α} (h : ∀ s, P s → Q (f s) s) : Through R P (read f : Act σ ε α) Q := by
  intro s hs
  refine ⟨.refl, fun b hb => ?_⟩
  cases hb
  exact h s hs

/-- Looking, where what is seen does not matter. -/
theorem look {f : σ → α} : Through R P (Act.read f : Act σ ε α) fun _ => P :=
  read fun _ h => h

theorem modify {f : σ → σ} {Q : PUnit → σ → Prop} (h : ∀ s, P s → R s (f s) ∧ Q ⟨⟩ (f s)) :
    Through R P (modify f : Act σ ε PUnit) Q := by
  intro s hs
  exact ⟨.single (h s hs).1, fun _ _ => (h s hs).2⟩

/-- Two changes that are one step. -/
theorem modify_modify {f g : σ → σ} {Q : PUnit → σ → Prop}
    (h : ∀ s, P s → R s (g (f s)) ∧ Q ⟨⟩ (g (f s))) :
    Through R P (Act.modify f >>= fun _ => Act.modify g : Act σ ε PUnit) Q := by
  intro s hs
  exact ⟨.single (h s hs).1, fun _ _ => (h s hs).2⟩

/-- A sequence makes the changes of its parts, where the second begins with what the first leaves.
-/
theorem bind {c : Act σ ε α} {k : α → Act σ ε β} (hc : Through R P c Q)
    (hk : ∀ a, Through R (Q a) (k a) Q₂) : Through R P (c >>= k) Q₂ := by
  intro s hs
  obtain ⟨hsteps, hpost⟩ := hc s hs
  rw [run_bind]
  cases hrun : c.run s with
  | mk r s' =>
    rw [hrun] at hsteps hpost
    cases r with
    | ok a =>
      obtain ⟨hsteps', hpost'⟩ := hk a s' (hpost a rfl)
      exact ⟨hsteps.trans hsteps', hpost'⟩
    | error e => exact ⟨hsteps, fun b hb => by cases hb⟩

theorem ite {p : Prop} [Decidable p] {c c' : Act σ ε α} (hc : p → Through R P c Q)
    (hc' : ¬p → Through R P c' Q) : Through R P (if p then c else c') Q := by
  split
  · next h => exact hc h
  · next h => exact hc' h

theorem throwIf {b : Bool} {e : ε} {Q : PUnit → σ → Prop}
    (h : b = false → ∀ s, P s → Q ⟨⟩ s) : Through R P (throwIf b e) Q := by
  cases b with
  | true => exact throw
  | false => exact pure (h rfl)

theorem conseq {c : Act σ ε α} (h : Through R P' c Q') (hP : ∀ s, P s → P' s)
    (hQ : ∀ a s, Q' a s → Q a s) : Through R P c Q := by
  intro s hs
  obtain ⟨hsteps, hpost⟩ := h s (hP s hs)
  exact ⟨hsteps, fun a ha => hQ a _ (hpost a ha)⟩

theorem assoc {γ : Type u} {c : Act σ ε α} {k : α → Act σ ε β} {l : β → Act σ ε γ}
    {Q : γ → σ → Prop} (h : Through R P ((c >>= k) >>= l) Q) :
    Through R P (c >>= fun a => k a >>= l) Q := by
  rwa [bind_bind] at h

/-- The steps of one run. -/
theorem steps_of_run {c : Act σ ε α} {s s' : σ} {r : Except ε α} (h : Through R P c Q) (hs : P s)
    (hrun : c.run s = (r, s')) : Relation.ReflTransGen R s s' := by
  obtain ⟨hsteps, -⟩ := h s hs
  rwa [hrun] at hsteps

/-- A fact about every start may be used. -/
theorem of_fact {c : Act σ ε α} {p : Prop} (hp : ∀ s, P s → p) (h : p → Through R P c Q) :
    Through R P c Q := by
  intro s hs
  exact h (hp s hs) s hs

/-- Steps that are steps of another kind. -/
theorem mono {R' : σ → σ → Prop} {c : Act σ ε α} (h : Through R P c Q)
    (hR : ∀ s s', R s s' → R' s s') : Through R' P c Q := by
  intro s hs
  obtain ⟨hsteps, hpost⟩ := h s hs
  exact ⟨Relation.ReflTransGen.mono hR _ _ hsteps, hpost⟩

/-- What the steps keep is still there when the action returns. -/
theorem keep {c : Act σ ε α} {I : σ → Prop} (h : Through R P c Q)
    (hI : ∀ s s', R s s' → I s → I s') :
    Through R (fun s => P s ∧ I s) c fun a s => Q a s ∧ I s := by
  intro s hs
  obtain ⟨hsteps, hpost⟩ := h s hs.1
  exact ⟨hsteps, fun a ha => ⟨hpost a ha, keeps_of_steps hI hsteps hs.2⟩⟩

/-- What the steps keep holds at the end, however the action ends. -/
theorem spec {c : Act σ ε α} {I : σ → Prop} (h : Through R P c Q)
    (hI : ∀ s s', R s s' → I s → I s') :
    Spec (fun s => P s ∧ I s) c (fun a s => Q a s ∧ I s) fun _ => I := by
  intro s hs
  obtain ⟨hsteps, hpost⟩ := h s hs.1
  have hend : I (c.run s).2 := keeps_of_steps hI hsteps hs.2
  cases hrun : c.run s with
  | mk r s' =>
    rw [hrun] at hend hpost
    cases r with
    | ok a => exact ⟨hpost a rfl, hend⟩
    | error e => exact hend

/-- What is specified of the action, next to what it establishes step by step. -/
theorem and_spec {c : Act σ ε α} {Q' : α → σ → Prop} {E : ε → σ → Prop}
    (h : Through R P c Q) (hc : Spec P' c Q' E) :
    Spec (fun s => P' s ∧ P s) c (fun a s => Q' a s ∧ Q a s) E := by
  rintro s ⟨hs', hs⟩
  have hspec := hc s hs'
  obtain ⟨-, hpost⟩ := h s hs
  cases hrun : c.run s with
  | mk r s' =>
    rw [hrun] at hspec hpost
    cases r with
    | ok a => exact ⟨hspec, hpost a rfl⟩
    | error e => exact hspec

end Through

/-- The action leaves what a view shows of the state as it is, also when it throws. -/
def Leaves {τ : Type*} (f : σ → τ) (c : Act σ ε α) : Prop := ∀ s, f (c.run s).2 = f s

namespace Leaves

variable {τ : Type*} {f : σ → τ}

theorem pure {a : α} : Leaves f (pure a : Act σ ε α) := fun _ => rfl

theorem throw {e : ε} : Leaves f (throw e : Act σ ε α) := fun _ => rfl

theorem read {g : σ → α} : Leaves f (read g : Act σ ε α) := fun _ => rfl

theorem modify {g : σ → σ} (h : ∀ s, f (g s) = f s) : Leaves f (modify g : Act σ ε PUnit) := h

/-- A sequence leaves what both of its parts leave. -/
theorem bind {c : Act σ ε α} {k : α → Act σ ε β} (hc : Leaves f c) (hk : ∀ a, Leaves f (k a)) :
    Leaves f (c >>= k) := by
  intro s
  have hfirst := hc s
  rw [run_bind]
  cases hrun : c.run s with
  | mk r s' =>
    rw [hrun] at hfirst
    cases r with
    | ok a => exact (hk a s').trans hfirst
    | error e => exact hfirst

theorem ite {p : Prop} [Decidable p] {c c' : Act σ ε α} (hc : Leaves f c) (hc' : Leaves f c') :
    Leaves f (if p then c else c') := by
  split
  · exact hc
  · exact hc'

theorem throwIf {b : Bool} {e : ε} : Leaves f (throwIf b e : Act σ ε PUnit) := by
  cases b with
  | true => exact throw
  | false => exact pure

/-- What no step of the action changes. -/
theorem of_through {R : σ → σ → Prop} {c : Act σ ε α} {Q : α → σ → Prop}
    (h : Through R (fun _ => True) c Q) (hR : ∀ s s', R s s' → f s' = f s) : Leaves f c := by
  intro s
  obtain ⟨hsteps, -⟩ := h s trivial
  exact keeps_of_steps (I := fun s' => f s' = f s) (fun _ _ hstep hs => (hR _ _ hstep).trans hs)
    hsteps rfl

/-- What is known of the state by the view is known afterwards. -/
theorem run {c : Act σ ε α} {s s' : σ} {r : Except ε α} (h : Leaves f c)
    (hrun : c.run s = (r, s')) : f s' = f s := by
  have hsame := h s
  rwa [hrun] at hsame

end Leaves

end Act

end Snapper.General
