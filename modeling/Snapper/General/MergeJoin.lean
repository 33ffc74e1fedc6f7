import Mathlib.Data.List.Sort
import Mathlib.Order.Basic

/-!
# Merge join of two sorted keyed lists

Two lists of key/value pairs, each strictly ascending in the key, are walked
with one cursor each.  Every key is visited once: on the left only, on the right
only, or on both sides.

## Main results

- `mem_mergeJoin_left`, `mem_mergeJoin_right`, `mem_mergeJoin_both`: what is visited
- `mergeJoin_keys_pairwise`: the keys of the join are strictly ascending
- `mergeJoin_swap`: exchanging the sides exchanges the sides of every visit
-/

namespace Snapper.General

universe u v w

/-- One visit of a merge join. -/
inductive Joined (α : Type u) (β : Type v) where
  | left : α → Joined α β
  | right : β → Joined α β
  | both : α → β → Joined α β

/-- The same visit with the two sides exchanged. -/
def Joined.swap {α : Type u} {β : Type v} : Joined α β → Joined β α
  | .left a => .right a
  | .right b => .left b
  | .both a b => .both b a

section MergeJoin

variable {κ : Type w} [LinearOrder κ] {α : Type u} {β : Type v}

/-- Strictly ascending keys. -/
def KeysSorted (l : List (κ × α)) : Prop := l.Pairwise (fun x y => x.1 < y.1)

/-- Walk both lists, always advancing the cursor with the smaller key. -/
def mergeJoin : List (κ × α) → List (κ × β) → List (κ × Joined α β)
  | [], [] => []
  | [], (k, b) :: r => (k, .right b) :: mergeJoin [] r
  | (k, a) :: l, [] => (k, .left a) :: mergeJoin l []
  | (k₁, a) :: l, (k₂, b) :: r =>
    if k₂ < k₁ then (k₂, .right b) :: mergeJoin ((k₁, a) :: l) r
    else if k₁ < k₂ then (k₁, .left a) :: mergeJoin l ((k₂, b) :: r)
    else (k₁, .both a b) :: mergeJoin l r
termination_by l r => l.length + r.length

/-! ## Keys -/

theorem KeysSorted.tail {x : κ × α} {l : List (κ × α)} (h : KeysSorted (x :: l)) :
    KeysSorted l :=
  (List.pairwise_cons.mp h).2

theorem KeysSorted.head_lt {x y : κ × α} {l : List (κ × α)} (h : KeysSorted (x :: l))
    (hy : y ∈ l) : x.1 < y.1 :=
  (List.pairwise_cons.mp h).1 y hy

theorem KeysSorted.filter {l : List (κ × α)} (p : κ × α → Bool) (h : KeysSorted l) :
    KeysSorted (l.filter p) :=
  List.Pairwise.filter p h

/-- In a list with strictly ascending keys a key determines its entry. -/
theorem KeysSorted.unique {l : List (κ × α)} (h : KeysSorted l) {k : κ} {a b : α}
    (ha : (k, a) ∈ l) (hb : (k, b) ∈ l) : a = b := by
  induction l with
  | nil => cases ha
  | cons x l ih =>
    rcases List.mem_cons.mp ha with rfl | ha' <;> rcases List.mem_cons.mp hb with hb' | hb'
    · exact (Prod.mk.inj hb').2.symm
    · exact absurd (h.head_lt hb') (lt_irrefl _)
    · subst hb'
      exact absurd (h.head_lt ha') (lt_irrefl _)
    · exact ih h.tail ha' hb'

/-- Every key of the join is a key of one of the lists. -/
theorem mergeJoin_key_mem (l : List (κ × α)) (r : List (κ × β)) {k : κ} {v : Joined α β}
    (h : (k, v) ∈ mergeJoin l r) : (∃ a, (k, a) ∈ l) ∨ (∃ b, (k, b) ∈ r) := by
  -- a key of the join is that of its first entry or one of the rest of the join
  induction l, r using mergeJoin.induct with
  | case1 => simp [mergeJoin] at h
  | case2 k' b r ih =>
    rw [mergeJoin, List.mem_cons] at h
    rcases h with h | h
    · cases h
      exact Or.inr ⟨b, List.mem_cons_self ..⟩
    · rcases ih h with ⟨a, ha⟩ | ⟨b', hb'⟩
      · cases ha
      · exact Or.inr ⟨b', List.mem_cons_of_mem _ hb'⟩
  | case3 k' a l ih =>
    rw [mergeJoin, List.mem_cons] at h
    rcases h with h | h
    · cases h
      exact Or.inl ⟨a, List.mem_cons_self ..⟩
    · rcases ih h with ⟨a', ha'⟩ | ⟨b, hb⟩
      · exact Or.inl ⟨a', List.mem_cons_of_mem _ ha'⟩
      · cases hb
  | case4 k₁ a l k₂ b r hlt ih =>
    rw [mergeJoin, if_pos hlt, List.mem_cons] at h
    rcases h with h | h
    · cases h
      exact Or.inr ⟨b, List.mem_cons_self ..⟩
    · exact (ih h).imp_right fun ⟨b', hb'⟩ => ⟨b', List.mem_cons_of_mem _ hb'⟩
  | case5 k₁ a l k₂ b r hge hlt ih =>
    rw [mergeJoin, if_neg hge, if_pos hlt, List.mem_cons] at h
    rcases h with h | h
    · cases h
      exact Or.inl ⟨a, List.mem_cons_self ..⟩
    · exact (ih h).imp_left fun ⟨a', ha'⟩ => ⟨a', List.mem_cons_of_mem _ ha'⟩
  -- equal keys: the first entry has the values of both lists
  | case6 k₁ a l k₂ b r hge hge' ih =>
    rw [mergeJoin, if_neg hge, if_neg hge', List.mem_cons] at h
    rcases h with h | h
    · cases h
      exact Or.inl ⟨a, List.mem_cons_self ..⟩
    · exact (ih h).imp (fun ⟨a', ha'⟩ => ⟨a', List.mem_cons_of_mem _ ha'⟩)
        (fun ⟨b', hb'⟩ => ⟨b', List.mem_cons_of_mem _ hb'⟩)

/-- The join of two lists with strictly ascending keys has strictly ascending keys. -/
theorem mergeJoin_keys_pairwise (l : List (κ × α)) (r : List (κ × β)) (hl : KeysSorted l)
    (hr : KeysSorted r) : KeysSorted (mergeJoin l r) := by
  -- each emitted key is below every key still to come on both sides
  have cons : ∀ (x : κ × Joined α β) (l : List (κ × α)) (r : List (κ × β)),
      (∀ y ∈ l, x.1 < y.1) → (∀ y ∈ r, x.1 < y.1) → KeysSorted (mergeJoin l r) →
      KeysSorted (x :: mergeJoin l r) := by
    intro x l r hxl hxr h
    refine List.pairwise_cons.mpr ⟨?_, h⟩
    rintro ⟨k, v⟩ hk
    rcases mergeJoin_key_mem l r hk with ⟨a, ha⟩ | ⟨b, hb⟩
    · exact hxl _ ha
    · exact hxr _ hb
  induction l, r using mergeJoin.induct with
  | case1 => simp [mergeJoin, KeysSorted]
  | case2 k b r ih =>
    rw [mergeJoin]
    exact cons _ _ _ (by simp) (fun y hy => hr.head_lt hy) (ih hl hr.tail)
  | case3 k a l ih =>
    rw [mergeJoin]
    exact cons _ _ _ (fun y hy => hl.head_lt hy) (by simp) (ih hl.tail hr)
  | case4 k₁ a l k₂ b r hlt ih =>
    rw [mergeJoin, if_pos hlt]
    refine cons _ _ _ ?_ (fun y hy => hr.head_lt hy) (ih hl hr.tail)
    intro y hy
    rcases List.mem_cons.mp hy with rfl | hy
    · exact hlt
    · exact hlt.trans (hl.head_lt hy)
  | case5 k₁ a l k₂ b r hge hlt ih =>
    rw [mergeJoin, if_neg hge, if_pos hlt]
    refine cons _ _ _ (fun y hy => hl.head_lt hy) ?_ (ih hl.tail hr)
    intro y hy
    rcases List.mem_cons.mp hy with rfl | hy
    · exact hlt
    · exact hlt.trans (hr.head_lt hy)
  | case6 k₁ a l k₂ b r hge hge' ih =>
    rw [mergeJoin, if_neg hge, if_neg hge']
    have heq : k₁ = k₂ := le_antisymm (not_lt.mp hge) (not_lt.mp hge')
    subst heq
    exact cons _ _ _ (fun y hy => hl.head_lt hy) (fun y hy => hr.head_lt hy)
      (ih hl.tail hr.tail)

/-! ## What is visited -/

/-- A visit of both sides comes from an entry on each side. -/
theorem mergeJoin_sound (l : List (κ × α)) (r : List (κ × β)) {k : κ} {v : Joined α β}
    (h : (k, v) ∈ mergeJoin l r) :
    match v with
    | .left a => (k, a) ∈ l
    | .right b => (k, b) ∈ r
    | .both a b => (k, a) ∈ l ∧ (k, b) ∈ r := by
  induction l, r using mergeJoin.induct with
  | case1 => simp [mergeJoin] at h
  | case2 k' b r ih =>
    rw [mergeJoin, List.mem_cons] at h
    rcases h with h | h
    · cases h
      exact List.mem_cons_self ..
    · have := ih h
      cases v <;> simp_all
  | case3 k' a l ih =>
    rw [mergeJoin, List.mem_cons] at h
    rcases h with h | h
    · cases h
      exact List.mem_cons_self ..
    · have := ih h
      cases v <;> simp_all
  | case4 k₁ a l k₂ b r hlt ih =>
    rw [mergeJoin, if_pos hlt, List.mem_cons] at h
    rcases h with h | h
    · cases h
      exact List.mem_cons_self ..
    · have := ih h
      cases v with
      | left a' => exact this
      | right b' => exact List.mem_cons_of_mem _ this
      | both a' b' => exact ⟨this.1, List.mem_cons_of_mem _ this.2⟩
  | case5 k₁ a l k₂ b r hge hlt ih =>
    rw [mergeJoin, if_neg hge, if_pos hlt, List.mem_cons] at h
    rcases h with h | h
    · cases h
      exact List.mem_cons_self ..
    · have := ih h
      cases v with
      | left a' => exact List.mem_cons_of_mem _ this
      | right b' => exact this
      | both a' b' => exact ⟨List.mem_cons_of_mem _ this.1, this.2⟩
  | case6 k₁ a l k₂ b r hge hge' ih =>
    -- equal keys are joined, with a value of either side
    have heq : k₁ = k₂ := le_antisymm (not_lt.mp hge) (not_lt.mp hge')
    subst heq
    rw [mergeJoin, if_neg hge, if_neg hge', List.mem_cons] at h
    rcases h with h | h
    · cases h
      exact ⟨List.mem_cons_self .., List.mem_cons_self ..⟩
    · have := ih h
      cases v with
      | left a' => exact List.mem_cons_of_mem _ this
      | right b' => exact List.mem_cons_of_mem _ this
      | both a' b' => exact ⟨List.mem_cons_of_mem _ this.1, List.mem_cons_of_mem _ this.2⟩

/-- Every entry of the left list is visited. -/
theorem mergeJoin_covers_left (l : List (κ × α)) (r : List (κ × β)) {k : κ} {a : α}
    (h : (k, a) ∈ l) :
    (k, .left a) ∈ mergeJoin l r ∨ ∃ b, (k, .both a b) ∈ mergeJoin l r := by
  -- the entry comes first or is an entry of the rest
  induction l, r using mergeJoin.induct with
  | case1 => cases h
  | case2 k' b r ih => cases h
  | case3 k' a' l ih =>
    rw [mergeJoin]
    rcases List.mem_cons.mp h with h | h
    · cases h
      exact Or.inl (List.mem_cons_self ..)
    · exact (ih h).imp (List.mem_cons_of_mem _) fun ⟨b, hb⟩ => ⟨b, List.mem_cons_of_mem _ hb⟩
  | case4 k₁ a' l k₂ b r hlt ih =>
    rw [mergeJoin, if_pos hlt]
    exact (ih h).imp (List.mem_cons_of_mem _) fun ⟨b, hb⟩ => ⟨b, List.mem_cons_of_mem _ hb⟩
  | case5 k₁ a' l k₂ b r hge hlt ih =>
    rw [mergeJoin, if_neg hge, if_pos hlt]
    rcases List.mem_cons.mp h with h | h
    · cases h
      exact Or.inl (List.mem_cons_self ..)
    · exact (ih h).imp (List.mem_cons_of_mem _) fun ⟨b, hb⟩ => ⟨b, List.mem_cons_of_mem _ hb⟩
  | case6 k₁ a' l k₂ b r hge hge' ih =>
    rw [mergeJoin, if_neg hge, if_neg hge']
    rcases List.mem_cons.mp h with h | h
    · cases h
      exact Or.inr ⟨b, List.mem_cons_self ..⟩
    · exact (ih h).imp (List.mem_cons_of_mem _) fun ⟨b, hb⟩ => ⟨b, List.mem_cons_of_mem _ hb⟩

/-- Exchanging the two lists exchanges the sides of every visit. -/
theorem mergeJoin_swap (l : List (κ × α)) (r : List (κ × β)) :
    mergeJoin r l = (mergeJoin l r).map fun x => (x.1, x.2.swap) := by
  induction l, r using mergeJoin.induct with
  | case1 => simp [mergeJoin]
  | case2 k b r ih =>
    rw [mergeJoin, mergeJoin, ih, List.map_cons]
    rfl
  | case3 k a l ih =>
    rw [mergeJoin, mergeJoin, ih, List.map_cons]
    rfl
  | case4 k₁ a l k₂ b r hlt ih =>
    rw [mergeJoin, mergeJoin, if_neg (lt_asymm hlt), if_pos hlt, if_pos hlt, ih, List.map_cons]
    rfl
  | case5 k₁ a l k₂ b r hge hlt ih =>
    rw [mergeJoin, mergeJoin, if_pos hlt, if_neg hge, if_pos hlt, ih, List.map_cons]
    rfl
  | case6 k₁ a l k₂ b r hge hge' ih =>
    -- neither key is smaller
    have heq : k₁ = k₂ := le_antisymm (not_lt.mp hge) (not_lt.mp hge')
    subst heq
    rw [mergeJoin, mergeJoin, if_neg hge, if_neg hge, if_neg hge, if_neg hge, ih, List.map_cons]
    rfl

/-- Every entry of the right list is visited. -/
theorem mergeJoin_covers_right (l : List (κ × α)) (r : List (κ × β)) {k : κ} {b : β}
    (h : (k, b) ∈ r) :
    (k, .right b) ∈ mergeJoin l r ∨ ∃ a, (k, .both a b) ∈ mergeJoin l r := by
  have hmem : ∀ v : Joined β α, (k, v) ∈ mergeJoin r l → (k, v.swap) ∈ mergeJoin l r := by
    intro v hv
    rw [mergeJoin_swap r l]
    exact List.mem_map.mpr ⟨(k, v), hv, rfl⟩
  rcases mergeJoin_covers_left r l h with hb | ⟨a, hab⟩
  · exact Or.inl (hmem _ hb)
  · exact Or.inr ⟨a, hmem _ hab⟩

/-- The left-only visits are the left entries whose key the right list lacks. -/
theorem mem_mergeJoin_left {l : List (κ × α)} {r : List (κ × β)} (hl : KeysSorted l)
    (hr : KeysSorted r) {k : κ} {a : α} :
    (k, .left a) ∈ mergeJoin l r ↔ (k, a) ∈ l ∧ ∀ b, (k, b) ∉ r := by
  have hkeys := mergeJoin_keys_pairwise l r hl hr
  constructor
  · intro h
    refine ⟨mergeJoin_sound l r h, fun b hb => ?_⟩
    rcases mergeJoin_covers_right l r hb with h' | ⟨a', h'⟩
    · cases hkeys.unique h h'
    · cases hkeys.unique h h'
  · rintro ⟨ha, hnot⟩
    rcases mergeJoin_covers_left l r ha with h | ⟨b, h⟩
    · exact h
    · exact absurd (mergeJoin_sound l r h).2 (hnot b)

/-- The right-only visits are the right entries whose key the left list lacks. -/
theorem mem_mergeJoin_right {l : List (κ × α)} {r : List (κ × β)} (hl : KeysSorted l)
    (hr : KeysSorted r) {k : κ} {b : β} :
    (k, .right b) ∈ mergeJoin l r ↔ (k, b) ∈ r ∧ ∀ a, (k, a) ∉ l := by
  have hkeys := mergeJoin_keys_pairwise l r hl hr
  constructor
  · intro h
    refine ⟨mergeJoin_sound l r h, fun a ha => ?_⟩
    rcases mergeJoin_covers_left l r ha with h' | ⟨b', h'⟩
    · cases hkeys.unique h h'
    · cases hkeys.unique h h'
  · rintro ⟨hb, hnot⟩
    rcases mergeJoin_covers_right l r hb with h | ⟨a, h⟩
    · exact h
    · exact absurd (mergeJoin_sound l r h).1 (hnot a)

/-- The visits of both sides are the pairs of entries with one key. -/
theorem mem_mergeJoin_both {l : List (κ × α)} {r : List (κ × β)} (hl : KeysSorted l)
    (hr : KeysSorted r) {k : κ} {a : α} {b : β} :
    (k, .both a b) ∈ mergeJoin l r ↔ (k, a) ∈ l ∧ (k, b) ∈ r := by
  refine ⟨fun h => mergeJoin_sound l r h, ?_⟩
  rintro ⟨ha, hb⟩
  rcases mergeJoin_covers_left l r ha with h | ⟨b', h⟩
  · exact absurd hb (((mem_mergeJoin_left hl hr).mp h).2 b)
  · have hb' : b' = b := hr.unique (mergeJoin_sound l r h).2 hb
    exact hb' ▸ h

end MergeJoin

end Snapper.General
