import Mathlib.Algebra.BigOperators.Group.List.Basic
import Mathlib.Algebra.Ring.Nat
import Mathlib.Data.List.Nodup

/-!
# Lists of things with a key

Finding and updating the things of one key.  Sums over a list in which a key stands once
change by what the update changes at its thing.
-/

namespace Snapper.General

universe u v

variable {α : Type u} {κ : Type v} [DecidableEq κ] {key : α → κ} {k k' : κ} {f : α → α}
  {l : List α} {a b : α}

/-- The thing with this key. -/
def lookup (key : α → κ) (k : κ) (l : List α) : Option α := l.find? fun a => key a = k

/-- The list with the things of this key changed. -/
def update (key : α → κ) (k : κ) (f : α → α) (l : List α) : List α :=
  l.map fun a => if key a = k then f a else a

theorem lookup_cons (key : α → κ) (k : κ) (a : α) (l : List α) :
    lookup key k (a :: l) = if key a = k then some a else lookup key k l := by
  by_cases hk : key a = k
  · simp [lookup, hk]
  · simp [lookup, hk]

theorem update_cons (key : α → κ) (k : κ) (f : α → α) (a : α) (l : List α) :
    update key k f (a :: l) = (if key a = k then f a else a) :: update key k f l := rfl

theorem mem_of_lookup (h : lookup key k l = some a) : a ∈ l := List.mem_of_find?_eq_some h

theorem key_of_lookup (h : lookup key k l = some a) : key a = k := by
  simpa using List.find?_some h

theorem lookup_isSome_iff : (lookup key k l).isSome ↔ ∃ a ∈ l, key a = k := by
  simp [lookup, List.find?_isSome]

theorem lookup_eq_none_iff : lookup key k l = none ↔ ∀ a ∈ l, key a ≠ k := by
  simp [lookup, List.find?_eq_none]

/-- Where a key stands once, its thing is found. -/
theorem lookup_of_mem (hnodup : (l.map key).Nodup) (ha : a ∈ l) :
    lookup key (key a) l = some a := by
  obtain ⟨b, hb⟩ : ∃ b, lookup key (key a) l = some b :=
    Option.isSome_iff_exists.mp (lookup_isSome_iff.mpr ⟨a, ha, rfl⟩)
  rw [hb, List.inj_on_of_nodup_map hnodup (mem_of_lookup hb) ha (key_of_lookup hb)]

theorem mem_update (h : b ∈ update key k f l) :
    ∃ a ∈ l, (key a = k ∧ b = f a) ∨ (key a ≠ k ∧ b = a) := by
  obtain ⟨a, ha, rfl⟩ := List.mem_map.mp h
  refine ⟨a, ha, ?_⟩
  by_cases hk : key a = k
  · exact Or.inl ⟨hk, if_pos hk⟩
  · exact Or.inr ⟨hk, if_neg hk⟩

theorem mem_update_self (ha : a ∈ l) (hk : key a = k) : f a ∈ update key k f l :=
  List.mem_map.mpr ⟨a, ha, if_pos hk⟩

theorem mem_update_other (ha : a ∈ l) (hk : key a ≠ k) : a ∈ update key k f l :=
  List.mem_map.mpr ⟨a, ha, if_neg hk⟩

/-- What an update leaves alone can be read off the list of before. -/
theorem map_update {β : Type*} {g : α → β} (hf : ∀ a, g (f a) = g a) :
    (update key k f l).map g = l.map g := by
  rw [update, List.map_map]
  apply List.map_congr_left
  intro a _
  by_cases hk : key a = k
  · simp [hk, hf]
  · simp [hk]

/-- Finding by a key that the update keeps. -/
theorem lookup_update {κ' : Type*} [DecidableEq κ'] {key' : α → κ'} {j : κ'}
    (hf : ∀ a, key' (f a) = key' a) :
    lookup key' j (update key k f l) =
      (lookup key' j l).map fun a => if key a = k then f a else a := by
  induction l with
  | nil => rfl
  | cons a l ih =>
    have hkey : key' (if key a = k then f a else a) = key' a := by
      split
      · exact hf a
      · rfl
    rw [update_cons, lookup_cons, lookup_cons, hkey, ih]
    by_cases hj : key' a = j
    · simp [hj]
    · simp [hj]

/-- Looking up in a list whose values are changed, with their keys kept, gives the changed value.
-/
theorem lookup_map (hf : ∀ a, key (f a) = key a) :
    lookup key k (l.map f) = (lookup key k l).map f := by
  induction l with
  | nil => rfl
  | cons a l ih =>
    rw [List.map_cons, lookup_cons, lookup_cons, hf, ih]
    by_cases hk : key a = k
    · simp [hk]
    · simp [hk]

/-- What is found and kept is found among what is kept. -/
theorem lookup_filter {p : α → Bool} (h : lookup key k l = some a) (hp : p a = true) :
    lookup key k (l.filter p) = some a := by
  induction l with
  | nil => cases h
  | cons b l ih =>
    rw [lookup_cons] at h
    by_cases hk : key b = k
    · rw [if_pos hk] at h
      obtain rfl := Option.some.inj h
      rw [List.filter_cons_of_pos hp, lookup_cons, if_pos hk]
    · rw [if_neg hk] at h
      rw [List.filter_cons]
      split
      · rw [lookup_cons, if_neg hk]
        exact ih h
      · exact ih h

theorem lookup_append (h : lookup key k l = some a) (l' : List α) :
    lookup key k (l ++ l') = some a := by
  rw [lookup, List.find?_append]
  show (lookup key k l).or _ = some a
  rw [h]
  rfl

theorem lookup_update_self (hf : ∀ a, key (f a) = key a) :
    lookup key k (update key k f l) = (lookup key k l).map f := by
  rw [lookup_update hf]
  cases h : lookup key k l with
  | none => rfl
  | some a => simp [key_of_lookup h]

theorem lookup_update_other (hf : ∀ a, key (f a) = key a) (hne : k' ≠ k) :
    lookup key k' (update key k f l) = lookup key k' l := by
  rw [lookup_update hf]
  cases h : lookup key k' l with
  | none => rfl
  | some a => simp [key_of_lookup h, hne]

/-- Two updates at a key are one. -/
theorem update_update {g : α → α} (hf : ∀ a, key (f a) = key a) :
    update key k g (update key k f l) = update key k (g ∘ f) l := by
  rw [update, update, update, List.map_map]
  apply List.map_congr_left
  intro a _
  by_cases hk : key a = k
  · simp [hk, hf]
  · simp [hk]

/-- A list stays the same exactly when its things of the key do. -/
theorem update_eq_self_iff : update key k f l = l ↔ ∀ a ∈ l, key a = k → f a = a := by
  constructor
  · intro h a ha hk
    induction l with
    | nil => cases ha
    | cons b l ih =>
      rw [update_cons, List.cons.injEq] at h
      obtain rfl | ha := List.mem_cons.mp ha
      · simpa [hk] using h.1
      · exact ih h.2 ha
  · intro h
    have hmap : l.map (fun a => if key a = k then f a else a) = l.map id := by
      apply List.map_congr_left
      intro a ha
      by_cases hk : key a = k
      · simp [hk, h a ha hk]
      · simp [hk]
    rw [update, hmap, List.map_id]

/-- A key that is not there changes nothing. -/
theorem update_of_not_mem (h : ∀ a ∈ l, key a ≠ k) : update key k f l = l :=
  update_eq_self_iff.mpr fun a ha hk => absurd hk (h a ha)

/-- Erasing the thing of a key that stands once. -/
theorem mem_eraseP_iff (hnodup : (l.map key).Nodup) :
    a ∈ l.eraseP (fun b => key b = k) ↔ a ∈ l ∧ key a ≠ k := by
  induction l with
  | nil => simp
  | cons b l ih =>
    rw [List.map_cons, List.nodup_cons] at hnodup
    by_cases hb : key b = k
    · -- the rest has other keys
      have hrest : ∀ a ∈ l, key a ≠ k := fun a ha hk =>
        hnodup.1 (List.mem_map.mpr ⟨a, ha, hk.trans hb.symm⟩)
      rw [List.eraseP_cons_of_pos (by simpa using hb), List.mem_cons]
      constructor
      · intro ha
        exact ⟨Or.inr ha, hrest a ha⟩
      · rintro ⟨rfl | ha, hk⟩
        · exact absurd hb hk
        · exact ha
    · rw [List.eraseP_cons_of_neg (by simpa using hb), List.mem_cons, List.mem_cons, ih hnodup.2]
      constructor
      · rintro (rfl | ⟨ha, hk⟩)
        · exact ⟨Or.inl rfl, hb⟩
        · exact ⟨Or.inr ha, hk⟩
      · rintro ⟨rfl | ha, hk⟩
        · exact Or.inl rfl
        · exact Or.inr ⟨ha, hk⟩

/-- The other things are the same. -/
theorem filter_update_ne (hf : ∀ a, key (f a) = key a) :
    (update key k f l).filter (key · ≠ k) = l.filter (key · ≠ k) := by
  induction l with
  | nil => rfl
  | cons a l ih =>
    rw [update_cons]
    by_cases hk : key a = k
    · rw [if_pos hk, List.filter_cons_of_neg (by simp [hf, hk]),
        List.filter_cons_of_neg (by simp [hk]), ih]
    · rw [if_neg hk, List.filter_cons_of_pos (by simp [hk]),
        List.filter_cons_of_pos (by simp [hk]), ih]

/-- With unique keys an update changes a sum by what it changes at its key. -/
theorem sum_update {w : α → ℕ} (hnodup : (l.map key).Nodup) (ha : a ∈ l) (hk : key a = k) :
    ((update key k f l).map w).sum + w a = (l.map w).sum + w (f a) := by
  induction l with
  | nil => cases ha
  | cons b l ih =>
    rw [List.map_cons, List.nodup_cons] at hnodup
    have hcons : update key k f (b :: l) = (if key b = k then f b else b) :: update key k f l := rfl
    rw [hcons, List.map_cons, List.map_cons, List.sum_cons, List.sum_cons]
    obtain rfl | ha := List.mem_cons.mp ha
    · -- the key does not come again
      have hrest : update key k f l = l := by
        apply update_of_not_mem
        intro c hc hck
        exact hnodup.1 (List.mem_map.mpr ⟨c, hc, hck.trans hk.symm⟩)
      rw [hrest, if_pos hk]
      omega
    · have hb : key b ≠ k := by
        intro hb
        exact hnodup.1 (List.mem_map.mpr ⟨a, ha, hk.trans hb.symm⟩)
      have hsum := ih hnodup.2 ha
      rw [if_neg hb]
      omega

/-- The weights without the thing of a key. -/
theorem sum_filter_ne {w : α → ℕ} (hnodup : (l.map key).Nodup) (ha : a ∈ l) (hk : key a = k) :
    ((l.filter (key · ≠ k)).map w).sum + w a = (l.map w).sum := by
  induction l with
  | nil => cases ha
  | cons b l ih =>
    rw [List.map_cons, List.nodup_cons] at hnodup
    obtain rfl | ha := List.mem_cons.mp ha
    · -- the key does not come again
      have hrest : l.filter (key · ≠ k) = l := by
        apply List.filter_eq_self.mpr
        intro c hc
        have hne : key c ≠ k := fun hck => hnodup.1 (List.mem_map.mpr ⟨c, hc, hck.trans hk.symm⟩)
        simpa using hne
      rw [List.filter_cons_of_neg (by simpa using hk), hrest, List.map_cons, List.sum_cons]
      omega
    · have hb : key b ≠ k := fun hb => hnodup.1 (List.mem_map.mpr ⟨a, ha, hk.trans hb.symm⟩)
      rw [List.filter_cons_of_pos (by simpa using hb), List.map_cons, List.sum_cons, List.map_cons,
        List.sum_cons, ← ih hnodup.2 ha]
      omega

/-- A weight that the update keeps. -/
theorem sum_update_same {w : α → ℕ} (hw : ∀ a ∈ l, key a = k → w (f a) = w a) :
    ((update key k f l).map w).sum = (l.map w).sum := by
  have hmap : (update key k f l).map w = l.map w := by
    rw [update, List.map_map]
    apply List.map_congr_left
    intro a ha
    by_cases hk : key a = k
    · simp [hk, hw a ha hk]
    · simp [hk]
  rw [hmap]

end Snapper.General
