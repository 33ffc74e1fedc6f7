import Mathlib.Algebra.Order.BigOperators.Group.List
import Mathlib.Algebra.Order.Group.Nat
import Mathlib.Algebra.Ring.Nat
import Mathlib.Data.Finset.Card
import Mathlib.Data.List.Find

/-!
# Slots for the last of each group

A list runs through groups, of several kinds: the elements of one group of a kind stand
together.  A scan gives each element that is the last of its group a slot of the first kind
that has one left; what gets a slot is kept and the rest is left over.

## Main results

- `not_mem_scan`: what is never left over
- `length_scan`: how much is kept
- `scan_filter`: removing leftovers does not change what the scan does with the others
-/

namespace Snapper.General

universe u v w

section Slots

variable {α : Type u} {β : Type v} {ι : Type w} [LinearOrder β]

/-- No element of the rest is in the group of `x`. -/
def LastOf (key : ι → α → β) (k : ι) (x : α) (rest : List α) : Prop :=
  ∀ y ∈ rest, key k y ≠ key k x

instance (key : ι → α → β) (k : ι) (x : α) (rest : List α) : Decidable (LastOf key k x rest) :=
  inferInstanceAs (Decidable (∀ y ∈ rest, key k y ≠ key k x))

/-- The first kind that has a slot for `x`. -/
def slot (kinds : List ι) (key : ι → α → β) (limit num : ι → Nat) (x : α) (rest : List α) :
    Option ι :=
  kinds.find? fun k => num k < limit k ∧ LastOf key k x rest

/-- What is used up after giving a slot. -/
def use [DecidableEq ι] (num : ι → Nat) : Option ι → ι → Nat
  | none => num
  | some k => Function.update num k (num k + 1)

/-- The elements that get no slot. -/
def scan [DecidableEq ι] (kinds : List ι) (key : ι → α → β) (limit : ι → Nat) :
    (ι → Nat) → List α → List α
  | _, [] => []
  | num, x :: rest =>
    match slot kinds key limit num x rest with
    | none => x :: scan kinds key limit num rest
    | some k => scan kinds key limit (use num (some k)) rest

/-- The groups of each kind stand together, from the greatest key to the least. -/
def Grouped (key : ι → α → β) (l : List α) : Prop :=
  ∀ k, l.Pairwise fun x y => key k y ≤ key k x

/-- How many groups come before that of `x`. -/
def groupsBefore (key : ι → α → β) (k : ι) (x : α) (l : List α) : Nat :=
  ((l.map (key k)).toFinset.filter fun c => key k x < c).card

variable {kinds : List ι} {key : ι → α → β} {limit num : ι → Nat} {x y : α}
  {rest l l' : List α} {k : ι}

theorem slot_eq_none : slot kinds key limit num x rest = none ↔
    ∀ k ∈ kinds, num k < limit k → ¬LastOf key k x rest := by
  simp [slot]

theorem slot_eq_some (h : slot kinds key limit num x rest = some k) :
    num k < limit k ∧ LastOf key k x rest := by
  simpa using List.find?_some h

theorem groupsBefore_mono (h : l ⊆ l') : groupsBefore key k x l ≤ groupsBefore key k x l' := by
  unfold groupsBefore
  refine Finset.card_le_card (Finset.filter_subset_filter _ ?_)
  intro c hc
  obtain ⟨y, hy, rfl⟩ := List.mem_map.mp (List.mem_toFinset.mp hc)
  exact List.mem_toFinset.mpr (List.mem_map_of_mem (h hy))

/-- The last element of an earlier group is one group more before. -/
theorem groupsBefore_cons (hlast : LastOf key k y l) (hlt : key k x < key k y) :
    groupsBefore key k x (y :: l) = groupsBefore key k x l + 1 := by
  unfold groupsBefore
  have hnew : key k y ∉ (l.map (key k)).toFinset := by
    intro hmem
    obtain ⟨z, hz, heq⟩ := List.mem_map.mp (List.mem_toFinset.mp hmem)
    exact hlast z hz heq
  rw [List.map_cons, List.toFinset_cons, Finset.filter_insert, if_pos hlt]
  exact Finset.card_insert_of_notMem fun h => hnew (Finset.mem_filter.mp h).1

variable [DecidableEq ι]

theorem use_other {r : Option ι} (h : r ≠ some k) : use num r k = num k := by
  cases r with
  | none => rfl
  | some k' => exact Function.update_of_ne (fun heq => h (by rw [heq])) _ _

theorem scan_cons : scan kinds key limit num (x :: rest) =
    (if slot kinds key limit num x rest = none then [x] else []) ++
      scan kinds key limit (use num (slot kinds key limit num x rest)) rest := by
  rw [scan]
  cases slot kinds key limit num x rest <;> rfl

/-- What the scan gives out is of the list. -/
theorem scan_subset : scan kinds key limit num l ⊆ l := by
  induction l generalizing num with
  | nil => exact List.Subset.refl []
  | cons x rest ih =>
    rw [scan_cons]
    intro y hy
    obtain hy | hy := List.mem_append.mp hy
    · split at hy
      · rw [List.mem_singleton.mp hy]
        exact List.mem_cons_self ..
      · cases hy
    · exact List.mem_cons_of_mem x (ih hy)

/-- What the scan leaves over of the rest. -/
theorem mem_scan_cons (hne : y ≠ x) : y ∈ scan kinds key limit num (x :: rest) ↔
    y ∈ scan kinds key limit (use num (slot kinds key limit num x rest)) rest := by
  rw [scan_cons, List.mem_append, or_iff_right]
  split
  · exact fun hy => hne (List.mem_singleton.mp hy)
  · exact List.not_mem_nil

theorem mem_scan_self (hx : x ∉ rest) : x ∈ scan kinds key limit num (x :: rest) ↔
    slot kinds key limit num x rest = none := by
  rw [scan_cons, List.mem_append, or_iff_left fun h => hx (scan_subset h)]
  split
  · next h => simp [h]
  · next h => simp [h]

/-- The last element of a group with few groups before it is never left over. -/
theorem not_mem_scan (hk : k ∈ kinds) {front : List α} (hl : Grouped key (front ++ x :: rest))
    (hnodup : (front ++ x :: rest).Nodup) (hlast : LastOf key k x rest)
    (hroom : num k + groupsBefore key k x front < limit k) :
    x ∉ scan kinds key limit num (front ++ x :: rest) := by
  induction front generalizing num with
  | nil =>
    rw [List.nil_append, mem_scan_self (List.nodup_cons.mp hnodup).1, slot_eq_none]
    intro hnone
    exact hnone k hk (Nat.lt_of_le_of_lt (Nat.le_add_right _ _) hroom) hlast
  | cons y front ih =>
    obtain ⟨hnot, hnodup⟩ := List.nodup_cons.mp hnodup
    have hmem : x ∈ front ++ x :: rest := by simp
    rw [List.cons_append, mem_scan_cons (ne_of_mem_of_not_mem hmem hnot)]
    refine ih (fun k' => (List.pairwise_cons.mp (hl k')).2) hnodup ?_
    by_cases hslot : slot kinds key limit num y (front ++ x :: rest) = some k
    · -- the slot goes to a group before that of `x`
      obtain ⟨_, hlast'⟩ := slot_eq_some hslot
      have hlt : key k x < key k y :=
        lt_of_le_of_ne ((List.pairwise_cons.mp (hl k)).1 x hmem) (hlast' x hmem)
      rw [groupsBefore_cons (fun z hz => hlast' z (List.mem_append_left _ hz)) hlt] at hroom
      rw [hslot, use, Function.update_self]
      omega
    · rw [use_other hslot]
      exact Nat.lt_of_le_of_lt
        (Nat.add_le_add_left (groupsBefore_mono (List.subset_cons_self y front)) _) hroom

/-- Using a slot of one kind takes one of all slots. -/
theorem sum_use (num : ι → Nat) (hnodup : kinds.Nodup) (hk : k ∈ kinds) :
    (kinds.map (use num (some k))).sum = (kinds.map num).sum + 1 := by
  induction kinds with
  | nil => cases hk
  | cons k' kinds ih =>
    obtain ⟨hnot, hnodup⟩ := List.nodup_cons.mp hnodup
    rw [List.map_cons, List.map_cons, List.sum_cons, List.sum_cons]
    obtain rfl | hk := List.mem_cons.mp hk
    · have hsame : kinds.map (use num (some k)) = kinds.map num :=
        List.map_congr_left fun k' hk' =>
          Function.update_of_ne (ne_of_mem_of_not_mem hk' hnot) _ _
      rw [hsame, use, Function.update_self]
      omega
    · rw [ih hnodup hk, use, Function.update_of_ne (ne_of_mem_of_not_mem hk hnot).symm]
      omega

/-- What is kept fits into the slots. -/
theorem length_scan (hnum : ∀ k, num k ≤ limit k) (hnodup : kinds.Nodup) :
    l.length + (kinds.map num).sum ≤
      (scan kinds key limit num l).length + (kinds.map limit).sum := by
  induction l generalizing num with
  | nil =>
    rw [scan, Nat.add_le_add_iff_left]
    exact List.sum_le_sum fun k _ => hnum k
  | cons x rest ih =>
    rw [scan_cons, List.length_append, List.length_cons]
    cases hslot : slot kinds key limit num x rest with
    | none =>
      have := ih hnum
      simp only [if_true, List.length_singleton, use]
      omega
    | some k =>
      have hk : k ∈ kinds := List.mem_of_find?_eq_some hslot
      have hnum' : ∀ k', use num (some k) k' ≤ limit k' := by
        intro k'
        by_cases hk' : k' = k
        · rw [hk', use, Function.update_self]
          exact (slot_eq_some hslot).1
        · rw [use, Function.update_of_ne hk']
          exact hnum k'
      -- what is kept takes one slot of its kind
      have hsum := sum_use num hnodup hk
      have := ih hnum'
      simp only [reduceCtorEq, if_false, List.length_nil]
      omega

/-- When all of the greatest group is left over, the kind has no slot left. -/
theorem limit_le_of_scan (hk : k ∈ kinds) (hl : Grouped key l) (hnodup : l.Nodup) {c : β}
    (hmax : ∀ y ∈ l, key k y ≤ c) (hgroup : ∃ y ∈ l, key k y = c)
    (hleft : ∀ y ∈ l, key k y = c → y ∈ scan kinds key limit num l) : limit k ≤ num k := by
  induction l generalizing num with
  | nil =>
    obtain ⟨y, hy, _⟩ := hgroup
    cases hy
  | cons x rest ih =>
    obtain ⟨hnot, hnodup⟩ := List.nodup_cons.mp hnodup
    have hx : key k x = c := by
      obtain ⟨y, hy, hc⟩ := hgroup
      refine le_antisymm (hmax x (List.mem_cons_self ..)) (hc ▸ ?_)
      obtain rfl | hy := List.mem_cons.mp hy
      · exact le_refl _
      · exact (List.pairwise_cons.mp (hl k)).1 y hy
    have hnone := (mem_scan_self hnot).mp (hleft x (List.mem_cons_self ..) hx)
    by_cases hmore : ∃ y ∈ rest, key k y = c
    · refine ih (fun k' => (List.pairwise_cons.mp (hl k')).2) hnodup
        (fun y hy => hmax y (List.mem_cons_of_mem x hy)) hmore fun y hy hc => ?_
      have hleft := hleft y (List.mem_cons_of_mem x hy) hc
      rwa [mem_scan_cons (ne_of_mem_of_not_mem hy hnot), hnone] at hleft
    · -- `x` is the last of its group and got no slot
      rw [slot_eq_none] at hnone
      by_contra hroom
      exact hnone k hk (Nat.lt_of_not_le hroom) fun y hy hc => hmore ⟨y, hy, hc.trans hx⟩

/-- Removing leftovers does not change what the scan does with the others. -/
theorem scan_filter {D : α → Bool} (hl : Grouped key l) (hnodup : l.Nodup)
    (hD : ∀ y ∈ l, D y = true → y ∈ scan kinds key limit num l) :
    scan kinds key limit num (l.filter fun y => !D y) =
      (scan kinds key limit num l).filter fun y => !D y := by
  induction l generalizing num with
  | nil => rfl
  | cons x rest ih =>
    obtain ⟨hnot, hnodup⟩ := List.nodup_cons.mp hnodup
    have hrest : Grouped key rest := fun k => (List.pairwise_cons.mp (hl k)).2
    have hD' : ∀ y ∈ rest, D y = true →
        y ∈ scan kinds key limit (use num (slot kinds key limit num x rest)) rest := by
      intro y hy hDy
      exact (mem_scan_cons (ne_of_mem_of_not_mem hy hnot)).mp (hD y (List.mem_cons_of_mem x hy) hDy)
    rw [List.filter_cons, scan_cons, List.filter_append, ← ih hrest hnodup hD']
    cases hDx : D x with
    | true =>
      -- a leftover got no slot
      have hnone := (mem_scan_self hnot).mp (hD x (List.mem_cons_self ..) hDx)
      simp [hnone, hDx, use]
    | false =>
      have hslot : slot kinds key limit num x (rest.filter fun y => !D y) =
          slot kinds key limit num x rest := by
        refine List.find?_congr fun k hk => ?_
        rw [decide_eq_decide, and_congr_right_iff]
        intro hroom
        refine ⟨fun hlast => ?_, fun hlast y hy => hlast y (List.mem_filter.mp hy).1⟩
        -- were the rest of the group removed, there would be no slot of the kind
        by_contra hnotlast
        have hnext : slot kinds key limit num x rest ≠ some k :=
          fun h => hnotlast (slot_eq_some h).2
        have hfull : limit k ≤ use num (slot kinds key limit num x rest) k := by
          refine limit_le_of_scan hk hrest hnodup (fun y hy =>
            (List.pairwise_cons.mp (hl k)).1 y hy)
            ?_ fun y hy hc => hD' y hy ?_
          · simpa [LastOf] using hnotlast
          · by_contra hDy
            exact hlast y (List.mem_filter.mpr ⟨hy, by simpa using hDy⟩) hc
        rw [use_other hnext] at hfull
        exact absurd hroom (Nat.not_lt.mpr hfull)
      simp only [Bool.not_false, if_true]
      rw [scan_cons, hslot]
      split <;> simp [hDx]

end Slots

end Snapper.General
