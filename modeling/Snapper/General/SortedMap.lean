import Mathlib.Data.List.Induction
import Mathlib.Data.List.Sort

/-!
# Maps as sorted lists

A `std::map`: its entries, with strictly ascending keys.  What is iterated over and what is
written out is the list of entries, and two maps are equal when these are.
-/

namespace Snapper.General

universe u v

/-- A map with its entries in the order of their keys. -/
structure SortedMap (α : Type u) (β : Type v) [LinearOrder α] where
  entries : List (α × β)
  sorted : entries.Pairwise fun a b => a.1 < b.1
  deriving DecidableEq

namespace SortedMap

variable {α : Type u} {β : Type v} [LinearOrder α]

/-- The entries after `map[k] = v`. -/
def setEntry (k : α) (v : β) : List (α × β) → List (α × β)
  | [] => [(k, v)]
  | (k', v') :: l =>
    if k < k' then (k, v) :: (k', v') :: l
    else if k = k' then (k, v) :: l
    else (k', v') :: setEntry k v l

/-- After an entry is set there are only old entries and the new one. -/
theorem mem_setEntry {k : α} {v : β} {l : List (α × β)} {e : α × β} (h : e ∈ setEntry k v l) :
    e = (k, v) ∨ e ∈ l := by
  induction l with
  | nil => exact Or.inl (List.mem_singleton.mp h)
  | cons e' l ih =>
    rw [setEntry] at h
    split_ifs at h
    · exact List.mem_cons.mp h
    · exact (List.mem_cons.mp h).imp_right (List.mem_cons_of_mem e')
    · obtain rfl | h := List.mem_cons.mp h
      · exact Or.inr (List.mem_cons_self ..)
      · exact (ih h).imp_right (List.mem_cons_of_mem e')

/-- Setting an entry keeps the order of the keys. -/
theorem sorted_setEntry {k : α} {v : β} {l : List (α × β)}
    (h : l.Pairwise fun a b => a.1 < b.1) : (setEntry k v l).Pairwise fun a b => a.1 < b.1 := by
  induction l with
  | nil => exact List.pairwise_singleton _ _
  | cons e l ih =>
    obtain ⟨hlt, htail⟩ := List.pairwise_cons.mp h
    rw [setEntry]
    split_ifs with hk heq
    · refine List.pairwise_cons.mpr ⟨fun a ha => ?_, h⟩
      obtain rfl | ha := List.mem_cons.mp ha
      · exact hk
      · exact hk.trans (hlt a ha)
    · exact List.pairwise_cons.mpr ⟨fun a ha => heq ▸ hlt a ha, htail⟩
    · refine List.pairwise_cons.mpr ⟨fun a ha => ?_, ih htail⟩
      obtain rfl | ha := mem_setEntry ha
      · exact lt_of_le_of_ne (not_lt.mp hk) (Ne.symm heq)
      · exact hlt a ha

/-- A key above all others is put at the end. -/
theorem setEntry_last {k : α} {v : β} {l : List (α × β)} (h : ∀ e ∈ l, e.1 < k) :
    setEntry k v l = l ++ [(k, v)] := by
  induction l with
  | nil => rfl
  | cons e l ih =>
    have hk := h e (List.mem_cons_self ..)
    rw [setEntry, if_neg (lt_asymm hk), if_neg (ne_of_gt hk),
      ih fun a ha => h a (List.mem_cons_of_mem e ha)]
    rfl

def empty : SortedMap α β := ⟨[], List.Pairwise.nil⟩

instance : Inhabited (SortedMap α β) := ⟨empty⟩

/-- `map[k] = v` -/
def set (m : SortedMap α β) (k : α) (v : β) : SortedMap α β :=
  ⟨setEntry k v m.entries, sorted_setEntry m.sorted⟩

/-- `map.find(k)` -/
def find (m : SortedMap α β) (k : α) : Option β :=
  (m.entries.find? fun e => e.1 = k).map Prod.snd

/-- `map.erase(k)` -/
def erase (m : SortedMap α β) (k : α) : SortedMap α β :=
  ⟨m.entries.filter fun e => e.1 ≠ k, m.sorted.filter _⟩

/-- The entries of `m` put into the map. -/
def override (old m : SortedMap α β) : SortedMap α β :=
  m.entries.foldl (fun r e => r.set e.1 e.2) old

/-- The map of a list of entries, later ones replacing earlier ones. -/
def ofList (l : List (α × β)) : SortedMap α β := l.foldl (fun m e => m.set e.1 e.2) empty

section Find

variable {m : SortedMap α β} {k k' : α} {v : β}

/-- What is found is an entry, the only one of its key. -/
theorem find_eq_some_iff : m.find k = some v ↔ (k, v) ∈ m.entries := by
  have hnodup : (m.entries.map Prod.fst).Nodup :=
    List.pairwise_map.mpr (m.sorted.imp fun hlt => ne_of_lt hlt)
  constructor
  · intro h
    obtain ⟨e, he, rfl⟩ := Option.map_eq_some_iff.mp h
    have hk : e.1 = k := by simpa using List.find?_some he
    exact hk ▸ List.mem_of_find?_eq_some he
  · intro h
    obtain ⟨e, he⟩ : ∃ e, (m.entries.find? fun e => e.1 = k) = some e := by
      rw [← Option.isSome_iff_exists, List.find?_isSome]
      exact ⟨(k, v), h, by simp⟩
    have hk : e.1 = k := by simpa using List.find?_some he
    have hsame := List.inj_on_of_nodup_map hnodup (List.mem_of_find?_eq_some he) h hk
    rw [find, he, hsame]
    rfl

/-- What is found after an entry is set: the entry itself for its key, for others what was found
before. -/
theorem find?_setEntry (l : List (α × β)) :
    ((setEntry k v l).find? fun e => e.1 = k') =
      if k' = k then some (k, v) else l.find? fun e => e.1 = k' := by
  induction l with
  | nil =>
    by_cases hk : k' = k
    · simp [setEntry, hk]
    · simp [setEntry, hk, Ne.symm hk]
  | cons e l ih =>
    rw [setEntry]
    -- the entry goes before the first one with a greater key
    by_cases hlt : k < e.1
    · rw [if_pos hlt]
      by_cases hk : k' = k
      · simp [hk]
      · rw [List.find?_cons_of_neg (by simpa using Ne.symm hk), if_neg hk]
    · rw [if_neg hlt]
      by_cases heq : k = e.1
      · -- the entry is replaced
        rw [if_pos heq]
        by_cases hk : k' = k
        · simp [hk]
        · rw [List.find?_cons_of_neg (by simpa using Ne.symm hk), if_neg hk,
            List.find?_cons_of_neg (by simpa [← heq] using Ne.symm hk)]
      · rw [if_neg heq, List.find?_cons, ih]
        by_cases hk : k' = k
        · have hne : e.1 ≠ k' := fun h => heq (hk.symm.trans h.symm)
          simp [hk, hk ▸ hne]
        · simp only [if_neg hk, List.find?_cons]

theorem find_set (m : SortedMap α β) (k k' : α) (v : β) :
    (m.set k v).find k' = if k' = k then some v else m.find k' := by
  rw [find, set, find?_setEntry m.entries]
  by_cases hk : k' = k
  · simp [hk]
  · simp [hk, find]

/-- Taking the entries of a key away leaves those of the others. -/
theorem find?_filter_ne (l : List (α × β)) (k k' : α) :
    ((l.filter fun e => e.1 ≠ k).find? fun e => e.1 = k') =
      if k' = k then none else l.find? fun e => e.1 = k' := by
  rw [List.find?_filter]
  by_cases hk : k' = k
  · simp [hk]
  · rw [if_neg hk]
    congr 1
    funext e
    by_cases he : e.1 = k'
    · simp [he, hk]
    · simp [he]

theorem find_erase (m : SortedMap α β) (k k' : α) :
    (m.erase k).find k' = if k' = k then none else m.find k' := by
  rw [find, erase, find?_filter_ne]
  by_cases hk : k' = k
  · simp [hk]
  · simp [hk, find]

end Find

theorem ext {m m' : SortedMap α β} (h : m.entries = m'.entries) : m = m' := by
  cases m
  cases m'
  cases h
  rfl

/-- The entries of a map make it again. -/
theorem ofList_entries (m : SortedMap α β) : ofList m.entries = m := by
  have hfront : ∀ front rest, m.entries = front ++ rest →
      (front.foldl (fun m e => m.set e.1 e.2) (empty : SortedMap α β)).entries = front := by
    intro front
    induction front using List.reverseRec with
    | nil => exact fun _ _ => rfl
    | append_singleton front e ih =>
      intro rest hrest
      have hmade := ih (e :: rest) (by rw [hrest]; simp)
      have hlast : ∀ a ∈ front, a.1 < e.1 := by
        intro a ha
        have hsorted := m.sorted
        rw [hrest, List.append_assoc] at hsorted
        exact (List.pairwise_append.mp hsorted).2.2 a ha e (by simp)
      rw [List.foldl_append, List.foldl_cons, List.foldl_nil]
      show setEntry e.1 e.2 _ = front ++ [e]
      rw [hmade, setEntry_last hlast]
  exact ext (hfront m.entries [] (List.append_nil _).symm)

theorem override_empty (m : SortedMap α β) : empty.override m = m := ofList_entries m

/-- The entries of `m` come first. -/
theorem find_override (old m : SortedMap α β) (k : α) :
    (old.override m).find k = (m.find k).or (old.find k) := by
  have hloop : ∀ (l : List (α × β)) (r : SortedMap α β), (l.map Prod.fst).Nodup →
      (l.foldl (fun r e => r.set e.1 e.2) r).find k =
        ((l.find? fun e => e.1 = k).map Prod.snd).or (r.find k) := by
    intro l
    induction l with
    | nil => exact fun _ _ => rfl
    | cons e l ih =>
      intro r hnodup
      obtain ⟨hnot, hrest⟩ := List.nodup_cons.mp (List.map_cons ▸ hnodup)
      rw [List.foldl_cons, ih _ hrest, find_set]
      by_cases hk : e.1 = k
      · -- no later entry has the key
        have hnone : (l.find? fun e => e.1 = k) = none := by
          refine List.find?_eq_none.mpr fun e' he' hk' => hnot ?_
          rw [hk, ← of_decide_eq_true hk']
          exact List.mem_map_of_mem he'
        rw [List.find?_cons_of_pos (by simpa using hk), hnone, if_pos hk.symm]
        rfl
      · rw [List.find?_cons_of_neg (by simpa using hk), if_neg (Ne.symm hk)]
  exact hloop m.entries old (List.pairwise_map.mpr (m.sorted.imp fun hlt => ne_of_lt hlt))

end SortedMap

end Snapper.General
