import Snapper.General.SortedMap

/-!
# Trees of marks

A tree whose nodes carry a mark and have their childs in a map.  A node is reached by the list
of the keys on the way to it.  A node without a mark is there for the nodes below it: erasing
a mark removes what is left without mark and without childs.

A tree is seen through two functions of a path: whether there is a node, `Has`, and its mark,
`get`.  Every operation has one law for each.

## Main results

- `get_erase`: erasing takes the mark of one path and changes no other
- `tidy_erase`: it leaves no node that is without mark and without childs
- `Tidy.has_iff`: in such a tree there is a node exactly where a mark is, or is below
- `mem_nodes`, `nodes_preorder`: the list of all nodes
-/

namespace Snapper.General

universe u v

/-- A mark, and childs in the order of their keys. -/
inductive Trie (α : Type u) (β : Type v) where
  | node (value : β) (childs : List (α × Trie α β))

namespace Trie

variable {α : Type u} {β : Type v}

def value : Trie α β → β
  | .node v _ => v

def childs : Trie α β → List (α × Trie α β)
  | .node _ cs => cs

@[simp] theorem value_node (v : β) (cs : List (α × Trie α β)) : (node v cs).value = v := rfl

@[simp] theorem childs_node (v : β) (cs : List (α × Trie α β)) : (node v cs).childs = cs := rfl

/-- The tree with the mark of its root changed. -/
def mapValue (f : β → β) (t : Trie α β) : Trie α β := node (f t.value) t.childs

/-- The tree without its childs. -/
def bare (t : Trie α β) : Trie α β := node t.value []

variable [LinearOrder α]

/-! ## Childs -/

/-- `childs.find(n)` -/
def child (t : Trie α β) (n : α) : Option (Trie α β) :=
  (t.childs.find? fun e => e.1 = n).map Prod.snd

/-- The trie with another child below one name. -/
def setChild (t : Trie α β) (n : α) (c : Trie α β) : Trie α β :=
  node t.value (SortedMap.setEntry n c t.childs)

/-- `childs.erase(n)` -/
def dropChild (t : Trie α β) (n : α) : Trie α β := node t.value (t.childs.filter fun e => e.1 ≠ n)

@[simp] theorem child_mapValue (f : β → β) (t : Trie α β) (n : α) :
    (t.mapValue f).child n = t.child n := rfl

theorem child_setChild (t : Trie α β) (n m : α) (c : Trie α β) :
    (t.setChild n c).child m = if m = n then some c else t.child m := by
  rw [child, setChild, childs_node, SortedMap.find?_setEntry]
  by_cases hm : m = n
  · simp [hm]
  · simp [hm, child]

theorem child_dropChild (t : Trie α β) (n m : α) :
    (t.dropChild n).child m = if m = n then none else t.child m := by
  rw [child, dropChild, childs_node, SortedMap.find?_filter_ne]
  by_cases hm : m = n
  · simp [hm]
  · simp [hm, child]

theorem mem_of_child {t c : Trie α β} {n : α} (h : t.child n = some c) : (n, c) ∈ t.childs := by
  obtain ⟨e, he, rfl⟩ := Option.map_eq_some_iff.mp h
  have hn : e.1 = n := by simpa using List.find?_some he
  exact hn ▸ List.mem_of_find?_eq_some he

/-- A node has children exactly when the list of them is not empty. -/
theorem exists_child_iff {t : Trie α β} : (∃ n c, t.child n = some c) ↔ t.childs ≠ [] := by
  constructor
  · intro ⟨n, c, h⟩ hnil
    have hmem := mem_of_child h
    rw [hnil] at hmem
    cases hmem
  · intro h
    obtain ⟨⟨n, c⟩, hmem⟩ := List.exists_mem_of_ne_nil _ h
    have hsome : (t.childs.find? fun e => e.1 = n).isSome := by
      rw [List.find?_isSome]
      exact ⟨(n, c), hmem, by simp⟩
    obtain ⟨e, he⟩ := Option.isSome_iff_exists.mp hsome
    exact ⟨n, e.2, by rw [child, he]; rfl⟩

theorem sizeOf_child {t c : Trie α β} {n : α} (h : t.child n = some c) : sizeOf c < sizeOf t := by
  have hmem := List.sizeOf_lt_of_mem (mem_of_child h)
  cases t with
  | node v cs =>
    simp only [childs_node, Prod.mk.sizeOf_spec] at hmem
    simp only [node.sizeOf_spec]
    omega

/-! ## Nodes by their path -/

/-- The subtrie that a path leads to. -/
def find : List α → Trie α β → Option (Trie α β)
  | [], t => some t
  | n :: p, t =>
    match t.child n with
    | some c => find p c
    | none => none

/-- Change the node at a path, when there is one. -/
def modify (f : Trie α β → Trie α β) : List α → Trie α β → Trie α β
  | [], t => f t
  | n :: p, t =>
    match t.child n with
    | some c => t.setChild n (modify f p c)
    | none => t

/-- Make the nodes on a path that are missing. -/
def insert [Zero β] : List α → Trie α β → Trie α β
  | [], t => t
  | n :: p, t => t.setChild n (insert p ((t.child n).getD (node 0 [])))

/-- Take the mark of a path away, and with it the nodes on the path that nothing needs. -/
def erase [Zero β] [DecidableEq β] : List α → Trie α β → Trie α β
  | [], t => t
  | [n], t =>
    match t.child n with
    | none => t
    | some c => if c.childs.isEmpty then t.dropChild n else t.setChild n (c.mapValue fun _ => 0)
  | n :: m :: p, t =>
    match t.child n with
    | none => t
    | some c =>
      let c' := erase (m :: p) c
      if c'.value = 0 ∧ c'.childs.isEmpty then t.dropChild n else t.setChild n c'

@[simp] theorem find_nil (t : Trie α β) : t.find [] = some t := rfl

theorem find_cons (t : Trie α β) (n : α) (p : List α) :
    t.find (n :: p) = (t.child n).bind (find p) := by
  rw [find]
  cases t.child n <;> rfl

/-- A path is followed in two parts. -/
theorem find_append (t : Trie α β) (p q : List α) :
    t.find (p ++ q) = (t.find p).bind (find q) := by
  induction p generalizing t with
  | nil => rfl
  | cons n p ih =>
    rw [List.cons_append, find_cons, find_cons]
    cases t.child n with
    | none => rfl
    | some c => exact ih c

/-- There is a node. -/
def Has (t : Trie α β) (p : List α) : Prop := (t.find p).isSome

instance (t : Trie α β) (p : List α) : Decidable (t.Has p) :=
  inferInstanceAs (Decidable ((t.find p).isSome = true))

theorem has_iff {t : Trie α β} {p : List α} : t.Has p ↔ ∃ c, t.find p = some c :=
  Option.isSome_iff_exists

@[simp] theorem has_nil (t : Trie α β) : t.Has [] := rfl

theorem has_cons {t : Trie α β} {n : α} {p : List α} :
    t.Has (n :: p) ↔ ∃ c, t.child n = some c ∧ c.Has p := by
  rw [Has, find_cons]
  cases t.child n with
  | none => simp
  | some c => simp [Has]

theorem has_append {t : Trie α β} {p q : List α} :
    t.Has (p ++ q) ↔ ∃ c, t.find p = some c ∧ c.Has q := by
  rw [Has, find_append]
  cases t.find p with
  | none => simp
  | some c => simp [Has]

theorem Has.above {t : Trie α β} {p q : List α} (h : t.Has (p ++ q)) : t.Has p := by
  obtain ⟨c, hc, -⟩ := has_append.mp h
  exact has_iff.mpr ⟨c, hc⟩

variable [Zero β]

/-- The mark at a path, zero where there is no node. -/
def get (t : Trie α β) (p : List α) : β := ((t.find p).map value).getD 0

@[simp] theorem get_nil (t : Trie α β) : t.get [] = t.value := rfl

theorem get_cons {t c : Trie α β} {n : α} (h : t.child n = some c) (p : List α) :
    t.get (n :: p) = c.get p := by
  rw [get, find_cons, h]
  rfl

theorem get_append {t c : Trie α β} {p : List α} (h : t.find p = some c) (q : List α) :
    t.get (p ++ q) = c.get q := by
  rw [get, find_append, h]
  rfl

theorem get_of_find {t c : Trie α β} {p : List α} (h : t.find p = some c) : t.get p = c.value := by
  rw [get, h]
  rfl

theorem get_of_not_has {t : Trie α β} {p : List α} (h : ¬t.Has p) : t.get p = 0 := by
  rw [get, Option.not_isSome_iff_eq_none.mp h]
  rfl

theorem get_of_child_none {t : Trie α β} {n : α} (h : t.child n = none) (p : List α) :
    t.get (n :: p) = 0 := by
  rw [get, find_cons, h]
  rfl

theorem has_of_get {t : Trie α β} {p : List α} (h : t.get p ≠ 0) : t.Has p := by
  by_contra hno
  exact h (get_of_not_has hno)

/-- What there is at a path below a child that was set. -/
theorem get_setChild (t c : Trie α β) (n : α) (p : List α) :
    (t.setChild n c).get (n :: p) = c.get p :=
  get_cons (by rw [child_setChild, if_pos rfl]) p

theorem get_setChild_ne (t c : Trie α β) {n m : α} (h : m ≠ n) (p : List α) :
    (t.setChild n c).get (m :: p) = t.get (m :: p) := by
  rw [get, get, find_cons, find_cons, child_setChild, if_neg h]

theorem get_congr {t t' : Trie α β} {n : α} (h : t'.child n = t.child n) (p : List α) :
    t'.get (n :: p) = t.get (n :: p) := by
  rw [get, get, find_cons, find_cons, h]

omit [Zero β] in
theorem has_congr {t t' : Trie α β} {n : α} (h : t'.child n = t.child n) (p : List α) :
    t'.Has (n :: p) ↔ t.Has (n :: p) := by
  rw [Has, Has, find_cons, find_cons, h]

/-! ## Changing the node at a path -/

omit [Zero β] in
/-- Below the changed node a path is followed in what has become of it. -/
theorem find_modify_append (f : Trie α β → Trie α β) (t : Trie α β) (p q : List α) :
    (t.modify f p).find (p ++ q) = ((t.find p).map f).bind (find q) := by
  induction p generalizing t with
  | nil => rfl
  | cons n p ih =>
    rw [List.cons_append, find_cons, find_cons, modify]
    cases hn : t.child n with
    | none =>
      dsimp only
      rw [hn]
      rfl
    | some c =>
      dsimp only
      rw [child_setChild, if_pos rfl]
      exact ih c

omit [Zero β] in
theorem has_modify_append {f : Trie α β → Trie α β} {t : Trie α β} {p q : List α} :
    (t.modify f p).Has (p ++ q) ↔ ∃ c, t.find p = some c ∧ (f c).Has q := by
  rw [Has, find_modify_append]
  cases t.find p with
  | none => simp
  | some c => simp [Has]

theorem get_modify_append {f : Trie α β → Trie α β} {t c : Trie α β} {p : List α}
    (h : t.find p = some c) (q : List α) : (t.modify f p).get (p ++ q) = (f c).get q := by
  rw [get, find_modify_append, h]
  rfl

/-- What is not at or below the path stays, the nodes above it included. -/
theorem modify_of_not_below (f : Trie α β → Trie α β) {t : Trie α β} {p q : List α}
    (h : ¬p <+: q) : ((t.modify f p).Has q ↔ t.Has q) ∧ (t.modify f p).get q = t.get q := by
  induction p generalizing t q with
  | nil => exact absurd List.nil_prefix h
  | cons n p ih =>
    rw [modify]
    cases hn : t.child n with
    | none => exact ⟨Iff.rfl, rfl⟩
    | some c =>
      dsimp only
      cases q with
      | nil => exact ⟨Iff.rfl, rfl⟩
      | cons m q =>
        -- along the path as long as the names agree
        by_cases hm : m = n
        · subst hm
          have hq : ¬p <+: q := fun hpq => h (List.cons_prefix_cons.mpr ⟨rfl, hpq⟩)
          obtain ⟨hhas, hget⟩ := @ih c q hq
          have hset : (t.setChild m (c.modify f p)).child m = some (c.modify f p) := by
            rw [child_setChild, if_pos rfl]
          refine ⟨?_, ?_⟩
          · rw [has_cons, has_cons, hset, hn]
            simp only [Option.some.injEq, exists_eq_left', hhas]
          · rw [get_setChild, get_cons hn, hget]
        · have hsame : (t.setChild n (c.modify f p)).child m = t.child m := by
            rw [child_setChild, if_neg hm]
          refine ⟨?_, get_congr hsame q⟩
          rw [has_cons, has_cons, hsame]

/-- A change of values leaves the paths as they are. -/
theorem has_mapValue (f : β → β) (t : Trie α β) (p q : List α) :
    (t.modify (mapValue f) p).Has q ↔ t.Has q := by
  by_cases hpq : p <+: q
  · obtain ⟨r, rfl⟩ := hpq
    rw [Has, find_modify_append, Has, find_append]
    cases hp : t.find p with
    | none => rfl
    | some c =>
      cases r with
      | nil => exact Iff.rfl
      | cons n r =>
        show ((mapValue f c).find (n :: r)).isSome ↔ (c.find (n :: r)).isSome
        rw [find_cons, find_cons, child_mapValue]
  · exact (modify_of_not_below _ hpq).1

/-- Changing the mark of a node. -/
theorem get_mapValue (f : β → β) {t : Trie α β} {p : List α} (hp : t.Has p) (q : List α) :
    (t.modify (mapValue f) p).get q = if q = p then f (t.get p) else t.get q := by
  obtain ⟨c, hc⟩ := has_iff.mp hp
  by_cases hpq : p <+: q
  · obtain ⟨r, rfl⟩ := hpq
    rw [get, find_modify_append, hc]
    cases r with
    | nil =>
      rw [List.append_nil, if_pos rfl, get_of_find hc]
      rfl
    | cons n r =>
      rw [if_neg (by simp), get_append hc]
      show ((find (n :: r) (mapValue f c)).map value).getD 0 = _
      rw [find_cons, child_mapValue, ← find_cons]
      rfl
  · rw [(modify_of_not_below _ hpq).2, if_neg]
    intro heq
    exact hpq (heq ▸ List.prefix_rfl)

/-! ## Making and erasing nodes -/

/-- A node that is inserted has the value zero, which is what was read at its path before. -/
theorem get_insert (t : Trie α β) (p q : List α) : (t.insert p).get q = t.get q := by
  induction p generalizing t q with
  | nil => rfl
  | cons n p ih =>
    rw [insert]
    cases q with
    | nil => rfl
    | cons m q =>
      by_cases hm : m = n
      · subst hm
        rw [get_setChild, ih]
        cases hc : t.child m with
        | none =>
          rw [get_of_child_none hc]
          cases q with
          | nil => rfl
          | cons k q => exact get_of_child_none rfl q
        | some c => exact (get_cons hc q).symm
      · exact get_setChild_ne t _ hm q

/-- Inserting makes the nodes on the path. -/
theorem has_insert (t : Trie α β) (p q : List α) : (t.insert p).Has q ↔ t.Has q ∨ q <+: p := by
  induction p generalizing t q with
  | nil =>
    rw [insert, List.prefix_nil]
    constructor
    · exact Or.inl
    · intro h
      obtain h | rfl := h
      · exact h
      · exact has_nil t
  | cons n p ih =>
    rw [insert]
    cases q with
    | nil => simp
    | cons m q =>
      rw [has_cons, child_setChild, List.cons_prefix_cons]
      by_cases hm : m = n
      · subst hm
        simp only [if_pos, Option.some.injEq, exists_eq_left', ih, true_and]
        rw [has_cons]
        cases hc : t.child m with
        | none =>
          -- the new node itself is on the path
          have hnew : (node (0 : β) ([] : List (α × Trie α β))).Has q → q <+: p := by
            cases q with
            | nil => exact fun _ => List.nil_prefix
            | cons k q =>
              intro h
              obtain ⟨c, hc, -⟩ := has_cons.mp h
              cases hc
          simp only [Option.getD_none, reduceCtorEq, false_and, exists_false, false_or]
          exact ⟨fun h => h.elim hnew id, Or.inr⟩
        | some c => simp
      · simp [hm, has_cons]

/-- A change of the mark at a path, the node made when it is missing. -/
def putValue (f : β → β) (p : List α) (t : Trie α β) : Trie α β :=
  (t.insert p).modify (mapValue f) p

theorem get_putValue (f : β → β) (t : Trie α β) (p q : List α) :
    (t.putValue f p).get q = if q = p then f (t.get p) else t.get q := by
  rw [putValue, get_mapValue f ((has_insert t p p).mpr (Or.inr List.prefix_rfl)), get_insert,
    get_insert]

theorem has_putValue (f : β → β) (t : Trie α β) (p q : List α) :
    (t.putValue f p).Has q ↔ t.Has q ∨ q <+: p := by
  rw [putValue, has_mapValue, has_insert]

/-- No node is there without a mark and without childs. -/
def Tidy (t : Trie α β) : Prop :=
  ∀ p, p ≠ [] → t.Has p → t.get p = 0 → ∃ n, t.Has (p ++ [n])

/-- No such node, but perhaps the one at a path. -/
def TidyBut (t : Trie α β) (e : List α) : Prop :=
  ∀ p, p ≠ [] → p ≠ e → t.Has p → t.get p = 0 → ∃ n, t.Has (p ++ [n])

theorem Tidy.but {t : Trie α β} (h : t.Tidy) (e : List α) : t.TidyBut e := fun p hp _ => h p hp

omit [Zero β] in
theorem exists_has_iff {t : Trie α β} : (∃ n, t.Has [n]) ↔ t.childs ≠ [] := by
  rw [← exists_child_iff]
  simp only [has_cons, has_nil, and_true]

theorem Tidy.child {t c : Trie α β} (h : t.Tidy) {n : α} (hc : t.child n = some c) : c.Tidy := by
  intro p hp hhas hzero
  obtain ⟨m, hm⟩ := h (n :: p) (List.cons_ne_nil n p) (has_cons.mpr ⟨c, hc, hhas⟩)
    ((get_cons hc p).trans hzero)
  obtain ⟨c', hc', hm⟩ := has_cons.mp hm
  obtain rfl := Option.some.inj (hc.symm.trans hc')
  exact ⟨m, hm⟩

/-- What is not tidy but for one path has it below the first name of that path. -/
theorem TidyBut.child {t c : Trie α β} {n : α} {e : List α} (h : t.TidyBut (n :: e))
    (hc : t.child n = some c) : c.TidyBut e := by
  intro p hp hne hhas hzero
  obtain ⟨m, hm⟩ := h (n :: p) (List.cons_ne_nil n p) (by simpa using hne)
    (has_cons.mpr ⟨c, hc, hhas⟩) ((get_cons hc p).trans hzero)
  obtain ⟨c', hc', hm⟩ := has_cons.mp hm
  obtain rfl := Option.some.inj (hc.symm.trans hc')
  exact ⟨m, hm⟩

/-- In a tree without dead nodes a mark is found at or below every node. -/
theorem Tidy.exists_get {t : Trie α β} (h : t.Tidy) (hlive : t.value ≠ 0 ∨ t.childs ≠ []) :
    ∃ r, t.get r ≠ 0 := by
  by_cases hv : t.value = 0
  · obtain ⟨n, c, hc⟩ := exists_child_iff.mpr (hlive.resolve_left (not_not_intro hv))
    have hsize := sizeOf_child hc
    have hlive' : c.value ≠ 0 ∨ c.childs ≠ [] := by
      by_contra hdead
      push Not at hdead
      obtain ⟨m, hm⟩ := h [n] (List.cons_ne_nil n []) (has_cons.mpr ⟨c, hc, has_nil c⟩)
        ((get_cons hc []).trans hdead.1)
      obtain ⟨c', hc', hm⟩ := has_cons.mp hm
      obtain rfl := Option.some.inj (hc.symm.trans hc')
      exact exists_has_iff.mp ⟨m, hm⟩ hdead.2
    obtain ⟨r, hr⟩ := (h.child hc).exists_get hlive'
    exact ⟨n :: r, (get_cons hc r).symm ▸ hr⟩
  · exact ⟨[], hv⟩
termination_by sizeOf t

/-- Every subtree of a tidy tree is tidy. -/
theorem Tidy.of_find {t c : Trie α β} (h : t.Tidy) {p : List α} (hc : t.find p = some c) :
    c.Tidy := by
  induction p generalizing t with
  | nil =>
    obtain rfl := Option.some.inj hc
    exact h
  | cons n p ih =>
    rw [find_cons] at hc
    obtain ⟨d, hd, hc⟩ := Option.bind_eq_some_iff.mp hc
    exact ih (h.child hd) hc

/-- In a tidy tree every node below the root has a value or a child. -/
theorem Tidy.live {t c : Trie α β} (h : t.Tidy) {p : List α} (hp : p ≠ [])
    (hc : t.find p = some c) :
    c.value ≠ 0 ∨ c.childs ≠ [] := by
  by_cases hv : c.value = 0
  · obtain ⟨n, hn⟩ := h p hp (Trie.has_iff.mpr ⟨c, hc⟩) ((get_of_find hc).trans hv)
    obtain ⟨c', hc', hn⟩ := has_append.mp hn
    obtain rfl := Option.some.inj (hc.symm.trans hc')
    exact Or.inr (exists_has_iff.mp ⟨n, hn⟩)
  · exact Or.inl hv

/-- Its nodes are the paths to its marks. -/
theorem Tidy.has_iff {t : Trie α β} (h : t.Tidy) {p : List α} (hp : p ≠ []) :
    t.Has p ↔ ∃ r, t.get (p ++ r) ≠ 0 := by
  constructor
  · intro hhas
    obtain ⟨c, hc⟩ := Trie.has_iff.mp hhas
    obtain ⟨r, hr⟩ := (h.of_find hc).exists_get (h.live hp hc)
    exact ⟨r, (get_append hc r).symm ▸ hr⟩
  · intro ⟨r, hr⟩
    exact (has_of_get hr).above

/-- Making a node keeps a tree tidy when the mark put there is one. -/
theorem tidy_putValue {f : β → β} {t : Trie α β} (h : t.Tidy) {p : List α} (hf : f (t.get p) ≠ 0) :
    (t.putValue f p).Tidy := by
  intro q hq hhas hzero
  rw [get_putValue] at hzero
  by_cases hqp : q = p
  · rw [if_pos hqp] at hzero
    exact absurd hzero hf
  · rw [if_neg hqp] at hzero
    obtain hhas | hpre := (has_putValue f t p q).mp hhas
    · obtain ⟨n, hn⟩ := h q hq hhas hzero
      exact ⟨n, (has_putValue f t p _).mpr (Or.inl hn)⟩
    · -- the path goes on below
      obtain ⟨r, rfl⟩ := hpre
      cases r with
      | nil => exact absurd (List.append_nil q).symm hqp
      | cons n r => exact ⟨n, (has_putValue f t _ _).mpr (Or.inr ⟨r, by simp⟩)⟩

section Erase

variable [DecidableEq β]

/-- The tree with a child put back, unless it is dead. -/
def prune (t : Trie α β) (n : α) (c : Trie α β) : Trie α β :=
  if c.value = 0 ∧ c.childs.isEmpty then t.dropChild n else t.setChild n c

/-- Pruning takes away a child with neither value nor children; the values read below it stay. -/
theorem get_prune (t c : Trie α β) (n : α) (p : List α) : (t.prune n c).get (n :: p) = c.get p := by
  rw [prune]
  split_ifs with hdead
  · rw [get_of_child_none (by rw [child_dropChild, if_pos rfl])]
    cases p with
    | nil => exact hdead.1.symm
    | cons k p =>
      have hno : c.child k = none := by
        by_contra hsome
        obtain ⟨c', hc'⟩ := Option.ne_none_iff_exists'.mp hsome
        exact exists_child_iff.mp ⟨k, c', hc'⟩ (List.isEmpty_iff.mp hdead.2)
      exact (get_of_child_none hno p).symm
  · exact get_setChild t c n p

/-- Only the child itself can be missing. -/
theorem has_prune (t c : Trie α β) (n : α) {q : List α} (hq : q ≠ []) :
    (t.prune n c).Has (n :: q) ↔ c.Has q := by
  rw [has_cons, prune]
  split_ifs with hdead
  · rw [child_dropChild, if_pos rfl]
    constructor
    · intro ⟨d, hd, _⟩
      cases hd
    · intro hhas
      obtain ⟨k, q, rfl⟩ := List.exists_cons_of_ne_nil hq
      obtain ⟨d, hd, -⟩ := has_cons.mp hhas
      exact absurd (List.isEmpty_iff.mp hdead.2) (exists_child_iff.mp ⟨k, d, hd⟩)
  · rw [child_setChild, if_pos rfl]
    simp

theorem child_prune_ne (t c : Trie α β) {n m : α} (h : m ≠ n) :
    (t.prune n c).child m = t.child m := by
  rw [prune]
  split_ifs
  · rw [child_dropChild, if_neg h]
  · rw [child_setChild, if_neg h]

/-- Erasing at a child that is there. -/
theorem erase_cons {t c : Trie α β} {n : α} (h : t.child n = some c) (p : List α) :
    t.erase (n :: p) = t.prune n (if p = [] then c.mapValue fun _ => 0 else c.erase p) := by
  cases p with
  | nil =>
    simp only [erase, h]
    simp [prune, mapValue]
  | cons m p =>
    rw [erase, h, if_neg (List.cons_ne_nil m p)]
    rfl

theorem erase_of_none {t : Trie α β} {n : α} (h : t.child n = none) (p : List α) :
    t.erase (n :: p) = t := by
  cases p with
  | nil => rw [erase, h]
  | cons m p => rw [erase, h]

/-- Erasing takes one mark away. -/
theorem get_erase (t : Trie α β) {p : List α} (hp : p ≠ []) (q : List α) :
    (t.erase p).get q = if q = p then 0 else t.get q := by
  induction p generalizing t q with
  | nil => exact absurd rfl hp
  | cons n p ih =>
    cases hc : t.child n with
    | none =>
      rw [erase_of_none hc]
      split_ifs with hq
      · rw [hq, get_of_child_none hc]
      · rfl
    | some c =>
      rw [erase_cons hc]
      cases q with
      | nil =>
        rw [prune]
        split_ifs <;> first | rfl | simp_all
      | cons m q =>
        by_cases hm : m = n
        · subst hm
          rw [get_prune, get_cons hc]
          -- the node itself, or one below it
          by_cases hnil : p = []
          · subst hnil
            cases q with
            | nil => simp [mapValue]
            | cons k q =>
              rw [if_pos rfl, if_neg (by simp)]
              exact get_congr (child_mapValue _ c k) q
          · rw [if_neg hnil, ih c hnil]
            simp
        -- the other children stay
        · rw [get_congr (child_prune_ne t _ hm) q, if_neg (by simp [hm])]

/-- Erasing removes nodes on the path only. -/
theorem has_erase_other (t : Trie α β) {p q : List α} (h : ¬q <+: p) :
    (t.erase p).Has q ↔ t.Has q := by
  induction p generalizing t q with
  | nil => rw [erase]
  | cons n p ih =>
    cases hc : t.child n with
    | none => rw [erase_of_none hc]
    | some c =>
      rw [erase_cons hc]
      cases q with
      | nil => exact absurd List.nil_prefix h
      | cons m q =>
        by_cases hm : m = n
        · subst hm
          have hqp : ¬q <+: p := fun hpre => h (List.cons_prefix_cons.mpr ⟨rfl, hpre⟩)
          -- pruning takes the node at the end of the path only
          have hq : q ≠ [] := by
            rintro rfl
            exact hqp List.nil_prefix
          rw [has_prune t _ m hq, has_cons, hc]
          simp only [Option.some.injEq, exists_eq_left']
          split_ifs with hnil
          · obtain ⟨k, q, rfl⟩ := List.exists_cons_of_ne_nil hq
            exact has_congr (child_mapValue _ c k) q
          · exact ih c hqp
        · exact has_congr (child_prune_ne t _ hm) q

/-- Erasing leaves no dead node, and removes the one that was at the path. -/
theorem tidy_erase {t : Trie α β} {p : List α} (hp : p ≠ []) (h : t.TidyBut p) :
    (t.erase p).Tidy := by
  induction p generalizing t with
  | nil => exact absurd rfl hp
  | cons n p ih =>
    cases hc : t.child n with
    | none =>
      rw [erase_of_none hc]
      intro q hq hhas hzero
      refine h q hq ?_ hhas hzero
      rintro rfl
      obtain ⟨c, hc', -⟩ := has_cons.mp hhas
      cases hc.symm.trans hc'
    | some c =>
      -- below the child all is as it should be, and the child itself is looked at last
      have hbelow : (if p = [] then c.mapValue fun _ => 0 else c.erase p).Tidy := by
        split_ifs with hnil
        · subst hnil
          intro q hq hhas hzero
          cases q with
          | nil => exact absurd rfl hq
          | cons k q =>
            have hsame : (c.mapValue fun _ => 0).child k = c.child k := rfl
            obtain ⟨m, hm⟩ := h.child hc (k :: q) hq hq ((has_congr hsame q).mp hhas)
              ((get_congr hsame q).symm.trans hzero)
            exact ⟨m, (has_congr hsame _).mpr hm⟩
        · exact ih hnil (h.child hc)
      rw [erase_cons hc]
      generalize (if p = [] then c.mapValue fun _ => 0 else c.erase p) = c' at hbelow ⊢
      intro q hq hhas hzero
      cases q with
      | nil => exact absurd rfl hq
      | cons m q =>
        by_cases hm : m = n
        · subst hm
          by_cases hdead : c'.value = 0 ∧ c'.childs.isEmpty
          · rw [prune, if_pos hdead] at hhas
            obtain ⟨c'', hc'', -⟩ := has_cons.mp hhas
            rw [child_dropChild, if_pos rfl] at hc''
            cases hc''
          · have hset : (t.prune m c').child m = some c' := by
              rw [prune, if_neg hdead, child_setChild, if_pos rfl]
            rw [get_prune] at hzero
            obtain ⟨c'', hc'', hhas⟩ := has_cons.mp hhas
            obtain rfl := Option.some.inj (hset.symm.trans hc'')
            have hchild : ∃ k, c'.Has (q ++ [k]) := by
              by_cases hnil : q = []
              · subst hnil
                refine exists_has_iff.mpr fun hnochild => hdead ⟨hzero, ?_⟩
                rw [hnochild]
                rfl
              · exact hbelow q hnil hhas hzero
            obtain ⟨k, hk⟩ := hchild
            exact ⟨k, has_cons.mpr ⟨c', hset, hk⟩⟩
        · have hsame := child_prune_ne t c' hm
          obtain ⟨k, hk⟩ := h (m :: q) hq (by simp [hm]) ((has_congr hsame q).mp hhas)
            ((get_congr hsame q).symm.trans hzero)
          exact ⟨k, (has_congr hsame _).mpr hk⟩

/-! ## Moving nodes -/

/-- The tree without the node at a path and what is below it. -/
def detach (p : List α) (t : Trie α β) : Trie α β := (t.modify bare p).erase p

omit [Zero β] [DecidableEq β] in
theorem not_has_bare {t : Trie α β} {n : α} {p q : List α} :
    ¬(t.modify bare p).Has (p ++ n :: q) := by
  intro hhas
  obtain ⟨c, -, hc⟩ := has_modify_append.mp hhas
  obtain ⟨d, hd, -⟩ := has_cons.mp hc
  cases hd

/-- A detached subtree takes all of its values with it. -/
theorem get_detach (t : Trie α β) {p : List α} (hp : p ≠ []) (q : List α) :
    (t.detach p).get q = if p <+: q then 0 else t.get q := by
  rw [detach, get_erase _ hp]
  by_cases hpq : p <+: q
  · rw [if_pos hpq]
    obtain ⟨r, rfl⟩ := hpq
    cases r with
    | nil => rw [if_pos (List.append_nil p)]
    | cons n r => rw [if_neg (by simp), get_of_not_has not_has_bare]
  · rw [if_neg hpq, if_neg, (modify_of_not_below _ hpq).2]
    rintro rfl
    exact hpq List.prefix_rfl

theorem has_detach_other (t : Trie α β) {p q : List α} (hpq : ¬p <+: q) (hqp : ¬q <+: p) :
    (t.detach p).Has q ↔ t.Has q := by
  rw [detach, has_erase_other _ hqp, (modify_of_not_below _ hpq).1]

/-- Detaching prunes what is left above, so that the tree stays tidy. -/
theorem tidy_detach {t : Trie α β} (h : t.Tidy) {p : List α} (hp : p ≠ []) :
    (t.detach p).Tidy := by
  refine tidy_erase hp fun q hq hne hhas hzero => ?_
  have hpq : ¬p <+: q := by
    rintro ⟨r, rfl⟩
    cases r with
    | nil => exact hne (List.append_nil p)
    | cons n r => exact not_has_bare hhas
  obtain ⟨hhas', hget'⟩ := modify_of_not_below bare (t := t) hpq
  obtain ⟨n, hn⟩ := h q hq (hhas'.mp hhas) (hget'.symm.trans hzero)
  refine ⟨n, ?_⟩
  by_cases hpn : p <+: q ++ [n]
  · -- the node at the path is still there before it is erased
    obtain rfl := (List.prefix_concat_iff.mp hpn).resolve_right hpq
    obtain ⟨c, hc⟩ := has_iff.mp hn
    have hkept := has_modify_append (f := bare) (q := []) |>.mpr ⟨c, hc, has_nil _⟩
    rwa [List.append_nil] at hkept
  · exact (modify_of_not_below bare hpn).1.mpr hn

end Erase

/-- The tree with another one put at a path. -/
def graft (p : List α) (t c : Trie α β) : Trie α β := (t.insert p).modify (fun _ => c) p

theorem get_graft_append (c t : Trie α β) (p q : List α) :
    (t.graft p c).get (p ++ q) = c.get q := by
  obtain ⟨d, hd⟩ := has_iff.mp ((has_insert t p p).mpr (Or.inr List.prefix_rfl))
  exact get_modify_append hd q

theorem has_graft_append (c t : Trie α β) (p q : List α) :
    (t.graft p c).Has (p ++ q) ↔ c.Has q := by
  obtain ⟨d, hd⟩ := has_iff.mp ((has_insert t p p).mpr (Or.inr List.prefix_rfl))
  rw [graft, has_modify_append]
  simp [hd]

theorem get_graft_other (c t : Trie α β) {p q : List α} (h : ¬p <+: q) :
    (t.graft p c).get q = t.get q := by
  rw [graft, (modify_of_not_below _ h).2, get_insert]

theorem has_graft_other (c t : Trie α β) {p q : List α} (h : ¬p <+: q) :
    (t.graft p c).Has q ↔ t.Has q ∨ q <+: p := by
  rw [graft, (modify_of_not_below _ h).1, has_insert]

/-- Grafting a tidy tree that has something in it keeps a tree tidy. -/
theorem tidy_graft {c t : Trie α β} (ht : t.Tidy) (hc : c.Tidy)
    (hlive : c.value ≠ 0 ∨ c.childs ≠ []) {p : List α} : (t.graft p c).Tidy := by
  intro q hq hhas hzero
  by_cases hpq : p <+: q
  · obtain ⟨r, rfl⟩ := hpq
    rw [has_graft_append] at hhas
    rw [get_graft_append] at hzero
    -- below `p` the trie is the one that was put there
    have hchild : ∃ n, c.Has (r ++ [n]) := by
      by_cases hr : r = []
      · subst hr
        exact exists_has_iff.mpr (hlive.resolve_left (not_not_intro hzero))
      · exact hc r hr hhas hzero
    obtain ⟨n, hn⟩ := hchild
    refine ⟨n, ?_⟩
    rw [List.append_assoc]
    exact (has_graft_append c t p _).mpr hn
  · rw [get_graft_other c t hpq] at hzero
    -- elsewhere a node was there before, or it is on the way to `p`
    have hbelow : ∃ n, t.Has (q ++ [n]) ∨ q ++ [n] <+: p := by
      obtain hhas | ⟨r, hr⟩ := (has_graft_other c t hpq).mp hhas
      · obtain ⟨n, hn⟩ := ht q hq hhas hzero
        exact ⟨n, Or.inl hn⟩
      · cases r with
        | nil => exact absurd (hr ▸ by simp) hpq
        | cons n r => exact ⟨n, Or.inr ⟨r, by simpa using hr⟩⟩
    obtain ⟨n, hn⟩ := hbelow
    refine ⟨n, ?_⟩
    by_cases hpn : p <+: q ++ [n]
    · obtain rfl := (List.prefix_concat_iff.mp hpn).resolve_right hpq
      have hput := (has_graft_append c t (q ++ [n]) []).mpr (has_nil c)
      rwa [List.append_nil] at hput
    · exact (has_graft_other c t hpn).mpr hn

end Trie

end Snapper.General
