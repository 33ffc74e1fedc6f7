import Snapper.General.Trie

/-!
# The nodes of a tree of marks

The list of all nodes, each before the nodes below it, and what putting a list of marks into a
tree does.  A mark is put by `place`: a node that is there already is only touched.

## Main results

- `mem_nodes`: the list has the nodes with their marks
- `nodes_preorder`: no node of the list comes after one below it
- `get_foldl_place`, `has_foldl_place`, `tidy_foldl_place`: the tree after a list of marks
-/

namespace Snapper.General.Trie

universe u v

variable {α : Type u} {β : Type v}

mutual
/-- The nodes below the root in the order of a depth-first walk. -/
def nodes : Trie α β → List (List α × β)
  | .node _ cs => nodesOf cs
def nodesOf : List (α × Trie α β) → List (List α × β)
  | [] => []
  | (n, c) :: cs => ([n], c.value) :: (nodes c).map (fun e => (n :: e.1, e.2)) ++ nodesOf cs
end

/-- A node of a list of children is a child or a node below one. -/
theorem mem_nodesOf {cs : List (α × Trie α β)} {e : List α × β} :
    e ∈ nodesOf cs ↔ ∃ n c, (n, c) ∈ cs ∧
      (e = ([n], c.value) ∨ ∃ e' ∈ c.nodes, e = (n :: e'.1, e'.2)) := by
  induction cs with
  | nil => simp [nodesOf]
  | cons a cs ih =>
    obtain ⟨n, c⟩ := a
    simp only [nodesOf, List.cons_append, List.mem_cons, List.mem_append, List.mem_map, ih]
    constructor
    · intro h
      obtain rfl | ⟨e', he', rfl⟩ | ⟨m, d, hmem, h⟩ := h
      · exact ⟨n, c, Or.inl rfl, Or.inl rfl⟩
      · exact ⟨n, c, Or.inl rfl, Or.inr ⟨e', he', rfl⟩⟩
      · exact ⟨m, d, Or.inr hmem, h⟩
    · intro ⟨m, d, hmem, h⟩
      obtain heq | hmem := hmem
      · cases heq
        obtain rfl | ⟨e', he', rfl⟩ := h
        · exact Or.inl rfl
        · exact Or.inr (Or.inl ⟨e', he', rfl⟩)
      · exact Or.inr (Or.inr ⟨m, d, hmem, h⟩)

theorem nodes_eq (t : Trie α β) : t.nodes = nodesOf t.childs := by
  cases t
  rfl

theorem ne_nil_of_mem_nodes {t : Trie α β} {e : List α × β} (h : e ∈ t.nodes) : e.1 ≠ [] := by
  rw [nodes_eq, mem_nodesOf] at h
  obtain ⟨n, c, -, rfl | ⟨e', -, rfl⟩⟩ := h
  · exact List.cons_ne_nil n []
  · exact List.cons_ne_nil n e'.1

variable [LinearOrder α]

/-- The childs are in the order of their keys everywhere. -/
inductive Ordered : Trie α β → Prop where
  | node {v : β} {cs : List (α × Trie α β)} :
      cs.Pairwise (fun a b => a.1 < b.1) → (∀ e ∈ cs, Ordered e.2) → Ordered (.node v cs)

namespace Ordered

variable {t c : Trie α β}

theorem sorted (h : t.Ordered) : t.childs.Pairwise fun a b => a.1 < b.1 := by
  cases h with
  | node hcs _ => exact hcs

theorem of_mem (h : t.Ordered) {n : α} (hc : (n, c) ∈ t.childs) : c.Ordered := by
  cases h with
  | node _ hcs => exact hcs _ hc

theorem child_eq_some_iff (h : t.Ordered) {n : α} : t.child n = some c ↔ (n, c) ∈ t.childs :=
  SortedMap.find_eq_some_iff (m := ⟨t.childs, h.sorted⟩)

theorem of_child (h : t.Ordered) {n : α} (hc : t.child n = some c) : c.Ordered :=
  h.of_mem (mem_of_child hc)

theorem mk' (hcs : t.childs.Pairwise fun a b => a.1 < b.1) (h : ∀ e ∈ t.childs, e.2.Ordered) :
    t.Ordered := by
  cases t with
  | node v cs => exact .node hcs h

theorem leaf (v : β) : (Trie.node v [] : Trie α β).Ordered :=
  .node List.Pairwise.nil fun _ h => nomatch h

theorem mapValue (h : t.Ordered) (f : β → β) : (t.mapValue f).Ordered :=
  mk' h.sorted fun _ he => h.of_mem he

theorem setChild (h : t.Ordered) (hc : c.Ordered) (n : α) : (t.setChild n c).Ordered := by
  refine .node (SortedMap.sorted_setEntry h.sorted) fun e he => ?_
  obtain rfl | he := SortedMap.mem_setEntry he
  · exact hc
  · exact h.of_mem he

theorem dropChild (h : t.Ordered) (n : α) : (t.dropChild n).Ordered :=
  .node (h.sorted.filter _) fun _ he => h.of_mem (List.mem_filter.mp he).1

theorem prune [Zero β] [DecidableEq β] (h : t.Ordered) (hc : c.Ordered) (n : α) :
    (t.prune n c).Ordered := by
  rw [Trie.prune]
  split_ifs
  · exact h.dropChild n
  · exact h.setChild hc n

/-- Every subtree of an ordered tree is ordered. -/
theorem find (h : t.Ordered) {p : List α} (hc : t.find p = some c) : c.Ordered := by
  induction p generalizing t with
  | nil =>
    obtain rfl := Option.some.inj hc
    exact h
  | cons n p ih =>
    rw [find_cons] at hc
    obtain ⟨d, hd, hc⟩ := Option.bind_eq_some_iff.mp hc
    exact ih (h.of_child hd) hc

theorem modify {f : Trie α β → Trie α β} (hf : ∀ c : Trie α β, c.Ordered → (f c).Ordered)
    (h : t.Ordered) (p : List α) : (t.modify f p).Ordered := by
  fun_induction Trie.modify f p t with
  | case1 t => exact hf t h
  | case2 n p t c hc ih => exact h.setChild (ih (h.of_child hc)) n
  | case3 => exact h

/-- A new node comes to its place among its siblings. -/
theorem insert [Zero β] (h : t.Ordered) (p : List α) : (t.insert p).Ordered := by
  induction p generalizing t with
  | nil => exact h
  | cons n p ih =>
    refine h.setChild (ih ?_) n
    cases hc : t.child n with
    | none => exact leaf 0
    | some c => exact h.of_child hc

theorem putValue [Zero β] (h : t.Ordered) (f : β → β) (p : List α) : (t.putValue f p).Ordered :=
  (h.insert p).modify (fun _ hc => hc.mapValue f) p

theorem bare (t : Trie α β) : t.bare.Ordered := leaf t.value

theorem graft [Zero β] (h : t.Ordered) (hc : c.Ordered) (p : List α) : (t.graft p c).Ordered :=
  (h.insert p).modify (fun _ _ => hc) p

/-- Erasing takes nodes out and keeps the others in order. -/
theorem erase [Zero β] [DecidableEq β] (h : t.Ordered) (p : List α) : (t.erase p).Ordered := by
  induction p generalizing t with
  | nil => exact h
  | cons n p ih =>
    cases hc : t.child n with
    | none =>
      rw [erase_of_none hc]
      exact h
    | some c =>
      have hc' : (if p = [] then c.mapValue fun _ => 0 else c.erase p).Ordered := by
        split_ifs
        · exact (h.of_child hc).mapValue _
        · exact ih (h.of_child hc)
      rw [erase_cons hc]
      exact h.prune hc' n

theorem detach [Zero β] [DecidableEq β] (h : t.Ordered) (p : List α) : (t.detach p).Ordered :=
  (h.modify (fun c _ => bare c) p).erase p

end Ordered

/-! ## The list of nodes -/

/-- The list of nodes has every node but the root, by its path and with its value. -/
theorem mem_nodes {t : Trie α β} (h : t.Ordered) {p : List α} {v : β} :
    (p, v) ∈ t.nodes ↔ p ≠ [] ∧ ∃ c, t.find p = some c ∧ c.value = v := by
  rw [nodes_eq, mem_nodesOf]
  constructor
  · intro ⟨n, c, hmem, hp⟩
    have hc := h.child_eq_some_iff.mpr hmem
    obtain heq | ⟨⟨q, w⟩, hq, heq⟩ := hp
    · cases heq
      exact ⟨List.cons_ne_nil n [], c, by rw [find_cons, hc]; rfl, rfl⟩
    · cases heq
      -- the children are smaller
      have hsize := sizeOf_child hc
      obtain ⟨-, d, hd, hv⟩ := (mem_nodes (h.of_child hc)).mp hq
      exact ⟨List.cons_ne_nil n q, d, by rw [find_cons, hc]; exact hd, hv⟩
  · intro ⟨hp, d, hd, hv⟩
    cases p with
    | nil => exact absurd rfl hp
    | cons n q =>
      rw [find_cons] at hd
      obtain ⟨c, hc, hd⟩ := Option.bind_eq_some_iff.mp hd
      have hsize := sizeOf_child hc
      refine ⟨n, c, mem_of_child hc, ?_⟩
      cases q with
      | nil =>
        obtain rfl := Option.some.inj hd
        exact Or.inl (by rw [hv])
      | cons m q =>
        exact Or.inr ⟨(m :: q, v), (mem_nodes (h.of_child hc)).mpr
          ⟨List.cons_ne_nil m q, d, hd, hv⟩, rfl⟩
termination_by sizeOf t

/-- The list of nodes is in preorder: none comes after one that is below it. -/
theorem nodesOf_preorder {cs : List (α × Trie α β)} (hcs : cs.Pairwise fun a b => a.1 < b.1)
    (h : ∀ e ∈ cs, e.2.nodes.Pairwise fun a b => ¬b.1 <+: a.1) :
    (nodesOf cs).Pairwise fun a b => ¬b.1 <+: a.1 := by
  induction cs with
  | nil => exact List.Pairwise.nil
  | cons a cs ih =>
    obtain ⟨n, c⟩ := a
    obtain ⟨hlt, hcs⟩ := List.pairwise_cons.mp hcs
    -- every node of the rest is below another child
    have hrest : ∀ e ∈ nodesOf cs, ∃ m q, e.1 = m :: q ∧ n < m := by
      intro e he
      obtain ⟨m, d, hmem, he⟩ := mem_nodesOf.mp he
      obtain rfl | ⟨e', -, rfl⟩ := he
      · exact ⟨m, [], rfl, hlt _ hmem⟩
      · exact ⟨m, e'.1, rfl, hlt _ hmem⟩
    have hbelow : ∀ e ∈ ([n], c.value) :: c.nodes.map (fun e => (n :: e.1, e.2)),
        ∃ q, e.1 = n :: q := by
      intro e he
      obtain rfl | he := List.mem_cons.mp he
      · exact ⟨[], rfl⟩
      · obtain ⟨e', -, rfl⟩ := List.mem_map.mp he
        exact ⟨e'.1, rfl⟩
    rw [nodesOf, List.pairwise_append]
    refine ⟨List.pairwise_cons.mpr ⟨?_, ?_⟩, ih hcs fun e he => h e (List.mem_cons_of_mem _ he), ?_⟩
    · intro e he hpre
      obtain ⟨e', he', rfl⟩ := List.mem_map.mp he
      exact ne_nil_of_mem_nodes he' (List.prefix_nil.mp (List.cons_prefix_cons.mp hpre).2)
    · rw [List.pairwise_map]
      refine (h _ (List.mem_cons_self ..)).imp fun hab hpre => hab ?_
      exact (List.cons_prefix_cons.mp hpre).2
    · intro a ha b hb hpre
      obtain ⟨q, hq⟩ := hbelow a ha
      obtain ⟨m, r, hr, hlt⟩ := hrest b hb
      rw [hq, hr] at hpre
      exact hlt.ne (List.cons_prefix_cons.mp hpre).1.symm

/-- No node comes after one below it. -/
theorem nodes_preorder {t : Trie α β} (h : t.Ordered) :
    t.nodes.Pairwise fun a b => ¬b.1 <+: a.1 := by
  induction h with
  | node hcs _ ih => exact nodesOf_preorder hcs ih

/-! ## Putting marks -/

section Place

variable [Zero β] {touch : β → β}

/-- Put a mark where there is no node; a node that is there is touched. -/
def place (touch : β → β) (t : Trie α β) (e : List α × β) : Trie α β :=
  if t.Has e.1 then t.modify (mapValue touch) e.1 else t.putValue (fun _ => e.2) e.1

/-- Placing a value makes the nodes on its path. -/
theorem has_place (t : Trie α β) (e : List α × β) (q : List α) :
    (t.place touch e).Has q ↔ t.Has q ∨ q <+: e.1 := by
  rw [place]
  split_ifs with he
  · rw [has_mapValue]
    constructor
    · exact Or.inl
    · intro h
      obtain h | ⟨r, hr⟩ := h
      · exact h
      · exact (hr.symm ▸ he : t.Has (q ++ r)).above
  · exact has_putValue _ t e.1 q

/-- It sets the value at a new node and touches that of an old one; others keep theirs. -/
theorem get_place (t : Trie α β) (e : List α × β) (q : List α) :
    (t.place touch e).get q =
      if q = e.1 then (if t.Has e.1 then touch (t.get e.1) else e.2) else t.get q := by
  rw [place]
  split_ifs with he hq hq
  · rw [get_mapValue touch he, if_pos hq]
  · rw [get_mapValue touch he, if_neg hq]
  · rw [get_putValue, if_pos hq]
  · rw [get_putValue, if_neg hq]

variable {l : List (List α × β)} {t : Trie α β}

theorem has_foldl_place (l : List (List α × β)) (t : Trie α β) (q : List α) :
    (l.foldl (place touch) t).Has q ↔ t.Has q ∨ ∃ e ∈ l, q <+: e.1 := by
  induction l generalizing t with
  | nil => simp
  | cons e l ih =>
    rw [List.foldl_cons, ih, has_place]
    simp only [List.mem_cons, exists_eq_or_imp, or_assoc]

theorem get_foldl_place_other {q : List α} (h : ∀ e ∈ l, e.1 ≠ q) :
    (l.foldl (place touch) t).get q = t.get q := by
  induction l generalizing t with
  | nil => rfl
  | cons e l ih =>
    rw [List.foldl_cons, ih fun e he => h e (List.mem_cons_of_mem _ he), get_place,
      if_neg (h e (List.mem_cons_self ..)).symm]

/-- What holds of every value, of the marks and of what is touched, holds afterwards. -/
theorem forall_get_foldl_place {P : β → Prop} (htouch : ∀ v, P v → P (touch v))
    (hl : ∀ e ∈ l, P e.2) (ht : ∀ q, P (t.get q)) (q : List α) :
    P ((l.foldl (place touch) t).get q) := by
  induction l generalizing t with
  | nil => exact ht q
  | cons e l ih =>
    rw [List.forall_mem_cons] at hl
    refine ih hl.2 fun q => ?_
    rw [get_place]
    split_ifs
    · exact htouch _ (ht e.1)
    · exact hl.1
    · exact ht q

/-- There is no node yet where a mark of the list is put, after the marks `l₁` before it. -/
def Fresh (t : Trie α β) (l₁ : List (List α × β)) (p : List α) : Prop :=
  ¬t.Has p ∧ ∀ e ∈ l₁, ¬p <+: e.1

instance (t : Trie α β) (l₁ : List (List α × β)) (p : List α) : Decidable (t.Fresh l₁ p) :=
  inferInstanceAs (Decidable (_ ∧ _))

/-- What is at a path where the list puts a mark once. -/
theorem get_foldl_place {l₁ l₂ : List (List α × β)} {e : List α × β}
    (hdist : (l₁ ++ e :: l₂).Pairwise fun a b => a.1 ≠ b.1) :
    ((l₁ ++ e :: l₂).foldl (place touch) t).get e.1 =
      if t.Fresh l₁ e.1 then e.2 else touch (t.get e.1) := by
  obtain ⟨-, hafter, hbefore⟩ := List.pairwise_append.mp hdist
  -- neither the marks before nor those after are for this path
  have hother₁ : ∀ a ∈ l₁, a.1 ≠ e.1 := fun a ha => hbefore a ha e (List.mem_cons_self ..)
  have hother₂ : ∀ a ∈ l₂, a.1 ≠ e.1 := fun a ha => ((List.pairwise_cons.mp hafter).1 a ha).symm
  rw [List.foldl_append, List.foldl_cons, get_foldl_place_other hother₂, get_place, if_pos rfl,
    get_foldl_place_other hother₁]
  -- but those before decide whether there is a node when its turn comes
  by_cases hfresh : t.Fresh l₁ e.1
  · rw [if_pos hfresh, if_neg]
    intro hhas
    obtain h | ⟨a, ha, hpre⟩ := (has_foldl_place l₁ t e.1).mp hhas
    · exact hfresh.1 h
    · exact hfresh.2 a ha hpre
  · rw [if_neg hfresh, if_pos]
    rw [has_foldl_place]
    by_contra hno
    push Not at hno
    exact hfresh hno

/-- What is at a path of a list that goes down the tree. -/
theorem get_foldl_place_preorder (hpre : l.Pairwise fun a b => ¬b.1 <+: a.1) {e : List α × β}
    (he : e ∈ l) :
    (l.foldl (place touch) t).get e.1 = if t.Has e.1 then touch (t.get e.1) else e.2 := by
  obtain ⟨l₁, l₂, rfl⟩ := List.append_of_mem he
  have hdist : (l₁ ++ e :: l₂).Pairwise fun a b => a.1 ≠ b.1 :=
    hpre.imp fun {a b} hab (heq : a.1 = b.1) => hab (heq ▸ List.prefix_rfl)
  rw [get_foldl_place hdist]
  have hbefore : ∀ a ∈ l₁, ¬e.1 <+: a.1 := fun a ha =>
    (List.pairwise_append.mp hpre).2.2 a ha e (List.mem_cons_self ..)
  by_cases hhas : t.Has e.1
  · rw [if_pos hhas, if_neg fun hfresh => hfresh.1 hhas]
  · rw [if_neg hhas, if_pos ⟨hhas, hbefore⟩]

/-- The tree stays tidy exactly when each node that is made without a mark gets a node below. -/
theorem tidy_foldl_place (htouch : ∀ v, touch v ≠ 0) (h : t.Tidy) (hnil : ∀ e ∈ l, e.1 ≠ [])
    (hdist : l.Pairwise fun a b => a.1 ≠ b.1) :
    (l.foldl (place touch) t).Tidy ↔ ∀ l₁ e l₂, l = l₁ ++ e :: l₂ → t.Fresh l₁ e.1 → e.2 = 0 →
      ∃ a ∈ l₂, e.1 <+: a.1 := by
  constructor
  · intro htidy l₁ e l₂ hl hfresh hzero
    have hmem : e ∈ l := by
      rw [hl]
      simp
    have hget : (l.foldl (place touch) t).get e.1 = 0 := by
      subst hl
      rw [get_foldl_place hdist, if_pos hfresh, hzero]
    obtain ⟨n, hn⟩ := htidy e.1 (hnil e hmem)
      ((has_foldl_place l t e.1).mpr (Or.inr ⟨e, hmem, List.prefix_rfl⟩)) hget
    obtain hhas | ⟨a, ha, hpre⟩ := (has_foldl_place l t _).mp hn
    · exact absurd hhas.above hfresh.1
    · have hpre' : e.1 <+: a.1 := (List.prefix_append e.1 [n]).trans hpre
      rw [hl] at ha
      obtain ha | ha := List.mem_append.mp ha
      · exact absurd hpre' (hfresh.2 a ha)
      · obtain rfl | ha := List.mem_cons.mp ha
        · have hlen := hpre.length_le
          rw [List.length_append, List.length_singleton] at hlen
          omega
        · exact ⟨a, ha, hpre'⟩
  · intro hbelow q hq hhas hzero
    -- a proper prefix of a path where a mark is put has a node below it
    have hproper : ∀ a ∈ l, q <+: a.1 → q ≠ a.1 →
      ∃ n, (l.foldl (place touch) t).Has (q ++ [n]) := by
      intro a ha ⟨r, hr⟩ hne
      cases r with
      | nil => exact absurd ((List.append_nil q).symm.trans hr) hne
      | cons n r =>
        refine ⟨n, (has_foldl_place l t _).mpr (Or.inr ⟨a, ha, r, ?_⟩)⟩
        rw [← hr]
        simp
    by_cases hput : ∃ e ∈ l, e.1 = q
    · obtain ⟨e, hmem, rfl⟩ := hput
      obtain ⟨l₁, l₂, rfl⟩ := List.append_of_mem hmem
      rw [get_foldl_place hdist] at hzero
      split_ifs at hzero with hfresh
      · obtain ⟨a, ha, hpre⟩ := hbelow l₁ e l₂ rfl hfresh hzero
        refine hproper a (by simp [ha]) hpre ?_
        obtain ⟨-, hafter, -⟩ := List.pairwise_append.mp hdist
        exact (List.pairwise_cons.mp hafter).1 a ha
      · exact absurd hzero (htouch _)
    · push Not at hput
      rw [get_foldl_place_other hput] at hzero
      obtain hhas | ⟨a, ha, hpre⟩ := (has_foldl_place l t q).mp hhas
      · obtain ⟨n, hn⟩ := h q hq hhas hzero
        exact ⟨n, (has_foldl_place l t _).mpr (Or.inl hn)⟩
      · exact hproper a ha hpre (hput a ha).symm

/-- Putting one mark keeps a tree tidy. -/
theorem tidy_place (htouch : ∀ v, touch v ≠ 0) (h : t.Tidy) {e : List α × β} (hnil : e.1 ≠ [])
    (hmark : e.2 ≠ 0) : (t.place touch e).Tidy := by
  have hput : ([e].foldl (place touch) t).Tidy := by
    refine (tidy_foldl_place htouch h ?_ (List.pairwise_singleton _ e)).mpr ?_
    · simpa using hnil
    · intro l₁ a l₂ hsplit _ hzero
      have ha : a ∈ [e] := by simp [hsplit]
      obtain rfl := List.mem_singleton.mp ha
      exact absurd hzero hmark
  exact hput

end Place

end Snapper.General.Trie
