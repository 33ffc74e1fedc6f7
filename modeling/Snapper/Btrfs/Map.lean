import Snapper.Btrfs.Report
import Snapper.General.Run

/-!
# `tree_node` as a map

The operations take the path as a string, which they cut at its slashes.  After any of them the
tree is a map from paths to statuses other than zero: a node without a status is there for a node
below it, and never left behind.

## Main results

- `rename_ok`, `rename_refused`: what a rename does
- `WellKept.apply`: an operation keeps a tree well-kept
- `tree_node_map`: what every operation does to a tree that operations have made
-/

namespace Snapper.Btrfs

open General

/-! ## Paths as strings -/

/-- The names between the slashes of a string, of which there is at least one -/
def components (name : Str) : Path := name.splitOn slash

theorem components_ne_nil (name : Str) : components name ≠ [] := List.splitOn_ne_nil slash name

theorem components_intercalate {p : Path} (hp : p ≠ []) (hnames : ∀ n ∈ p, slash ∉ n) :
    components ([slash].intercalate p) = p := List.splitOn_intercalate slash hnames hp

/-- A component is what stands between two slashes. -/
theorem no_slash_of_components {name : Str} {n : Name} (hn : n ∈ components name) : slash ∉ n := by
  induction name generalizing n with
  | nil =>
    obtain rfl : n = [] := by simpa [components] using hn
    exact List.not_mem_nil
  | cons c name ih =>
    rw [components, List.splitOn_cons_eq_if_modifyHead] at hn
    split at hn
    · obtain rfl | hn := List.mem_cons.mp hn
      · exact List.not_mem_nil
      · exact ih hn
    · next hc =>
      -- the byte is put in front of the first name
      obtain ⟨first, rest, hsplit⟩ := List.exists_cons_of_ne_nil (components_ne_nil name)
      rw [components] at hsplit
      rw [hsplit, List.modifyHead_cons] at hn
      have hfirst : first ∈ components name := by simp [components, hsplit]
      obtain rfl | hn := List.mem_cons.mp hn
      · intro hmem
        obtain heq | hmem := List.mem_cons.mp hmem
        · exact hc (by simp [heq])
        · exact ih hfirst hmem
      · exact ih (by simp [components, hsplit, hn])

theorem intercalate_cons (n : Name) (p : Path) :
    [slash].intercalate (n :: p) = n ++ pathName p := by
  induction p generalizing n with
  | nil => simp
  | cons m p ih =>
    rw [List.intercalate_cons_cons, ih]
    simp

/-- Slashes in front of a path are lost when its node is reported. -/
theorem textBelow_nil {p : Path} (hnames : ∀ n ∈ p, slash ∉ n) :
    TreeNode.textBelow [] p = ([slash].intercalate p).dropWhile (· = slash) := by
  induction p with
  | nil => rfl
  | cons n p ih =>
    cases n with
    | nil =>
      show TreeNode.textBelow [] p = _
      rw [ih fun m hm => hnames m (List.mem_cons_of_mem _ hm)]
      cases p with
      | nil => rfl
      | cons m p =>
        rw [intercalate_cons [], pathName_cons, intercalate_cons m]
        simp
    | cons c n =>
      have hc : c ≠ slash := fun h => hnames (c :: n) List.mem_cons_self (by simp [h])
      show TreeNode.textBelow (c :: n) p = _
      rw [TreeNode.textBelow_append (List.cons_ne_nil c n), intercalate_cons]
      simp [hc]

/-! ## Operations -/

/-- `insert` with a status set on the node it returns, `erase`, and `rename` to a path that is not
the old one or below it. -/
inductive Operation where
  | set (name : Str) (status : Status) (nonzero : status ≠ 0)
  | erase (name : Str)
  | rename (o n : Str) (apart : ¬components o <+: components n)

def Operation.apply (t : TreeNode) : Operation → TreeNode
  | set name status _ => t.putValue (fun _ => status) (components name)
  | erase name => t.erase (components name)
  | rename o n _ => (TreeNode.rename t (components o) (components n)).2

variable {t : TreeNode} {o n : Path}

theorem rename_ok {oo : TreeNode} (ho : t.find o = some oo) (hn : ¬t.Has n) :
    TreeNode.rename t o n = (true, (t.graft n oo).detach o) := by
  have hnone : t.find n = none := Option.not_isSome_iff_eq_none.mp hn
  rw [TreeNode.rename, ho, hnone]
  rfl

/-- Where the old name is missing or the new one is there, `rename` reports that and changes
nothing. -/
theorem rename_refused (h : ¬(t.Has o ∧ ¬t.Has n)) : TreeNode.rename t o n = (false, t) := by
  rw [TreeNode.rename]
  split
  · rfl
  · next oo ho =>
    split
    · rfl
    · next hn => exact absurd ⟨Trie.has_iff.mpr ⟨oo, ho⟩, by simp [Trie.Has, hn]⟩ h

theorem rename_fst : (TreeNode.rename t o n).1 = true ↔ t.Has o ∧ ¬t.Has n := by
  by_cases h : t.Has o ∧ ¬t.Has n
  · obtain ⟨oo, ho⟩ := Trie.has_iff.mp h.1
    rw [rename_ok ho h.2]
    exact iff_of_true rfl h
  · rw [rename_refused h]
    exact iff_of_false Bool.false_ne_true h

/-- Nothing is both below the old path and below the new one. -/
theorem not_below_both (ho : t.Has o) (hn : ¬t.Has n) (apart : ¬o <+: n) {p : Path}
    (hp : n <+: p) : ¬o <+: p := by
  intro hop
  obtain hpre | ⟨r, rfl⟩ := List.prefix_or_prefix_of_prefix hop hp
  · exact apart hpre
  · exact hn ho.above

/-- The statuses after a rename. -/
theorem get_renamed (hne : o ≠ []) {oo : TreeNode} (ho : t.find o = some oo) (p : Path) :
    ((t.graft n oo).detach o).get p =
      if o <+: p then 0 else if n <+: p then t.get (o ++ p.drop n.length) else t.get p := by
  rw [Trie.get_detach _ hne]
  split_ifs with hop hnp
  · rfl
  · obtain ⟨q, rfl⟩ := hnp
    rw [Trie.get_graft_append, List.drop_left, Trie.get_append ho]
  · exact Trie.get_graft_other oo t hnp

/-! ## Trees that operations make -/

/-- Every node has a status or a child, and the paths of statuses are those of strings. -/
structure WellKept (t : TreeNode) : Prop where
  tidy : t.Tidy
  ordered : t.Ordered
  names : ∀ p, t.get p ≠ 0 → p ≠ [] ∧ ∀ n ∈ p, slash ∉ n

/-- The tree that a processor starts with is only its root, which has no status. -/
theorem wellKept_empty : WellKept (.node 0 []) where
  tidy := fun _ hp hhas _ => absurd hhas (not_has_empty hp)
  ordered := .leaf 0
  names := by
    intro p hp
    cases p with
    | nil => exact absurd rfl hp
    | cons n p => exact absurd (Trie.get_of_not_has (not_has_empty (List.cons_ne_nil n p))) hp

/-- Every operation keeps the tree ordered and tidy, with names that can be names of files. -/
theorem WellKept.apply (h : WellKept t) (op : Operation) : WellKept (op.apply t) := by
  cases op with
  | set name status nonzero =>
    refine ⟨Trie.tidy_putValue h.tidy nonzero, h.ordered.putValue _ _, fun p hp => ?_⟩
    by_cases hname : p = components name
    · subst hname
      exact ⟨components_ne_nil name, fun n hn => no_slash_of_components hn⟩
    · have hget : (t.putValue (fun _ => status) (components name)).get p = _ :=
        Trie.get_putValue _ _ _ _
      rw [if_neg hname] at hget
      exact h.names p (hget ▸ hp)
  | erase name =>
    have hne := components_ne_nil name
    refine ⟨Trie.tidy_erase hne (h.tidy.but _), h.ordered.erase _, fun p hp => ?_⟩
    have hget : (t.erase (components name)).get p = _ := Trie.get_erase t hne p
    by_cases hname : p = components name
    · rw [if_pos hname] at hget
      exact absurd hget hp
    · rw [if_neg hname] at hget
      exact h.names p (hget ▸ hp)
  | rename o n apart =>
    show WellKept (TreeNode.rename t (components o) (components n)).2
    by_cases hgo : t.Has (components o) ∧ ¬t.Has (components n)
    · obtain ⟨oo, ho⟩ := Trie.has_iff.mp hgo.1
      have hne := components_ne_nil o
      rw [rename_ok ho hgo.2]
      -- the subtree is put at the new path before the old one is cut off
      refine ⟨?_, (h.ordered.graft (h.ordered.find ho) _).detach _, fun p hp => ?_⟩
      · exact Trie.tidy_detach (Trie.tidy_graft h.tidy (h.tidy.of_find ho) (h.tidy.live hne ho)) hne
      · rw [get_renamed hne ho] at hp
        split_ifs at hp with hop hnp
        · exact absurd rfl hp
        · -- the names of the new path, then names that were below the old one
          obtain ⟨q, rfl⟩ := hnp
          rw [List.drop_left] at hp
          have hnames := (h.names _ hp).2
          refine ⟨by simp [components_ne_nil n], fun m hm => ?_⟩
          obtain hm | hm := List.mem_append.mp hm
          · exact no_slash_of_components hm
          · exact hnames m (List.mem_append_right _ hm)
        · exact h.names p hp
    · rw [rename_refused hgo]
      exact h

theorem wellKept_foldl (ops : List Operation) : WellKept (ops.foldl Operation.apply (.node 0 [])) :=
  foldl_induction (P := fun _ t => WellKept t) wellKept_empty (fun _ op _ _ h => h.apply op)
    (List.append_nil ops).symm

/-! ## The map -/

/-- The tree is a map from paths to statuses other than zero. -/
structure IsMap (t : TreeNode) : Prop where
  /-- A node without a status has a child. -/
  zero : ∀ p, p ≠ [] → t.Has p → t.get p = 0 → ∃ n, t.Has (p ++ [n])
  find : ∀ name, t.Has (components name) ↔ ∃ q, t.get (components name ++ q) ≠ 0
  set : ∀ name status, status ≠ 0 → ∀ p,
    (t.putValue (fun _ => status) (components name)).get p =
      if p = components name then status else t.get p
  erase : ∀ name p,
    (t.erase (components name)).get p = if p = components name then 0 else t.get p
  rename_iff : ∀ o n, ¬components o <+: components n →
    ((TreeNode.rename t (components o) (components n)).1 = true ↔
      t.Has (components o) ∧ ¬t.Has (components n))
  renamed : ∀ o n t', ¬components o <+: components n →
    TreeNode.rename t (components o) (components n) = (true, t') →
      (∀ q, t'.get (components n ++ q) = t.get (components o ++ q)) ∧
      (∀ q, t'.get (components o ++ q) = 0) ∧
      ∀ p, ¬components o <+: p → ¬components n <+: p → t'.get p = t.get p
  refused : ∀ o n t', ¬components o <+: components n →
    TreeNode.rename t (components o) (components n) = (false, t') → t' = t
  /-- One call for each path, whose slashes in front are lost -/
  result : ∃ names : List Str, names.Nodup ∧
    (∀ name, name ∈ names ↔ t.get (components name) ≠ 0) ∧
    TreeNode.result [] t =
      names.map fun name => (slash :: name.dropWhile (· = slash), t.get (components name))

/-- The calls of `result` for a well-kept tree. -/
theorem WellKept.result (h : WellKept t) : ∃ names : List Str, names.Nodup ∧
    (∀ name, name ∈ names ↔ t.get (components name) ≠ 0) ∧
    TreeNode.result [] t =
      names.map fun name => (slash :: name.dropWhile (· = slash), t.get (components name)) := by
  have hmem (p : Path) (status : Status) : (p, status) ∈ t.nodes.filter (fun e => e.2 ≠ 0) ↔
      t.get p = status ∧ status ≠ 0 := by
    rw [List.mem_filter, Trie.mem_nodes h.ordered]
    constructor
    · intro ⟨⟨_, c, hc, hv⟩, hne⟩
      exact ⟨(Trie.get_of_find hc).trans hv, by simpa using hne⟩
    · intro ⟨hget, hne⟩
      have hget' : t.get p ≠ 0 := hget ▸ hne
      obtain ⟨c, hc⟩ := Trie.has_iff.mp (Trie.has_of_get hget')
      exact ⟨⟨(h.names p hget').1, c, hc, (Trie.get_of_find hc).symm.trans hget⟩,
        by simpa using hne⟩
  -- the names were split at the slashes, so that joining them and splitting again is the same
  have hjoin : ∀ e ∈ t.nodes.filter (fun e => e.2 ≠ 0),
      components ([slash].intercalate e.1) = e.1 := by
    intro e he
    obtain ⟨hget, hne⟩ := (hmem e.1 e.2).mp he
    obtain ⟨hnil, hslash⟩ := h.names e.1 (hget ▸ hne)
    exact components_intercalate hnil hslash
  refine ⟨(t.nodes.filter fun e => e.2 ≠ 0).map fun e => [slash].intercalate e.1, ?_, ?_, ?_⟩
  · -- a path stands before those below it, and once
    refine List.Pairwise.map _ (R := fun a b => ¬b.1 <+: a.1 ∧
      components ([slash].intercalate a.1) = a.1 ∧ components ([slash].intercalate b.1) = b.1) ?_ ?_
    · intro a b hab heq
      have hsame : a.1 = b.1 := by rw [← hab.2.1, heq, hab.2.2]
      exact hab.1 (hsame ▸ List.prefix_rfl)
    · have hpre := (Trie.nodes_preorder h.ordered).filter fun e => e.2 ≠ 0
      exact hpre.imp_of_mem fun ha hb hab => ⟨hab, hjoin _ ha, hjoin _ hb⟩
  · intro name
    rw [List.mem_map]
    constructor
    · intro ⟨e, he, hname⟩
      obtain ⟨hget, hne⟩ := (hmem e.1 e.2).mp he
      rw [← hname, hjoin e he, hget]
      exact hne
    · intro hne
      refine ⟨(components name, t.get (components name)), (hmem _ _).mpr ⟨rfl, hne⟩, ?_⟩
      exact List.intercalate_splitOn slash
  · rw [TreeNode.result_eq, List.map_map]
    refine List.map_congr_left fun e he => ?_
    obtain ⟨hget, hne⟩ := (hmem e.1 e.2).mp he
    show (slash :: TreeNode.textBelow [] e.1, e.2) = (slash :: _, t.get _)
    rw [hjoin e he, hget, textBelow_nil (h.names e.1 (hget ▸ hne)).2]

/-- After any operations on an empty tree it is a map, except that a leading slash of a path is not
reported. -/
theorem tree_node_map (ops : List Operation) : IsMap (ops.foldl Operation.apply (.node 0 [])) := by
  have h := wellKept_foldl ops
  generalize ops.foldl Operation.apply (.node 0 []) = t at h ⊢
  refine ⟨h.tidy, fun name => h.tidy.has_iff (components_ne_nil name), ?_, ?_, ?_, ?_, ?_, h.result⟩
  · intro name status _ p
    rw [Trie.get_putValue]
    congr
  · intro name p
    rw [Trie.get_erase t (components_ne_nil name)]
    congr
  · intro o n _
    exact rename_fst
  · intro o n t' apart hrename
    obtain ⟨ho, hn⟩ := rename_fst.mp (congrArg Prod.fst hrename)
    obtain ⟨oo, hoo⟩ := Trie.has_iff.mp ho
    obtain rfl := (Prod.mk.inj ((rename_ok hoo hn).symm.trans hrename)).2
    have hget (p : Path) :
        ((t.graft (components n) oo).detach (components o)).get p = _ :=
      get_renamed (components_ne_nil o) hoo p
    -- below the new path, below the old one, and elsewhere
    refine ⟨fun q => ?_, fun q => ?_, fun p hop hnp => ?_⟩
    · rw [hget, if_neg (not_below_both ho hn apart (List.prefix_append ..)),
        if_pos (List.prefix_append ..), List.drop_left]
    · rw [hget, if_pos (List.prefix_append ..)]
    · rw [hget, if_neg hop, if_neg hnp]
  · intro o n t' _ hrename
    have hgo : ¬(t.Has (components o) ∧ ¬t.Has (components n)) := by
      intro hgo
      have hdone : (TreeNode.rename t (components o) (components n)).1 = true := rename_fst.mpr hgo
      rw [hrename] at hdone
      cases hdone
    rw [rename_refused hgo] at hrename
    exact (Prod.mk.inj hrename).2.symm

/-- The path `/x` is reported as `/x` and not with a second slash. -/
theorem tree_node_leading_slash : ¬∀ (ops : List Operation) (name : Str),
    (ops.foldl Operation.apply (.node 0 [])).get (components name) ≠ 0 →
      (slash :: name, (ops.foldl Operation.apply (.node 0 [])).get (components name)) ∈
        TreeNode.result [] (ops.foldl Operation.apply (.node 0 [])) := by
  intro h
  have hmem := h [.set (str "/x") .CREATED Status.CREATED_ne_zero] (str "/x") (by decide)
  revert hmem
  decide

end Snapper.Btrfs
