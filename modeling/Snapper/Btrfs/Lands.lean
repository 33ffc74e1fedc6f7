import Mathlib.Data.List.MinMax
import Snapper.Btrfs.Merge

/-!
# Where a merge puts the nodes

A merge should put every node of the detached tree at its own path below the destination.  It does
so for the first level only: further down the destination stands in front once for every level.

## Main results

- `lands_of_shallow`: a tree with one level is put where it belongs
- `merge_lands_iff`: only such a tree is, whatever is pending
-/

namespace Snapper.Btrfs

open General

variable {s : StreamProcessor} {tmp : TreeNode} {dst : Path}

/-- Every node of the detached tree is at its own path below the destination, as a new node or as
one that is marked as modified, and no other status has changed. -/
structure Lands (s : StreamProcessor) (tmp : TreeNode) (dst : Path) : Prop where
  placed : ∀ e ∈ tmp.nodes, (s.merge tmp dst []).files.Has (dst ++ e.1) ∧
    (s.merge tmp dst []).files.get (dst ++ e.1) =
      if s.files.Has (dst ++ e.1) then (s.files.get (dst ++ e.1)).touched else e.2
  others : ∀ p, (∀ e ∈ tmp.nodes, p ≠ dst ++ e.1) →
    (s.merge tmp dst []).files.get p = s.files.get p

/-- A tree of one level -/
theorem lands_of_shallow (hord : tmp.Ordered) (hshallow : ∀ e ∈ tmp.nodes, e.1.length = 1) :
    Lands s tmp dst := by
  -- a path of one name lands right below the destination
  have hmarks : (tmp.nodes.map fun e => (landing dst e.1, e.2)) =
      tmp.nodes.map fun e => (dst ++ e.1, e.2) := by
    refine List.map_congr_left fun e he => ?_
    obtain ⟨n, hn⟩ := List.length_eq_one_iff.mp (hshallow e he)
    rw [hn, landing_singleton]
  have hfiles : (s.merge tmp dst []).files =
      (tmp.nodes.map fun e => (dst ++ e.1, e.2)).foldl (Trie.place Status.touched) s.files := by
    rw [merge_files_nil, hmarks]
  -- no mark is put above a later one, so each keeps its value
  have hpre : (tmp.nodes.map fun e => (dst ++ e.1, e.2)).Pairwise fun a b => ¬b.1 <+: a.1 := by
    rw [List.pairwise_map]
    exact (Trie.nodes_preorder hord).imp fun hab hpre =>
      hab ((List.prefix_append_right_inj dst).mp hpre)
  refine ⟨fun e he => ?_, fun p hp => ?_⟩
  · have hmem : (dst ++ e.1, e.2) ∈ tmp.nodes.map fun e => (dst ++ e.1, e.2) :=
      List.mem_map.mpr ⟨e, he, rfl⟩
    rw [hfiles]
    constructor
    · exact (Trie.has_foldl_place _ _ _).mpr (Or.inr ⟨_, hmem, List.prefix_rfl⟩)
    · exact Trie.get_foldl_place_preorder hpre hmem
  · rw [hfiles]
    refine Trie.get_foldl_place_other fun m hm heq => ?_
    obtain ⟨e, he, rfl⟩ := List.mem_map.mp hm
    exact hp e he heq.symm

/-- A node of the lowest level is put below all places where nodes belong. -/
theorem landing_ne_of_lowest (hdst : dst ≠ []) {w : Path} (hdeep : w.length ≠ 1) (hw : w ≠ [])
    (hlowest : ∀ e ∈ tmp.nodes, e.1.length ≤ w.length) {e : Path × Status} (he : e ∈ tmp.nodes) :
    landing dst w ≠ dst ++ e.1 := by
  intro heq
  have hlength := congrArg List.length heq
  rw [length_landing, List.length_append] at hlength
  have hpos := List.length_pos_of_ne_nil hw
  have hle := hlowest e he
  have htwice := Nat.mul_le_mul_right dst.length (show 2 ≤ w.length by omega)
  have hdstpos := List.length_pos_of_ne_nil hdst
  omega

/-- Where a node of the lowest level is put on another node, the status of that one changes. -/
theorem not_lands_of_lowest (hord : tmp.Ordered) (hdst : dst ≠ []) {e : Path × Status}
    (he : e ∈ tmp.nodes) (hdeep : e.1.length ≠ 1)
    (hlowest : ∀ e' ∈ tmp.nodes, e'.1.length ≤ e.1.length) (hhas : s.files.Has (landing dst e.1))
    (hchanges : (s.files.get (landing dst e.1)).touched ≠ s.files.get (landing dst e.1)) :
    ¬Lands s tmp dst := by
  intro h
  have hkept := h.others (landing dst e.1) fun e' he' =>
    landing_ne_of_lowest hdst hdeep (Trie.ne_nil_of_mem_nodes he) hlowest he'
  obtain ⟨before, after, hnodes⟩ := List.append_of_mem he
  have hmarks : (tmp.nodes.map fun e => (landing dst e.1, e.2)) =
      before.map (fun e => (landing dst e.1, e.2)) ++
        (landing dst e.1, e.2) :: after.map fun e => (landing dst e.1, e.2) := by
    rw [hnodes, List.map_append, List.map_cons]
  have hdist : (mergeMarks dst tmp).tail.Pairwise fun a b => a.1 ≠ b.1 :=
    (mergeMarks_distinct hord).tail
  rw [mergeMarks, List.tail_cons, hmarks] at hdist
  rw [merge_files_nil, hmarks, Trie.get_foldl_place hdist, if_neg fun hfresh => hfresh.1 hhas]
    at hkept
  exact hchanges hkept

def emptyDir : DirTree where
  root := dirOf []
  wf := dirOf_nil_wf
  isDir := dirOf_nil_fmt

/-- Pending statuses at two paths -/
def pendingAt (p q : Path) : StreamProcessor :=
  ((StreamProcessor.start emptyDir).insert p fun _ => .CREATED).insert q fun _ => .CREATED

theorem pendingAt_files (p q : Path) : (pendingAt p q).files =
    ((Trie.node 0 [] : TreeNode).putValue (fun _ => .CREATED) p).putValue (fun _ => .CREATED) q :=
  rfl

/-- A detached tree is put where it belongs in every tree of pending statuses exactly when it has
one level. -/
theorem merge_lands_iff (hord : tmp.Ordered) (hdst : dst ≠ []) :
    (∀ s : StreamProcessor, s.files.Has dst → Lands s tmp dst) ↔
      ∀ e ∈ tmp.nodes, e.1.length = 1 := by
  constructor
  · intro h e he
    by_contra hdeep
    have hpos := List.length_pos_of_ne_nil (Trie.ne_nil_of_mem_nodes he)
    -- a node of the lowest level, put on another node
    obtain ⟨low, hlow⟩ : ∃ low, low ∈ tmp.nodes.argmax fun e => e.1.length := by
      refine Option.ne_none_iff_exists'.mp fun hnone => ?_
      rw [List.argmax_eq_none.mp hnone] at he
      cases he
    have hmem := List.argmax_mem hlow
    have hmax : ∀ e' ∈ tmp.nodes, e'.1.length ≤ low.1.length := fun e' he' =>
      List.le_of_mem_argmax (f := fun e : Path × Status => e.1.length) he' hlow
    have hle := hmax e he
    refine not_lands_of_lowest (s := pendingAt dst (landing dst low.1)) hord hdst hmem (by omega)
      hmax ?_ ?_ (h _ ?_)
    · rw [pendingAt_files, Trie.has_putValue]
      exact Or.inr List.prefix_rfl
    · rw [pendingAt_files, Trie.get_putValue, if_pos rfl]
      decide
    · rw [pendingAt_files, Trie.has_putValue, Trie.has_putValue]
      exact Or.inl (Or.inr List.prefix_rfl)
  · intro hshallow s _
    exact lands_of_shallow hord hshallow

/-- The node `a`, and `a/b` if there is a second level -/
def renamedDir (second : Bool) : TreeNode :=
  .node 0 [(str "a", .node .CREATED (if second then [(str "b", .node .CREATED [])] else []))]

theorem renamedDir_ordered (second : Bool) : (renamedDir second).Ordered := by
  have hleaf : (Trie.node Status.CREATED [] : TreeNode).Ordered := .leaf Status.CREATED
  cases second with
  | false => exact (Trie.Ordered.leaf 0).setChild hleaf (str "a")
  | true => exact (Trie.Ordered.leaf 0).setChild (hleaf.setChild hleaf (str "b")) (str "a")

/-- A pending directory with one file in it is renamed to `d`, wherever that is known. -/
theorem merge_lands_iff_shallow : (renamedDir false).Ordered ∧
    ∀ s : StreamProcessor, s.files.Has [str "d"] → Lands s (renamedDir false) [str "d"] :=
  ⟨renamedDir_ordered false,
    (merge_lands_iff (renamedDir_ordered false) (by simp)).mpr (by decide)⟩

/-- The node `a/b` is not put at `d/a/b`. -/
theorem merge_misplaces : ¬∀ (s : StreamProcessor) (tmp : TreeNode) (dst : Path),
    tmp.Ordered → dst ≠ [] → s.files.Has dst → Lands s tmp dst := by
  intro h
  have hlands := h (pendingAt [str "d"] [str "d"]) (renamedDir true) [str "d"]
    (renamedDir_ordered true) (by simp) (by decide)
  have hplaced := (hlands.placed ([str "a", str "b"], .CREATED) (by decide)).1
  revert hplaced
  decide

end Snapper.Btrfs
