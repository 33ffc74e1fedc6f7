import Snapper.Btrfs.StreamProcessor

/-!
# Pending differences

A tree of statuses is a difference between the base tree and the tree that the commands have
reached so far, when the paths it marks as created and as deleted are those of only one of
the two.

## Main results

- `Faithful.no_node`: without a node, a path is in both trees or in none
- `Faithful.node_of_new`: a path only in the current tree has a node
-/

namespace Snapper

namespace Btrfs

open General

/-- The tree marks what is only in the current tree `T` as created, what is only in the base
tree `T₁` as deleted, and every node without a status has a child. -/
structure Faithful (T₁ T : DirTree) (files : TreeNode) : Prop where
  created_iff : ∀ p, p ≠ [] → ((files.get p).created = true ↔ T.Has p ∧ ¬T₁.Has p)
  deleted_iff : ∀ p, p ≠ [] → ((files.get p).deleted = true ↔ T₁.Has p ∧ ¬T.Has p)
  tidy : files.Tidy

namespace Faithful

variable {T₁ T : DirTree} {files : TreeNode}

/-- Without a node a path is in both trees or in none. -/
theorem no_node (h : Faithful T₁ T files) {p : Path} (hp : p ≠ []) (hno : ¬files.Has p) :
    T.Has p ↔ T₁.Has p := by
  have hzero := Trie.get_of_not_has hno
  have hcreated := h.created_iff p hp
  have hdeleted := h.deleted_iff p hp
  rw [hzero] at hcreated hdeleted
  simp only [Status.created_zero, Bool.false_eq_true, false_iff] at hcreated
  simp only [Status.deleted_zero, Bool.false_eq_true, false_iff] at hdeleted
  tauto

/-- A path only in the current tree has a node. -/
theorem node_of_new (h : Faithful T₁ T files) {p : Path} (hp : p ≠ []) (hT : T.Has p)
    (hT₁ : ¬T₁.Has p) : files.Has p := by
  by_contra hno
  exact hT₁ ((h.no_node hp hno).mp hT)

end Faithful

/-- Faithfulness, path by path. -/
theorem faithful_iff {T₁ T : DirTree} {files : TreeNode} :
    Faithful T₁ T files ↔ files.Tidy ∧ ∀ p, p ≠ [] →
      ((files.get p).created = true ↔ T.Has p ∧ ¬T₁.Has p) ∧
      ((files.get p).deleted = true ↔ T₁.Has p ∧ ¬T.Has p) :=
  ⟨fun h => ⟨h.tidy, fun p hp => ⟨h.created_iff p hp, h.deleted_iff p hp⟩⟩,
    fun h => ⟨fun p hp => (h.2 p hp).1, fun p hp => (h.2 p hp).2, h.1⟩⟩

theorem not_has_empty {p : Path} (hp : p ≠ []) : ¬(.node 0 [] : TreeNode).Has p := by
  match p, hp with
  | n :: p, _ =>
    intro hhas
    obtain ⟨c, hc, -⟩ := Trie.has_cons.mp hhas
    cases hc

/-- The empty tree of statuses is the difference of a tree to itself. -/
theorem faithful_empty (T : DirTree) : Faithful T T (.node 0 []) := by
  refine ⟨fun p hp => ?_, fun p hp => ?_, fun p hp hhas _ => absurd hhas (not_has_empty hp)⟩
  · rw [Trie.get_of_not_has (not_has_empty hp)]
    simp
  · rw [Trie.get_of_not_has (not_has_empty hp)]
    simp

/-- Every node is at a path of the current tree or of the base tree. -/
def Grounded (T₁ T : DirTree) (files : TreeNode) : Prop :=
  ∀ p, p ≠ [] → files.Has p → T.Has p ∨ T₁.Has p

/-- A directory with the entries given. -/
def dirOf (entries : List (Name × Tree)) : Tree :=
  .node { fmt := .dir, perm := 0o755, uid := 0, gid := 0, mtimeSec := 0, mtimeNsec := 0, size := 0,
          dev := 1, ino := 0, data := none } entries

theorem dirOf_nil_wf : (dirOf []).WF := by
  decide

theorem dirOf_nil_fmt : (dirOf []).inode.fmt = .dir := rfl

end Btrfs

end Snapper
