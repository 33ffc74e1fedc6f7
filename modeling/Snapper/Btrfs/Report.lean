import Snapper.Btrfs.Faithful
import Snapper.Compare.Difference

/-!
# Checking and reporting the tree of statuses

After the stream every status that says "modified" is replaced by what a comparison of the two
files says, and every status that is left is reported.

## Main results

- `check_nodes`: `check` keeps the nodes and replaces their statuses
- `mem_result`: `result` reports the nodes with a status
-/

namespace Snapper

open General

/-- `status1 | status2` -/
def Status.or (s t : Status) : Status where
  created := s.created || t.created
  deleted := s.deleted || t.deleted
  type := s.type || t.type
  content := s.content || t.content
  permissions := s.permissions || t.permissions
  user := s.user || t.user
  group := s.group || t.group

/-- `SFile(dir, basename).stat` -/
def Tree.statBasename (dir : Tree) (name : Path) : Option Inode :=
  name.getLast?.bind fun basename => (dir.entries.lookup basename).map Tree.inode

namespace Btrfs

namespace TreeNode

/-- `tree_node::check` of one status; `none` is an `IOErrorException`. -/
def checkStatus (dir1 dir2 : DirTree) (name : Path) (status : Status) : Option Status :=
  let status := if status.created then .CREATED else status
  let status := if status.deleted then .DELETED else status
  if status.modified then do
    let subdir1 ← dir1.root.deepopen name.dropLast
    let subdir2 ← dir2.root.deepopen name.dropLast
    let compared ← cmpFilesAt (subdir1.statBasename name) (subdir2.statBasename name)
    some (Status.or
      { status with content := false, permissions := false, user := false, group := false }
      compared)
  else some status

mutual
/-- `tree_node::check` -/
def check (dir1 dir2 : DirTree) (pre : Path) : TreeNode → Option TreeNode
  | .node v childs => (checkChilds dir1 dir2 pre childs).map (Trie.node v)
def checkChilds (dir1 dir2 : DirTree) (pre : Path) :
    List (Name × Trie Name Status) → Option (List (Name × Trie Name Status))
  | [] => some []
  | (first, second) :: it => do
    let status ← checkStatus dir1 dir2 (pre ++ [first]) second.value
    let second ← check dir1 dir2 (pre ++ [first]) second
    let it ← checkChilds dir1 dir2 pre it
    some ((first, .node status second.childs) :: it)
end

/-- `first` alone below an empty prefix, else `prefix + "/" + first` -/
def below (pre : Str) (first : Name) : Str := if pre.isEmpty then first else pre ++ slash :: first

mutual
/-- The calls of the callback in `tree_node::result`. -/
def result (pre : Str) : TreeNode → List Report
  | .node _ childs => resultChilds pre childs
def resultChilds (pre : Str) : List (Name × Trie Name Status) → List Report
  | [] => []
  | (first, second) :: it =>
    (if second.value ≠ 0 then [(slash :: below pre first, second.value)] else []) ++
      result (below pre first) second ++ resultChilds pre it
end

/-! ## What is reported -/

/-- The text under which the node at a path is reported, less the first slash -/
def textBelow (pre : Str) (p : Path) : Str := p.foldl below pre

mutual
/-- The result lists the nodes that have a status, by their names, parent before child. -/
theorem result_eq (pre : Str) : (t : TreeNode) →
    result pre t = (t.nodes.filter fun e => e.2 ≠ 0).map fun e => (slash :: textBelow pre e.1, e.2)
  | .node _ cs => by
    rw [result, Trie.nodes]
    exact resultChilds_eq pre cs
/-- The same for a list of children, one after the other. -/
theorem resultChilds_eq (pre : Str) : (cs : List (Name × TreeNode)) →
    resultChilds pre cs =
      ((Trie.nodesOf cs).filter fun e => e.2 ≠ 0).map fun e => (slash :: textBelow pre e.1, e.2)
  | [] => by
    rw [resultChilds, Trie.nodesOf]
    rfl
  | (n, c) :: cs => by
    rw [resultChilds, Trie.nodesOf, result_eq, resultChilds_eq, List.cons_append, List.filter_cons,
      List.filter_append, List.filter_map]
    by_cases hv : c.value = 0
    · simp [hv, Function.comp_def, textBelow]
    · simp [hv, Function.comp_def, textBelow]
end

/-- Below a path that is not empty the names are joined with slashes. -/
theorem textBelow_append {pre : Str} (hpre : pre ≠ []) (p : Path) :
    textBelow pre p = pre ++ pathName p := by
  induction p generalizing pre with
  | nil => simp [textBelow]
  | cons n p ih =>
    have hbelow : below pre n = pre ++ slash :: n := by simp [below, hpre]
    show textBelow (below pre n) p = _
    rw [ih (by simp [hbelow]), hbelow]
    simp

/-- Without empty names this is the text that the comparison has. -/
theorem slash_textBelow {p : Path} (hp : p ≠ []) (hnames : ∀ n ∈ p, n ≠ []) :
    slash :: textBelow [] p = pathName p := by
  cases p with
  | nil => exact absurd rfl hp
  | cons n p =>
    have hn : n ≠ [] := hnames n List.mem_cons_self
    show slash :: textBelow n p = _
    rw [textBelow_append hn p, pathName_cons]

/-- The paths with a status are reported. -/
theorem mem_result {t : TreeNode} {name : Str} {status : Status} :
    (name, status) ∈ result [] t ↔
      ∃ p, (p, status) ∈ t.nodes ∧ status ≠ 0 ∧ name = slash :: textBelow [] p := by
  rw [result_eq, List.mem_map]
  constructor
  · intro ⟨⟨p, v⟩, hmem, heq⟩
    obtain ⟨hmem, hv⟩ := List.mem_filter.mp hmem
    cases heq
    exact ⟨p, hmem, by simpa using hv, rfl⟩
  · intro ⟨p, hmem, hv, hname⟩
    exact ⟨(p, status), List.mem_filter.mpr ⟨hmem, by simpa using hv⟩, by rw [hname]⟩

/-! ## What is checked -/

section CheckStatus

variable {dir1 dir2 : DirTree} {name : Path} {status : Status}

theorem checkStatus_created (h : status.created = true) :
    checkStatus dir1 dir2 name status = some .CREATED := by
  rw [checkStatus, if_pos h]
  rfl

theorem checkStatus_deleted (hc : status.created = false) (h : status.deleted = true) :
    checkStatus dir1 dir2 name status = some .DELETED := by
  rw [checkStatus, hc, if_neg Bool.false_ne_true, if_pos h]
  rfl

/-- A status without flags of its own becomes what the comparison says. -/
theorem checkStatus_modified (hc : status.created = false) (hd : status.deleted = false)
    (ht : status.type = false) (hm : status.modified = true) {subdir1 subdir2 : Tree}
    (h1 : dir1.root.deepopen name.dropLast = some subdir1)
    (h2 : dir2.root.deepopen name.dropLast = some subdir2) :
    checkStatus dir1 dir2 name status =
      cmpFilesAt (subdir1.statBasename name) (subdir2.statBasename name) := by
  rw [checkStatus, hc, if_neg Bool.false_ne_true, hd, if_neg Bool.false_ne_true, if_pos hm, h1, h2]
  show (cmpFilesAt _ _).bind _ = _
  cases cmpFilesAt (subdir1.statBasename name) (subdir2.statBasename name) with
  | none => rfl
  | some compared =>
    show some _ = some compared
    simp [Status.or, hc, hd, ht]

theorem checkStatus_zero : checkStatus dir1 dir2 name 0 = some 0 := rfl

end CheckStatus

variable {dir1 dir2 : DirTree} {g : Path → Status → Status}

mutual
/-- `check` replaces the statuses, when none of the comparisons fails. -/
theorem check_nodes (pre : Path) : (t : TreeNode) →
    (∀ e ∈ t.nodes, checkStatus dir1 dir2 (pre ++ e.1) e.2 = some (g (pre ++ e.1) e.2)) →
      ∃ t', check dir1 dir2 pre t = some t' ∧
        t'.nodes = t.nodes.map fun e => (e.1, g (pre ++ e.1) e.2)
  | .node v cs, h => by
    obtain ⟨cs', hcs, hnodes⟩ := checkChilds_nodes pre cs h
    exact ⟨.node v cs', by rw [check, hcs]; rfl, hnodes⟩
/-- Where every node passes the check, so do all children, and the result has the checked statuses
at the same paths. -/
theorem checkChilds_nodes (pre : Path) : (cs : List (Name × TreeNode)) →
    (∀ e ∈ Trie.nodesOf cs, checkStatus dir1 dir2 (pre ++ e.1) e.2 = some (g (pre ++ e.1) e.2)) →
      ∃ cs', checkChilds dir1 dir2 pre cs = some cs' ∧
        Trie.nodesOf cs' = (Trie.nodesOf cs).map fun e => (e.1, g (pre ++ e.1) e.2)
  | [], _ => ⟨[], by rw [checkChilds], rfl⟩
  | (n, c) :: cs, h => by
    rw [Trie.nodesOf, List.cons_append, List.forall_mem_cons] at h
    obtain ⟨hn, h⟩ := h
    have hc : ∀ e ∈ c.nodes, checkStatus dir1 dir2 (pre ++ [n] ++ e.1) e.2 =
        some (g (pre ++ [n] ++ e.1) e.2) := by
      intro e he
      have hbelow := h (n :: e.1, e.2) (List.mem_append_left _ (List.mem_map.mpr ⟨e, he, rfl⟩))
      rw [List.append_assoc]
      exact hbelow
    -- what is below the first child, then the other children
    obtain ⟨c', hc', hcnodes⟩ := check_nodes (pre ++ [n]) c hc
    obtain ⟨cs', hcs', hcsnodes⟩ :=
      checkChilds_nodes pre cs fun e he => h e (List.mem_append_right _ he)
    refine ⟨(n, .node (g (pre ++ [n]) c.value) c'.childs) :: cs', ?_, ?_⟩
    · rw [checkChilds, hn, hc', hcs']
      rfl
    · have hsame : (Trie.node (g (pre ++ [n]) c.value) c'.childs).nodes = c'.nodes := by
        rw [Trie.nodes_eq, Trie.nodes_eq]
        rfl
      rw [Trie.nodesOf, Trie.nodesOf, hsame, hcnodes, hcsnodes, List.cons_append, List.cons_append,
        List.map_cons, List.map_append, List.map_map, List.map_map]
      simp [Function.comp_def]
end

end TreeNode

end Btrfs

end Snapper
