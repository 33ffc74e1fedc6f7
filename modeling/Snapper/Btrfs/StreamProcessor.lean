import Snapper.Compare.Entries
import Snapper.Compare.Status
import Snapper.General.TrieNodes

/-!
# The processing of a send stream

`tree_node` and the callbacks of `StreamProcessor`.  The tree holds a status for the paths that
the commands of the stream have touched so far; a path is the list of its names.

## Main results

- `created_files`, `deleted_files`, `rename_files`, `merge_files`: what the operations do to the
  tree, in terms of trees of marks
-/

namespace Snapper

open General

instance : Zero Status := ⟨Status.zero⟩

namespace Status

/-- `status &= ~(CREATED | DELETED); status |= CONTENT | PERMISSIONS | USER | GROUP` -/
def touched (s : Status) : Status :=
  { s with
    created := false, deleted := false
    content := true, permissions := true, user := true, group := true }

@[simp] theorem created_zero : (0 : Status).created = false := rfl

@[simp] theorem deleted_zero : (0 : Status).deleted = false := rfl

@[simp] theorem created_touched (s : Status) : s.touched.created = false := rfl

@[simp] theorem deleted_touched (s : Status) : s.touched.deleted = false := rfl

theorem touched_ne_zero (s : Status) : s.touched ≠ 0 := by
  intro h
  have hcontent := congrArg Status.content h
  exact absurd hcontent Bool.noConfusion

end Status

namespace Btrfs

/-! ## `tree_node` -/

/-- `tree_node`: a status, and the childs by their names. -/
abbrev TreeNode := Trie Name Status

namespace TreeNode

/-- `tree_node::rename`, for an `n` that is not below `o`. -/
def rename (t : TreeNode) (o n : Path) : Bool × TreeNode :=
  match t.find o with
  | none => (false, t)
  | some oo =>
    match t.find n with
    | some _ => (false, t)
    | none =>
      -- the new node gets the status and the childs, which the old one has no longer
      let t := (t.insert n).modify (fun _ => oo) n
      (true, (t.modify Trie.bare o).erase o)

end TreeNode

/-! ## `StreamProcessor` -/

/-- What `StreamProcessor` of `Btrfs.cc` keeps: the tree of the changes so far is ordered, so that
a path is found. -/
structure StreamProcessor where
  /-- the snapshot that the stream starts from -/
  dir1 : DirTree
  files : TreeNode
  ordered : files.Ordered

namespace StreamProcessor

/-- Before the first command. -/
def start (dir1 : DirTree) : StreamProcessor :=
  { dir1 := dir1, files := .node 0 [], ordered := .leaf 0 }

/-- Changes of the tree that keep its order. -/
def edit (s : StreamProcessor) (f : TreeNode → TreeNode)
    (hf : ∀ t : TreeNode, t.Ordered → (f t).Ordered) : StreamProcessor :=
  { s with files := f s.files, ordered := hf _ s.ordered }

/-- `files.insert(name)`, and a change of the status of the node it returns -/
def insert (s : StreamProcessor) (name : Path) (f : Status → Status) : StreamProcessor :=
  s.edit (fun t => t.putValue f name) fun _ ht => ht.putValue f name

/-- A change of the status of the node that `files.find(name)` has returned. -/
def setStatus (s : StreamProcessor) (name : Path) (f : Status → Status) : StreamProcessor :=
  s.edit (fun t => t.modify (Trie.mapValue f) name)
    fun _ ht => ht.modify (fun _ hc => hc.mapValue f) name

/-- What `created` and `merge` do at a path: a new node gets the status, one that is there is
marked as modified. -/
def put (s : StreamProcessor) (name : Path) (status : Status) : StreamProcessor :=
  match s.files.find name with
  | none => s.insert name fun _ => status
  | some _ => s.setStatus name Status.touched

/-- `StreamProcessor::created` -/
def created (s : StreamProcessor) (name : Path) : StreamProcessor := s.put name .CREATED

/-- `StreamProcessor::deleted`: what has been created in the stream is forgotten again. -/
def deleted (s : StreamProcessor) (name : Path) : StreamProcessor :=
  match s.files.find name with
  | none => s.insert name fun _ => .DELETED
  | some _ => s.edit (fun t => t.erase name) fun _ ht => ht.erase name

/-- `files.rename(o, n)` -/
def rename (s : StreamProcessor) (o n : Path) : StreamProcessor :=
  s.edit (fun t => (t.rename o n : Bool × TreeNode).2) fun t ht => by
    rw [TreeNode.rename]
    split
    · exact ht
    · next oo ho =>
      split
      · exact ht
      · exact ((ht.insert n).modify (fun _ _ => ht.find ho) n).detach o

mutual
/-- `merge`: the path of a child is built from `dst` and from the path of its parent. -/
def merge (s : StreamProcessor) (tmp : TreeNode) (dst pre : Path) : StreamProcessor :=
  match tmp with
  | .node _ childs => mergeChilds s childs dst pre
def mergeChilds (s : StreamProcessor) (childs : List (Name × Trie Name Status))
    (dst pre : Path) : StreamProcessor :=
  match childs with
  | [] => s
  | (first, second) :: it =>
    let x := if pre.isEmpty then dst ++ [first] else dst ++ pre ++ [first]
    mergeChilds (merge (s.put x second.value) second dst x) it dst pre
end

/-! ## The callbacks -/

def processMkfile (s : StreamProcessor) (path : Path) : StreamProcessor := s.created path

def processMkdir (s : StreamProcessor) (path : Path) : StreamProcessor := s.created path

def processSymlink (s : StreamProcessor) (path : Path) : StreamProcessor := s.created path

def processLink (s : StreamProcessor) (path : Path) : StreamProcessor := s.created path

def processUnlink (s : StreamProcessor) (path : Path) : StreamProcessor := s.deleted path

def processRmdir (s : StreamProcessor) (path : Path) : StreamProcessor := s.deleted path

/-- `process_write`, `process_clone`, `process_truncate` and `process_update_extent` -/
def processWrite (s : StreamProcessor) (path : Path) : StreamProcessor :=
  s.insert path fun status => { status with content := true }

def processChmod (s : StreamProcessor) (path : Path) : StreamProcessor :=
  s.insert path fun status => { status with permissions := true }

def processChown (s : StreamProcessor) (path : Path) : StreamProcessor :=
  s.insert path fun status => { status with user := true, group := true }

/-- `process_rename`; `none` is an `IOErrorException` of `SDir`. -/
def processRename (s : StreamProcessor) (src dst : Path) : Option StreamProcessor :=
  match s.files.find src with
  | none => do
    let s := (s.deleted src).created dst
    let tmpdir1 ← s.dir1.root.deepopen src.dropLast
    match src.getLast?.bind fun basename => tmpdir1.entries.lookup basename with
    | none => some s
    | some tmpdir2 =>
      if tmpdir2.isDir then
        some (tmpdir2.entriesRecursive.foldl
          (fun s e => (s.deleted (src ++ e)).created (dst ++ e)) s)
      else some s
  | some it1 =>
    match s.files.find dst with
    | none => some (s.rename src dst)
    | some _ =>
      let tmp : TreeNode := .node 0 it1.childs
      let s := s.edit (fun t => t.modify Trie.bare src) fun _ ht =>
        ht.modify (fun c _ => Trie.Ordered.bare c) src
      some (((s.deleted src).created dst).merge tmp dst [])

/-! ## What the operations do to the tree -/

variable {s : StreamProcessor}

@[simp] theorem created_dir1 (name : Path) : (s.created name).dir1 = s.dir1 := by
  rw [created, put]
  split <;> rfl

@[simp] theorem deleted_dir1 (name : Path) : (s.deleted name).dir1 = s.dir1 := by
  rw [deleted]
  split <;> rfl

/-- A status that is put is set at a new node and touches the status of an old one. -/
theorem put_files (name : Path) (status : Status) :
    (s.put name status).files = s.files.place Status.touched (name, status) := by
  rw [put, Trie.place]
  cases hname : s.files.find name with
  | none =>
    rw [if_neg (by simp [Trie.Has, hname])]
    rfl
  | some c =>
    rw [if_pos (Trie.has_iff.mpr ⟨c, hname⟩)]
    rfl

theorem created_files (name : Path) :
    (s.created name).files = s.files.place Status.touched (name, .CREATED) :=
  put_files name .CREATED

theorem deleted_of_has {name : Path} (h : s.files.Has name) :
    (s.deleted name).files = s.files.erase name := by
  obtain ⟨c, hc⟩ := Trie.has_iff.mp h
  rw [deleted, hc]
  rfl

theorem deleted_of_not_has {name : Path} (h : ¬s.files.Has name) :
    (s.deleted name).files = s.files.place Status.touched (name, .DELETED) := by
  have hnone : s.files.find name = none := Option.not_isSome_iff_eq_none.mp h
  rw [deleted, hnone, Trie.place, if_neg h]
  rfl

theorem rename_files {o n : Path} {oo : TreeNode} (ho : s.files.find o = some oo)
    (hn : ¬s.files.Has n) : (s.rename o n).files = (s.files.graft n oo).detach o := by
  have hnone : s.files.find n = none := Option.not_isSome_iff_eq_none.mp hn
  show (TreeNode.rename s.files o n).2 = _
  rw [TreeNode.rename, ho, hnone]
  rfl

/-- Where `merge` puts the node at `w` below one whose path it has built as `pre`: every level
has `dst` in front once more. -/
def landingFrom (dst pre w : Path) : Path := (List.replicate w.length dst).flatten ++ pre ++ w

theorem landingFrom_cons (dst pre : Path) (n : Name) (w : Path) :
    landingFrom dst pre (n :: w) = landingFrom dst (dst ++ pre ++ [n]) w := by
  have hcomm : dst ++ (List.replicate w.length dst).flatten =
      (List.replicate w.length dst).flatten ++ dst := by
    rw [← List.flatten_cons, ← List.replicate_succ, List.replicate_succ', List.flatten_concat]
  simp only [landingFrom, List.length_cons, List.replicate_succ, List.flatten_cons, hcomm,
    List.append_assoc, List.cons_append, List.nil_append]

mutual
/-- `merge` puts the nodes of the detached tree in the order of its walk. -/
theorem merge_files (s : StreamProcessor) (dst pre : Path) : (tmp : TreeNode) →
    (s.merge tmp dst pre).files =
      (tmp.nodes.map fun e => (landingFrom dst pre e.1, e.2)).foldl (Trie.place Status.touched)
        s.files
  | .node _ cs => by
    rw [merge, Trie.nodes]
    exact mergeChilds_files s dst pre cs
/-- Merging is putting the status of each node, in the order of the tree, at the place where it
lands. -/
theorem mergeChilds_files (s : StreamProcessor) (dst pre : Path) : (cs : List (Name × TreeNode)) →
    (s.mergeChilds cs dst pre).files =
      ((Trie.nodesOf cs).map fun e => (landingFrom dst pre e.1, e.2)).foldl
        (Trie.place Status.touched) s.files
  | [] => by
    rw [mergeChilds, Trie.nodesOf]
    rfl
  | (n, c) :: cs => by
    -- the source joins the texts with a slash only where there is a prefix
    have hx : (if pre.isEmpty then dst ++ [n] else dst ++ pre ++ [n]) = dst ++ pre ++ [n] := by
      cases pre <;> simp
    have hland : landingFrom dst pre [n] = dst ++ pre ++ [n] := by
      rw [landingFrom_cons]
      simp [landingFrom]
    rw [mergeChilds, hx, mergeChilds_files, merge_files, put_files, Trie.nodesOf, List.cons_append,
      List.map_cons, List.map_append, List.foldl_cons, List.foldl_append, List.map_map, hland]
    congr 2
    apply List.map_congr_left
    intro e _
    show (_, _) = (_, _)
    rw [landingFrom_cons]
end

end StreamProcessor

end Btrfs

end Snapper
