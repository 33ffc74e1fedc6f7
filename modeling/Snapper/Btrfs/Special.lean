import Snapper.Btrfs.FastPath
import Snapper.Btrfs.Renamed

/-!
# Special files, renames and the marks of a stream

All commands of a stream, the special files and the renames included.  A path that is marked as
created or as deleted should be one of the base tree or of the current tree.  The callbacks of
`mknod`, `mkfifo` and `mksock` do nothing, so that the removal or the rename of a file that they
have made marks a path that neither tree has; and a rename takes marks to paths that neither has.

## Main results

- `noPhantom_no_node_iff`, `noPhantom_move_iff`, `noPhantom_merged_iff`: the branches of a rename
- `AnyCommand.noPhantom`: a command that meets the condition puts no such mark
- `Moves.rename_known_iff`: for a rename to a new name the condition is exact
-/

namespace Snapper.Btrfs

open General

variable {T₁ T T' : DirTree} {src dst p : Path} {files files' node : TreeNode}

/-! ## The other callbacks -/

namespace StreamProcessor

def processMknod (s : StreamProcessor) (_path : Path) : StreamProcessor := s

def processMkfifo (s : StreamProcessor) (_path : Path) : StreamProcessor := s

def processMksock (s : StreamProcessor) (_path : Path) : StreamProcessor := s

/-- `process_set_xattr` and `process_remove_xattr` -/
def processXattr (s : StreamProcessor) (_path : Path) : StreamProcessor := s

def processUtimes (s : StreamProcessor) (_path : Path) : StreamProcessor := s

end StreamProcessor

/-- `T'` is `T` with the file at `src`, and everything below it, moved to `dst`.  What is at `dst`
already has nothing below it, and is gone then. -/
structure Moves (T T' : DirTree) (src dst : Path) : Prop where
  exists_src : T.Has src
  bare_dst : ∀ n, ¬T.Has (dst ++ [n])
  parent_dst : ∃ d, T.root.find dst.dropLast = some d ∧ d.isDir
  not_below : ¬src <+: dst
  has_iff : ∀ p, T'.Has p ↔ (∃ r, p = dst ++ r ∧ T.Has (src ++ r)) ∨ (T.Has p ∧ ¬src <+: p)

/-- All commands that speak about files. -/
inductive AnyCommand where
  | plain (command : Command)
  | mknod (path : Path)
  | mkfifo (path : Path)
  | mksock (path : Path)
  | rename (src dst : Path)
  | setXattr (path : Path)
  | removeXattr (path : Path)
  | utimes (path : Path)

namespace AnyCommand

/-- What a command does to the tree, which has no extended attributes. -/
def Step (T T' : DirTree) : AnyCommand → Prop
  | plain c => c.Step T T'
  | mknod p => ∃ i, Creates T T' p i ∧ (i.fmt = .chr ∨ i.fmt = .blk)
  | mkfifo p => ∃ i, Creates T T' p i ∧ i.fmt = .fifo
  | mksock p => ∃ i, Creates T T' p i ∧ i.fmt = .sock
  | rename src dst => Moves T T' src dst
  | setXattr p | removeXattr p => T.Has p ∧ ∀ q, KeptAt T T' q
  | utimes p => ∃ i, Alters T T' p i fun j j' =>
      j' = { j with mtimeSec := j'.mtimeSec, mtimeNsec := j'.mtimeNsec }

/-- The callback of a command; `none` is an exception. -/
def process (s : StreamProcessor) : AnyCommand → Option StreamProcessor
  | plain c => some (c.process s)
  | mknod p => some (s.processMknod p)
  | mkfifo p => some (s.processMkfifo p)
  | mksock p => some (s.processMksock p)
  | rename src dst => s.processRename src dst
  | setXattr p | removeXattr p => some (s.processXattr p)
  | utimes p => some (s.processUtimes p)

end AnyCommand

/-! ## Marks -/

/-- Every path that is marked as created or as deleted is in one of the two trees. -/
structure NoPhantom (T₁ T : DirTree) (files : TreeNode) : Prop where
  exists_of_mark : ∀ p, (files.get p).createdOrDeleted = true → T₁.Has p ∨ T.Has p
  no_type : ∀ p, (files.get p).type = false

@[simp] theorem createdOrDeleted_zero : (0 : Status).createdOrDeleted = false := rfl

/-- A processor that has noted nothing has no mark at a wrong place. -/
theorem noPhantom_empty : NoPhantom T₁ T (.node 0 []) := by
  have hget (p : Path) : (Trie.node 0 [] : TreeNode).get p = 0 := by
    cases p with
    | nil => rfl
    | cons n p => exact Trie.get_of_not_has (not_has_empty (List.cons_ne_nil n p))
  constructor
  · intro p hmark
    rw [hget p] at hmark
    cases hmark
  · intro p
    rw [hget p]
    rfl

namespace NoPhantom

/-- What a command has to do right that changes one path. -/
theorem update_iff (h : NoPhantom T₁ T files) (hrest : ∀ q, q ≠ p → files'.get q = files.get q)
    (hother : ∀ q, q ≠ p → (T'.Has q ↔ T.Has q)) (htype : (files'.get p).type = false) :
    NoPhantom T₁ T' files' ↔
      ((files'.get p).createdOrDeleted = true → T₁.Has p ∨ T'.Has p) := by
  constructor
  · intro h'
    exact h'.exists_of_mark p
  · intro hp
    constructor
    · intro q hmark
      -- at other paths neither the marks nor the tree have changed
      by_cases hqp : q = p
      · subst hqp
        exact hp hmark
      · rw [hrest q hqp] at hmark
        exact (h.exists_of_mark q hmark).imp_right (hother q hqp).mpr
    · intro q
      by_cases hqp : q = p
      · exact hqp ▸ htype
      · rw [hrest q hqp]
        exact h.no_type q

/-- Where every path is kept the marks are as good as before. -/
theorem of_has_iff (h : NoPhantom T₁ T files) (hsame : ∀ q, T'.Has q ↔ T.Has q) :
    NoPhantom T₁ T' files :=
  ⟨fun q hmark => (h.exists_of_mark q hmark).imp_right (hsame q).mpr, h.no_type⟩

/-- The mark of a creation is at a path that the new tree has. -/
theorem created {s : StreamProcessor} (h : NoPhantom T₁ T s.files) {i : Inode}
    (hc : Creates T T' p i) : NoPhantom T₁ T' (s.created (textPath p)).files := by
  have hp : p ≠ [] := by
    rintro rfl
    exact hc.free T.has_nil
  rw [textPath_of_ne hp, StreamProcessor.created_files]
  refine (h.update_iff (p := p) (fun q hq => ?_) (fun q hq => (hc.others q hq).has_iff) ?_).mpr ?_
  · rw [Trie.get_place, if_neg hq]
  · rw [Trie.get_place, if_pos rfl]
    split_ifs
    · exact h.no_type p
    · rfl
  · exact fun _ => Or.inr (DirTree.has_iff_lookup.mpr ⟨i, hc.new⟩)

/-- A file that nothing was noted for and that the base does not have is marked as deleted. -/
theorem deleted_iff {s : StreamProcessor} (h : NoPhantom T₁ T s.files) {i : Inode}
    (hr : Removes T T' p i) :
    NoPhantom T₁ T' (s.deleted (textPath p)).files ↔ s.files.Has p ∨ T₁.Has p := by
  have hp : p ≠ [] := by
    rintro rfl
    exact hr.gone T'.has_nil
  have hother (q : Path) (hq : q ≠ p) : T'.Has q ↔ T.Has q := (hr.others q hq).has_iff
  rw [textPath_of_ne hp]
  -- a node is forgotten; where there is none, the mark is put
  by_cases hhas : s.files.Has p
  · have hself : (s.files.erase p).get p = 0 := by rw [Trie.get_erase _ hp, if_pos rfl]
    rw [StreamProcessor.deleted_of_has hhas]
    refine (h.update_iff (fun q hq => ?_) hother ?_).trans ?_
    · rw [Trie.get_erase _ hp, if_neg hq]
    · rw [hself]
      rfl
    · simp [hself, hhas]
  · have hself : (s.files.place Status.touched (p, .DELETED)).get p = .DELETED := by
      rw [Trie.get_place, if_pos rfl, if_neg hhas]
    rw [StreamProcessor.deleted_of_not_has hhas]
    refine (h.update_iff (p := p) (fun q hq => ?_) hother ?_).trans ?_
    · rw [Trie.get_place, if_neg hq]
    · rw [hself]
      rfl
    · rw [hself]
      simp [hhas, hr.gone, Status.DELETED, Status.createdOrDeleted]

/-- A command that marks something and leaves the paths of the tree puts no phantom if its mark is
none of a creation or a deletion. -/
theorem inserted {s : StreamProcessor} (h : NoPhantom T₁ T s.files)
    (hsame : ∀ q, T'.Has q ↔ T.Has q) {f : Status → Status} (hf : Marking f) (q : Path) :
    NoPhantom T₁ T' (s.insert q f).files := by
  show NoPhantom T₁ T' (s.files.putValue f q)
  refine (h.update_iff (p := q) (fun r hr => ?_) (fun r _ => hsame r) ?_).mpr ?_
  · rw [Trie.get_putValue, if_neg hr]
  · rw [Trie.get_putValue, if_pos rfl, hf.type]
    exact h.no_type q
  · rw [Trie.get_putValue, if_pos rfl, Status.createdOrDeleted, hf.created, hf.deleted]
    exact fun hmark => (h.exists_of_mark q hmark).imp_right (hsame q).mpr

end NoPhantom

/-! ## Renames -/

namespace Moves

/-- The source is not below what it replaces. -/
theorem apart (h : Moves T T' src dst) : Apart src dst where
  not_below := h.not_below
  not_above := by
    intro hpre
    obtain ⟨r, hr⟩ := hpre
    cases r with
    | nil => exact h.not_below (by rw [← hr, List.append_nil])
    | cons n r =>
      have hhas : T.Has ((dst ++ [n]) ++ r) := by
        rw [List.append_assoc]
        exact hr.symm ▸ h.exists_src
      exact h.bare_dst n hhas.above

theorem not_has_src (h : Moves T T' src dst) (r : Path) : ¬T'.Has (src ++ r) := by
  rw [h.has_iff]
  intro hhas
  obtain ⟨q, hq, -⟩ | ⟨-, hnot⟩ := hhas
  · exact h.apart.disjoint ⟨q, hq.symm⟩ (List.prefix_append src r)
  · exact hnot (List.prefix_append src r)

/-- A move leaves every path alone that is below neither name. -/
theorem has_other (h : Moves T T' src dst) (hsrc : ¬src <+: p) (hdst : ¬dst <+: p) :
    T'.Has p ↔ T.Has p := by
  rw [h.has_iff]
  constructor
  · intro hhas
    obtain ⟨q, rfl, -⟩ | ⟨hT, -⟩ := hhas
    · exact absurd (List.prefix_append dst q) hdst
    · exact hT
  · intro hT
    exact Or.inr ⟨hT, hsrc⟩

/-- There is still something at the destination. -/
theorem has_dst_of_has (h : Moves T T' src dst) (r : Path) (hT : T.Has (dst ++ r)) :
    T'.Has (dst ++ r) :=
  (h.has_iff _).mpr (Or.inr ⟨hT, h.apart.disjoint (List.prefix_append dst r)⟩)

/-- What a rename has to do right. -/
theorem noPhantom_iff (h : Moves T T' src dst) (hno : NoPhantom T₁ T files)
    (hother : ∀ p, ¬src <+: p → ¬dst <+: p → files'.get p = files.get p)
    (htype : ∀ p, (files'.get p).type = false) :
    NoPhantom T₁ T' files' ↔
      (∀ r, (files'.get (src ++ r)).createdOrDeleted = true → T₁.Has (src ++ r)) ∧
      ∀ r, (files'.get (dst ++ r)).createdOrDeleted = true →
        T₁.Has (dst ++ r) ∨ T'.Has (dst ++ r) := by
  constructor
  · intro h'
    refine ⟨fun r hmark => ?_, fun r => h'.exists_of_mark _⟩
    exact (h'.exists_of_mark _ hmark).resolve_right (h.not_has_src r)
  · intro ⟨hatsrc, hatdst⟩
    refine ⟨fun p hmark => ?_, htype⟩
    -- below the source only the base tree can have it, below the destination either tree
    by_cases hps : src <+: p
    · obtain ⟨r, rfl⟩ := hps
      exact Or.inl (hatsrc r hmark)
    · by_cases hpd : dst <+: p
      · obtain ⟨r, rfl⟩ := hpd
        exact hatdst r hmark
      · rw [hother p hps hpd] at hmark
        exact (hno.exists_of_mark p hmark).imp_right (h.has_other hps hpd).mpr

/-- A status of the destination that stays. -/
theorem kept_dst (h : Moves T T' src dst) (hno : NoPhantom T₁ T files) (r : Path)
    (hmark : (files.get (dst ++ r)).createdOrDeleted = true) :
    T₁.Has (dst ++ r) ∨ T'.Has (dst ++ r) :=
  (hno.exists_of_mark _ hmark).imp_right (h.has_dst_of_has r)

end Moves

section Rename

variable {s s' : StreamProcessor}

/-- The source has no node and is not in the base tree: it is marked as deleted. -/
theorem not_noPhantom_unknown (h : Moves T T' src dst) (hno : ¬s.files.Has src)
    (hbase : ¬s.dir1.Has src) (hrun : s.processRename src dst = some s') :
    ¬NoPhantom s.dir1 T' s'.files := by
  have hnone : s.files.find src = none := Option.not_isSome_iff_eq_none.mp hno
  -- the walk through the base tree does not come to the source
  have hfiles : s'.files = ((s.deleted src).created dst).files := by
    rw [StreamProcessor.processRename, hnone] at hrun
    dsimp only at hrun
    obtain ⟨d, hd, hrun⟩ := Option.bind_eq_some_iff.mp hrun
    rw [StreamProcessor.created_dir1, StreamProcessor.deleted_dir1] at hd
    split at hrun
    · cases hrun
      rfl
    · next t ht =>
      obtain ⟨basename, hlast, ht⟩ := Option.bind_eq_some_iff.mp ht
      exact absurd (DirTree.has_of_basename hd hlast ht) hbase
  have hne : src ≠ dst := by
    rintro rfl
    exact h.not_below List.prefix_rfl
  have hmark : s'.files.get src = .DELETED := by
    rw [hfiles, StreamProcessor.created_files, StreamProcessor.deleted_of_not_has hno,
      Trie.get_place, if_neg hne, Trie.get_place, if_pos rfl, if_neg hno]
  intro h'
  obtain hhas | hhas := h'.exists_of_mark src (by rw [hmark]; rfl)
  · exact hbase hhas
  · exact h.not_has_src [] (by rwa [List.append_nil])

/-- The source has no node and is in the base tree. -/
theorem noPhantom_no_node_iff (h : Moves T T' src dst) (hs : NoPhantom s.dir1 T s.files)
    (hno : s.files.find src = none) (hbase : s.dir1.Has src)
    (hrun : s.processRename src dst = some s') :
    NoPhantom s.dir1 T' s'.files ↔ ∀ r, s.dir1.Has (src ++ r) → ¬s.files.Has (dst ++ r) →
      s.dir1.Has (dst ++ r) ∨ T'.Has (dst ++ r) := by
  have hnone : ¬s.files.Has src := by simp [Trie.Has, hno]
  have hbelow (r : Path) : ¬s.files.Has (src ++ r) := fun hhas => hnone hhas.above
  have hdisj : ∀ p, dst <+: p → ¬src <+: p := fun _ => h.apart.disjoint
  -- without a node every path of the base below `src` is moved one by one
  have hfiles : s'.files = moved s.dir1 src dst s.files := by
    rw [processRename_no_node hbase h.apart.src_ne_nil hno] at hrun
    rw [← Option.some.inj hrun]
    exact foldl_moveEntry (s.dir1.subtree_preorder src) hdisj fun e _ => hbelow e
  have htype : ∀ p, (s'.files.get p).type = false := by
    rw [hfiles]
    refine Trie.forall_get_foldl_place (P := fun status : Status => status.type = false)
      (fun _ hv => hv) (fun m hm => ?_) hs.no_type
    obtain ⟨r, -, rfl | rfl⟩ := (mem_moveMarks hbase).mp hm <;> rfl
  rw [h.noPhantom_iff hs (fun p hps hpd => ?_) htype, hfiles]
  · constructor
    -- a path that had no node at `dst` is marked as created there
    · intro h' r hr hfree
      obtain ⟨-, hatdst⟩ := h'
      refine hatdst r ?_
      rw [get_moved_dst hbase hdisj, if_pos hr, if_neg hfree]
      rfl
    · intro hknown
      refine ⟨fun r hmark => ?_, fun r hmark => ?_⟩
      · rw [get_moved_src hbase hdisj (hbelow r)] at hmark
        split_ifs at hmark with hr
        · exact hr
        · cases hmark
      · rw [get_moved_dst hbase hdisj] at hmark
        split_ifs at hmark with hr hhas
        · cases hmark
        · exact hknown r hr hhas
        · exact h.kept_dst hs r hmark
  · rw [hfiles]
    exact get_moved_other hbase fun r _ =>
      ⟨fun heq => hps ⟨r, heq.symm⟩, fun heq => hpd ⟨r, heq.symm⟩⟩

/-- The node of the source is moved with all its marks. -/
theorem noPhantom_move_iff (h : Moves T T' src dst) (hs : NoPhantom T₁ T files)
    (hnode : files.find src = some node) :
    NoPhantom T₁ T' ((files.graft dst node).detach src) ↔
      ∀ r, (files.get (src ++ r)).createdOrDeleted = true →
        T₁.Has (dst ++ r) ∨ T'.Has (dst ++ r) := by
  have htype (p : Path) : (((files.graft dst node).detach src).get p).type = false := by
    by_cases hps : src <+: p
    · obtain ⟨r, rfl⟩ := hps
      rw [get_move_src h.apart]
      rfl
    · by_cases hpd : dst <+: p
      · obtain ⟨r, rfl⟩ := hpd
        rw [get_move_dst h.apart hnode]
        exact hs.no_type _
      · rw [get_move_other h.apart hps hpd]
        exact hs.no_type p
  rw [h.noPhantom_iff hs (fun _ => get_move_other h.apart) htype]
  simp only [get_move_src h.apart, get_move_dst h.apart hnode, createdOrDeleted_zero,
    Bool.false_eq_true, false_implies, implies_true, true_and]

/-- The nodes of the source are put where `merge` puts them. -/
theorem noPhantom_merged_iff (h : Moves T T' src dst) (hs : NoPhantom T₁ T files)
    (hord : node.Ordered) (hnode : files.find src = some node) (hdst : files.Has dst) :
    NoPhantom T₁ T' (merged src dst files node) ↔ ∀ before w status after,
      node.nodes = before ++ (w, status) :: after → Unmet files dst before w →
        status.createdOrDeleted = true → T₁.Has (landing dst w) ∨ T'.Has (landing dst w) := by
  have htype : ∀ p, ((merged src dst files node).get p).type = false := by
    refine Trie.forall_get_foldl_place (P := fun status : Status => status.type = false)
      (fun _ hv => hv) (fun m hm => ?_) fun p => ?_
    · obtain rfl | hm := List.mem_cons.mp hm
      · rfl
      · obtain ⟨⟨w, status⟩, he, rfl⟩ := List.mem_map.mp hm
        obtain ⟨-, -, rfl⟩ := (mem_nodes_src hord hnode).mp he
        exact hs.no_type _
    · rw [Trie.get_detach _ h.apart.src_ne_nil]
      split_ifs
      · rfl
      · exact hs.no_type p
  rw [h.noPhantom_iff hs (fun _ => get_merged_far h.apart) htype]
  constructor
  · intro ⟨_, hatdst⟩ before w status after hnodes hunmet hmark
    have hmem : (w, status) ∈ node.nodes := by simp [hnodes]
    obtain ⟨r, hr⟩ : dst <+: landing dst w := prefix_landing (Trie.ne_nil_of_mem_nodes hmem)
    rw [← hr]
    refine hatdst r ?_
    rw [hr, get_merged_landing h.apart hord hnodes, if_pos hunmet]
    exact hmark
  · intro hknown
    refine ⟨fun r hmark => ?_, fun r hmark => ?_⟩
    · rw [get_merged_src h.apart] at hmark
      cases hmark
    -- the path was written by the merge, or it has the status it had
    · by_cases hput : ∃ e ∈ node.nodes, dst ++ r = landing dst e.1
      · obtain ⟨⟨w, status⟩, hmem, hr⟩ := hput
        obtain ⟨before, after, hnodes⟩ := List.append_of_mem hmem
        simp only at hr
        rw [hr, get_merged_landing h.apart hord hnodes] at hmark
        rw [hr]
        split_ifs at hmark with hunmet
        · exact hknown before w status after hnodes hunmet hmark
        · cases hmark
      · push Not at hput
        by_cases hnil : r = []
        · subst hnil
          rw [List.append_nil, get_merged_dst h.apart hord hdst] at hmark
          cases hmark
        · have hother : dst ++ r ≠ dst ∧ ∀ e ∈ node.nodes, dst ++ r ≠ landing dst e.1 :=
            ⟨by simp [hnil], hput⟩
          rw [get_merged_other hother, get_detach_dst h.apart] at hmark
          exact h.kept_dst hs r hmark

end Rename

/-! ## One command -/

/-- What a rename needs of the two trees and of the statuses before it.

Without a node the source is one of the base tree, which the special files are not, and all that
the base has below it is still there, though the statuses would not say otherwise.  A node is moved
with the marks below it, so that none of them may stand for something that is gone: a pending
deletion would be taken to the new name.  And where a node at the destination is merged with it,
only the files that are directly in the source may have marks, for `merge` takes those of deeper
ones elsewhere; a mark is dropped if there is a node for its new name. -/
def RenameKnown (T : DirTree) (s : StreamProcessor) (src dst : Path) : Prop :=
  match s.files.find src with
  | none =>
    -- without the directory of the source the stream is given up
    (s.dir1.root.deepopen src.dropLast).isSome →
      s.dir1.Has src ∧ ∀ r, s.dir1.Has (src ++ r) → T.Has (src ++ r)
  | some node =>
    if s.files.Has dst then
      ∀ e ∈ node.nodes, e.2.createdOrDeleted = true →
        ∃ n, e.1 = [n] ∧ (s.files.Has (dst ++ [n]) ∨ T.Has (src ++ [n]))
    else
      ∀ r, (s.files.get (src ++ r)).createdOrDeleted = true → T.Has (src ++ r)

/-- What a removal needs: something was noted for the path, or the base tree has it. -/
def Command.Known (s : StreamProcessor) : Command → Prop
  | unlink p | rmdir p => s.files.Has p ∨ s.dir1.Has p
  | mkfile _ | mkdir _ | symlink _ _ | link _ _ | write _ | clone _ | truncate _ | updateExtent _
  | chmod _ _ | chown _ _ _ => True

/-- What a command needs of the current tree and of the processor before it. -/
def AnyCommand.Known (T : DirTree) (s : StreamProcessor) : AnyCommand → Prop
  | plain c => c.Known s
  | rename src dst => RenameKnown T s src dst
  | mknod _ | mkfifo _ | mksock _ | setXattr _ | removeXattr _ | utimes _ => True

section Step

variable {s s' : StreamProcessor}

/-- What was below the source is below the destination. -/
theorem Moves.has_dst (h : Moves T T' src dst) {r : Path} (hr : T.Has (src ++ r)) :
    T'.Has (dst ++ r) :=
  (h.has_iff _).mpr (Or.inl ⟨r, rfl, hr⟩)

/-- And nothing else is. -/
theorem Moves.has_dst_iff (h : Moves T T' src dst) (r : Path) :
    T'.Has (dst ++ r) ↔ T.Has (src ++ r) := by
  refine ⟨fun hhas => ?_, h.has_dst⟩
  obtain ⟨q, hq, hT⟩ | ⟨hT, -⟩ := (h.has_iff _).mp hhas
  · obtain rfl := List.append_cancel_left hq
    exact hT
  · cases r with
    | nil =>
      -- what was at the destination itself was replaced
      rw [List.append_nil]
      exact h.exists_src
    | cons n r =>
      have hbelow : T.Has ((dst ++ [n]) ++ r) := by rwa [List.append_assoc]
      exact absurd hbelow.above (h.bare_dst n)

/-- The run got past opening the parent in the base. -/
theorem opened_of_processRename (hnode : s.files.find src = none)
    (hrun : s.processRename src dst = some s') : (s.dir1.root.deepopen src.dropLast).isSome := by
  rw [StreamProcessor.processRename, hnode] at hrun
  obtain ⟨d, hd, -⟩ := Option.bind_eq_some_iff.mp hrun
  rw [StreamProcessor.created_dir1, StreamProcessor.deleted_dir1] at hd
  rw [hd]
  rfl

/-- A rename that meets its condition puts no mark at a path of neither tree. -/
theorem Moves.rename_noPhantom (h : Moves T T' src dst) (hs : NoPhantom s.dir1 T s.files)
    (hknown : RenameKnown T s src dst) (hrun : s.processRename src dst = some s') :
    NoPhantom s.dir1 T' s'.files := by
  rw [RenameKnown] at hknown
  cases hnode : s.files.find src with
  | none =>
    rw [hnode] at hknown
    obtain ⟨hbase, hstill⟩ := hknown (opened_of_processRename hnode hrun)
    refine (noPhantom_no_node_iff h hs hnode hbase hrun).mpr fun r hr _ => ?_
    exact Or.inr (h.has_dst (hstill r hr))
  | some node =>
    rw [hnode] at hknown
    dsimp only at hknown
    -- a node at the destination is merged with the one that is moved
    split_ifs at hknown with hdst
    · obtain ⟨s'', hrun', hfiles⟩ := processRename_merge hnode hdst
      obtain rfl := Option.some.inj (hrun.symm.trans hrun')
      rw [hfiles]
      refine (noPhantom_merged_iff h hs (s.ordered.find hnode) hnode hdst).mpr ?_
      intro before w status after hnodes hunmet hmark
      obtain ⟨n, rfl, hmet | hstill⟩ := hknown (w, status) (by simp [hnodes]) hmark
      · -- the mark is dropped
        rw [← landing_singleton] at hmet
        exact absurd hmet hunmet.1
      · rw [landing_singleton]
        exact Or.inr (h.has_dst hstill)
    · obtain ⟨s'', hrun', hfiles⟩ := processRename_move hnode hdst
      obtain rfl := Option.some.inj (hrun.symm.trans hrun')
      rw [hfiles]
      exact (noPhantom_move_iff h hs hnode).mpr fun r hmark => Or.inr (h.has_dst (hknown r hmark))

/-- Where neither the base tree nor the statuses know the new name, every other rename marks a
path that neither tree has. -/
theorem Moves.rename_known_iff (h : Moves T T' src dst) (hs : NoPhantom s.dir1 T s.files)
    (hbase : ¬s.dir1.Has dst) (hno : ¬s.files.Has dst)
    (hrun : s.processRename src dst = some s') :
    NoPhantom s.dir1 T' s'.files ↔ RenameKnown T s src dst := by
  refine ⟨fun h' => ?_, fun hknown => h.rename_noPhantom hs hknown hrun⟩
  -- the base tree has nothing at the destination, so the new tree must have it
  have hfree : ∀ r, ¬s.dir1.Has (dst ++ r) := fun r hhas => hbase hhas.above
  rw [RenameKnown]
  cases hnode : s.files.find src with
  | none =>
    dsimp only
    intro _
    by_cases hsrc : s.dir1.Has src
    · refine ⟨hsrc, fun r hr => ?_⟩
      have hnew : ¬s.files.Has (dst ++ r) := fun hhas => hno hhas.above
      have hfound := (noPhantom_no_node_iff h hs hnode hsrc hrun).mp h' r hr hnew
      exact (h.has_dst_iff r).mp (hfound.resolve_left (hfree r))
    · have hnone : ¬s.files.Has src := by simp [Trie.Has, hnode]
      exact absurd h' (not_noPhantom_unknown h hnone hsrc hrun)
  | some node =>
    dsimp only
    rw [if_neg hno]
    intro r hmark
    obtain ⟨s'', hrun', hfiles⟩ := processRename_move hnode hno
    obtain rfl := Option.some.inj (hrun.symm.trans hrun')
    rw [hfiles] at h'
    have hfound := (noPhantom_move_iff h hs hnode).mp h' r hmark
    exact (h.has_dst_iff r).mp (hfound.resolve_left (hfree r))

/-- For every command but renames the condition is exact: the step puts no phantom if and only if
it names a path that is known. -/
theorem Command.noPhantom_iff {c : Command} (hs : NoPhantom s.dir1 T s.files)
    (hstep : c.Step T T') : NoPhantom s.dir1 T' (c.process s).files ↔ c.Known s := by
  cases c with
  | mkfile p =>
    obtain ⟨i, hc, -⟩ := hstep
    exact iff_of_true (hs.created hc) trivial
  | mkdir p =>
    obtain ⟨i, hc, -⟩ := hstep
    exact iff_of_true (hs.created hc) trivial
  | symlink p lnk =>
    obtain ⟨i, hc, -⟩ := hstep
    exact iff_of_true (hs.created hc) trivial
  | link p lnk =>
    obtain ⟨i, -, -, hc⟩ := hstep
    exact iff_of_true (hs.created hc) trivial
  | unlink p =>
    obtain ⟨i, hr, -⟩ := hstep
    exact hs.deleted_iff hr
  | rmdir p =>
    obtain ⟨i, hr, -⟩ := hstep
    exact hs.deleted_iff hr
  -- a change in place marks neither a creation nor a deletion
  | write p =>
    obtain ⟨i, ha⟩ := hstep
    exact iff_of_true (hs.inserted ha.has_iff marking_content _) trivial
  | clone p =>
    obtain ⟨i, ha⟩ := hstep
    exact iff_of_true (hs.inserted ha.has_iff marking_content _) trivial
  | truncate p =>
    obtain ⟨i, ha⟩ := hstep
    exact iff_of_true (hs.inserted ha.has_iff marking_content _) trivial
  | updateExtent p =>
    obtain ⟨i, ha⟩ := hstep
    exact iff_of_true (hs.inserted ha.has_iff marking_content _) trivial
  | chmod p mode =>
    obtain ⟨i, ha⟩ := hstep
    exact iff_of_true (hs.inserted ha.has_iff marking_permissions _) trivial
  | chown p uid gid =>
    obtain ⟨i, ha⟩ := hstep
    exact iff_of_true (hs.inserted ha.has_iff marking_owner _) trivial

/-- A special file is not noted at all. -/
theorem NoPhantom.unnoted {i : Inode} (hs : NoPhantom T₁ T files) (hc : Creates T T' p i) :
    NoPhantom T₁ T' files :=
  (hs.update_iff (p := p) (fun _ _ => rfl) (fun q hq => (hc.others q hq).has_iff)
    (hs.no_type p)).mpr fun _ => Or.inr (DirTree.has_iff_lookup.mpr ⟨i, hc.new⟩)

/-- A command that meets its condition puts no mark at a path of neither tree. -/
theorem AnyCommand.noPhantom {c : AnyCommand} (hs : NoPhantom s.dir1 T s.files)
    (hstep : c.Step T T') (hknown : c.Known T s) (hrun : c.process s = some s') :
    NoPhantom s.dir1 T' s'.files := by
  cases c with
  | plain c =>
    obtain rfl := Option.some.inj hrun
    exact (c.noPhantom_iff hs hstep).mpr hknown
  | rename src dst => exact hstep.rename_noPhantom hs hknown hrun
  -- the stream notes nothing of the special files
  | mknod p =>
    obtain rfl := Option.some.inj hrun
    obtain ⟨i, hc, -⟩ := hstep
    exact hs.unnoted hc
  | mkfifo p =>
    obtain rfl := Option.some.inj hrun
    obtain ⟨i, hc, -⟩ := hstep
    exact hs.unnoted hc
  | mksock p =>
    obtain rfl := Option.some.inj hrun
    obtain ⟨i, hc, -⟩ := hstep
    exact hs.unnoted hc
  -- nor of what changes no path
  | setXattr p =>
    obtain rfl := Option.some.inj hrun
    exact hs.of_has_iff fun q => (hstep.2 q).has_iff
  | removeXattr p =>
    obtain rfl := Option.some.inj hrun
    exact hs.of_has_iff fun q => (hstep.2 q).has_iff
  | utimes p =>
    obtain rfl := Option.some.inj hrun
    obtain ⟨i, ha⟩ := hstep
    exact hs.of_has_iff ha.has_iff

end Step

mutual
/-- Merging changes the statuses only; the base tree is that of before. -/
theorem merge_dir1 (s : StreamProcessor) (dst pre : Path) : (tmp : TreeNode) →
    (s.merge tmp dst pre).dir1 = s.dir1
  | .node _ cs => by
    rw [StreamProcessor.merge]
    exact mergeChilds_dir1 s dst pre cs
/-- The same for the children, one after the other. -/
theorem mergeChilds_dir1 (s : StreamProcessor) (dst pre : Path) : (cs : List (Name × TreeNode)) →
    (s.mergeChilds cs dst pre).dir1 = s.dir1
  | [] => by rw [StreamProcessor.mergeChilds]
  | (n, c) :: cs => by
    have hput (x : Path) (status : Status) : (s.put x status).dir1 = s.dir1 := by
      rw [StreamProcessor.put]
      split <;> rfl
    rw [StreamProcessor.mergeChilds, mergeChilds_dir1, merge_dir1, hput]
end

/-- A rename does not change the base tree. -/
theorem processRename_dir1 {s s' : StreamProcessor} (hrun : s.processRename src dst = some s') :
    s'.dir1 = s.dir1 := by
  rw [StreamProcessor.processRename] at hrun
  split at hrun
  · obtain ⟨d, -, hrun⟩ := Option.bind_eq_some_iff.mp hrun
    -- none of the steps of the loop does
    have hfold (l : List Path) (s : StreamProcessor) :
        (l.foldl (moveEntry src dst) s).dir1 = s.dir1 := by
      induction l generalizing s with
      | nil => rfl
      | cons e l ih =>
        rw [List.foldl_cons, ih, moveEntry, StreamProcessor.created_dir1,
          StreamProcessor.deleted_dir1]
    split at hrun
    · cases hrun
      rw [StreamProcessor.created_dir1, StreamProcessor.deleted_dir1]
    · split_ifs at hrun
      · cases hrun
        refine (hfold _ _).trans ?_
        rw [StreamProcessor.created_dir1, StreamProcessor.deleted_dir1]
      · cases hrun
        rw [StreamProcessor.created_dir1, StreamProcessor.deleted_dir1]
  · split at hrun
    · cases hrun
      rfl
    · cases hrun
      rw [merge_dir1, StreamProcessor.created_dir1, StreamProcessor.deleted_dir1]
      rfl

/-- No command changes the base tree. -/
theorem AnyCommand.process_dir1 {s s' : StreamProcessor} {c : AnyCommand}
    (hrun : c.process s = some s') : s'.dir1 = s.dir1 := by
  cases c with
  | plain c =>
    obtain rfl := Option.some.inj hrun
    exact c.process_dir1 s
  | rename src dst => exact processRename_dir1 hrun
  | _ =>
    obtain rfl := Option.some.inj hrun
    rfl

end Snapper.Btrfs
