import Snapper.Undo.Halfway
import Snapper.Undo.Mounted

/-!
# A complete undo restores the structure

At every point of a complete undo each path of the subvolume has the content or target of
the pre tree when its step is done and of the post tree when it is not.  What is assumed of
the snapshots makes the comparison see every difference of a content.
-/

namespace Snapper

open General

/-- What is assumed of the two snapshots. -/
structure Snapshots (pre post : PlainTree) : Prop where
  preShort : pre.root.ShortTargets
  postShort : post.root.ShortTargets
  sameContent : SameContent pre.root post.root
  preNoSnapshots : pre.root.lookup [str ".snapshots"] = none
  postNoSnapshots : post.root.lookup [str ".snapshots"] = none

section Shape

variable {pre post : PlainTree} {st : Status} {f g : Inode} {p q : Path}

theorem restored_shape (hshort : f.fmt = .lnk → f.stored.length ≤ 1024) :
    (restored f).shape = f.shape := by
  unfold restored Node.shape Inode.shape
  by_cases hlnk : f.fmt = .lnk
  · simp [hlnk, List.take_of_length_le (hshort hlnk)]
  · simp [hlnk]

/-- Modes and owners are no part of the shape. -/
theorem modified_shape {n : Node} (hshort : f.fmt = .lnk → f.stored.length ≤ 1024)
    (hn : st.content = false → n.shape = f.shape) : (modified st f n).shape = f.shape := by
  have hbase : (if st.content then restored f else n).shape = f.shape := by
    cases hc : st.content with
    | true => exact restored_shape hshort
    | false => exact hn hc
  have hchmod : ∀ m : Node, (m.chmod f.perm).shape = m.shape := fun _ => rfl
  have hchown : ∀ m : Node, (m.chown f.uid f.gid).shape = m.shape := fun _ => rfl
  unfold modified
  rw [← hbase]
  cases st.permissions <;> cases st.user || st.group <;>
    simp only [if_true, Bool.false_eq_true, if_false, hchmod, hchown]

/-- Files without a reported difference of type or content have the same content. -/
theorem shape_eq_of_status (hs : Snapshots pre post) (hf : pre.root.lookup p = some f)
    (hg : post.root.lookup p = some g) (hst : st = cmpFiles f g) (htype : st.type = false)
    (hcontent : st.content = false) : f.shape = g.shape := by
  have hfmt := fmt_eq_of_type hst htype
  have hstored := stored_eq_of_content (pre.real hf) (post.real hg) (pre.ordinary hf) hfmt
    (all_lookup hs.preShort hf) (all_lookup hs.postShort hg)
    (hs.sameContent.mtime p f g hf hg hfmt) (hs.sameContent.ino p f g hf hg hfmt)
    (hst ▸ hcontent)
  unfold Inode.shape
  rw [hfmt, hstored]

/-- What a step leaves has the shape of the file in the pre tree. -/
theorem outcome_shape (hs : Snapshots pre post)
    (hst : diffStatus (pre.root.lookup p) (post.root.lookup p) = some st) {fs : Fs}
    (hpost : fs.shape q = post.root.shape p) :
    (outcome st (pre.root.lookup p) (fs.find q)).map Node.shape = pre.root.shape p := by
  unfold Tree.shape at hpost ⊢
  cases hf : pre.root.lookup p with
  | none => rfl
  | some f =>
    have hshort : f.fmt = .lnk → f.stored.length ≤ 1024 := all_lookup hs.preShort hf
    cases hg : post.root.lookup p with
    | none =>
      rw [hg] at hpost
      rw [Fs.shape_eq_none.mp hpost]
      exact congrArg some (restored_shape hshort)
    | some g =>
      rw [hf, hg, diffStatus] at hst
      split_ifs at hst
      rw [hg] at hpost
      obtain ⟨n, hn, hshape⟩ := Option.map_eq_some_iff.mp hpost
      rw [hn]
      -- in both trees: the file is replaced, or has the content that the comparison saw
      refine congrArg some (modified_shape hshort fun hcontent => ?_)
      unfold replaced
      cases htype : st.type with
      | true => exact restored_shape hshort
      | false =>
        rw [if_neg (by decide), hshape]
        exact (shape_eq_of_status hs hf hg (Option.some.inj hst).symm htype hcontent).symm

/-- Where the trees do not differ they have the same types, contents and targets. -/
theorem shape_eq_of_not_differs (hs : Snapshots pre post)
    (h : ∀ st, ¬Differs pre.root post.root p st) : pre.root.shape p = post.root.shape p := by
  by_cases hp : p = []
  · obtain ⟨d, hd, hdir⟩ := pre.lookup_root
    obtain ⟨d', hd', hdir'⟩ := post.lookup_root
    rw [hp, PlainTree.shape_of_dir hd hdir, PlainTree.shape_of_dir hd' hdir']
  by_cases hign : Ignored p
  · rw [PlainTree.shape_of_ignored hs.preNoSnapshots hign,
      PlainTree.shape_of_ignored hs.postNoSnapshots hign]
  · unfold Tree.shape
    obtain ⟨hf, hg⟩ | ⟨f, g, hf, hg, hzero⟩ := lookup_of_not_differs hp hign h
    · rw [hf, hg]
    · rw [hf, hg]
      exact congrArg some (shape_eq_of_status hs hf hg hzero.symm rfl rfl)

end Shape

/-! ## The complete undo -/

/-- What is done has the shapes of the pre tree, the rest those of the post tree. -/
def HalfwayShape (pre post : PlainTree) (sub : Path) (done : List File) (w : World) : Prop :=
  ∀ p, w.fs.shape (sub ++ p) =
    if pathName p ∈ done.map File.name then pre.root.shape p else post.root.shape p

section Run

variable {pre post : PlainTree} {sub : Path} {done rest : List File} {file : File} {w : World}

/-- A step keeps the shape of the half-done tree: the path of the step gets the type and the
content of the pre-snapshot, and the other paths keep theirs. -/
theorem shape_step (hs : Snapshots pre post) (hsub : sub ≠ []) (hvalid : ∀ n ∈ sub, ValidName n)
    (horder : undoOrder (allMarked pre post) = done ++ file :: rest)
    (h : Halfway pre post sub done w) (hshape : HalfwayShape pre post sub done w) :
    HalfwayShape pre post sub (done ++ [file]) (undoFile (undoPaths pre.root sub) w file) := by
  apply h.map_step hsub hvalid horder (fun _ _ => rfl) (fun _ _ _ => rfl)
  · intro p hvalid'
    simp [Tree.shape, lookup_of_invalid _ hvalid']
  · intro p hdiff _ hpost
    exact outcome_shape hs hdiff.2.2 hpost
  · exact hshape

/-- At every point of the undo the entries that are done have the type and the content of the
pre-snapshot, and the others those of the post-snapshot. -/
theorem shape_run (hs : Snapshots pre post) (hsub : sub ≠ []) (hvalid : ∀ n ∈ sub, ValidName n)
    (hw : w.faults = []) (hsys : SystemAt w.fs sub post.root)
    (hpoint : undoOrder (allMarked pre post) = done ++ rest) :
    HalfwayShape pre post sub done (done.foldl (undoFile (undoPaths pre.root sub)) w) := by
  refine foldl_induction (P := HalfwayShape pre post sub) ?_ ?_ hpoint
  · intro p
    rw [if_neg (by simp)]
    exact hsys.shape p
  · intro done file rest horder hshape
    exact shape_step hs hsub hvalid horder (halfway_run hsub hvalid hw hsys horder) hshape

end Run

/-- After a complete undo the subvolume has exactly the paths of the pre tree, with its
types, contents and targets. -/
theorem undo_restores_structure (pre post : PlainTree) (hs : Snapshots pre post) (sub : Path)
    (hsub : sub ≠ []) (hvalid : ∀ n ∈ sub, ValidName n) (w : World) (hw : w.faults = [])
    (hsys : SystemAt w.fs sub post.root) (p : Path) :
    (undoComparison (undoPaths pre.root sub) (allMarked pre post) w).fs.shape (sub ++ p) =
      pre.root.shape p := by
  have hrun := shape_run hs hsub hvalid hw hsys (List.append_nil _).symm
  rw [undoComparison_eq namesAscend_allMarked, hrun p]
  split
  · rfl
  · next hnot =>
    refine (shape_eq_of_not_differs hs fun st hst => hnot ?_).symm
    refine List.mem_map.mpr ⟨{ name := pathName p, preToPostStatus := st, undo := true }, ?_, rfl⟩
    exact mem_undoOrder.mpr ⟨mem_mark_compareTrees.mpr ⟨p, st, hst, rfl⟩, rfl⟩

/-- A directory `a` with a file in it … -/
private def dirTree : PlainTree where
  root := .node (plainDir 1) [(str "a", .node (plainDir 1)
    [(str "f", .node (plainFile 1 (str "x")) [])])]
  wf := by decide
  isDir := rfl
  oneDev := by decide
  plain := by decide

/-- … and `a` as a symlink. -/
private def linkTree : PlainTree where
  root := .node (plainDir 2) [(str "a", .node (plainLink 2 (str "b")) [])]
  wf := by decide
  isDir := rfl
  oneDev := by decide
  plain := by decide

/-- The undo makes the symlink a directory again and puts the file into it. -/
theorem undo_restores_structure_of_link :
    (undoComparison (undoPaths dirTree.root [str "s"]) (allMarked dirTree linkTree)
      { fs := mounted [str "s"] (by decide) linkTree.toDirTree, faults := [], canClone := false,
        umask := 0o022 }).fs.shape [str "s", str "a", str "f"] = some (.reg, str "x") := by
  have hs : Snapshots dirTree linkTree :=
    { preShort := by unfold Tree.ShortTargets; decide
      postShort := by unfold Tree.ShortTargets; decide
      sameContent := @SameContent.of_ages _ _ 2 (by decide) (by decide)
      preNoSnapshots := by decide
      postNoSnapshots := by decide }
  have h := undo_restores_structure dirTree linkTree hs [str "s"] (by decide) (by decide)
    { fs := mounted [str "s"] (by decide) linkTree.toDirTree, faults := [], canClone := false,
      umask := 0o022 } rfl (mounted_systemAt [str "s"] (by decide) linkTree.toDirTree)
    [str "a", str "f"]
  exact h.trans (by decide)

end Snapper
