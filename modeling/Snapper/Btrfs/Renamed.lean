import Snapper.Btrfs.Merge

/-!
# Which renames keep the difference

The three branches of `process_rename` together.  The first one is right in every tree whose
nodes stand for files; the other two forget that a node can stand for a file of the base tree,
and `merge` puts what is two or more levels below the source at a wrong path.

## Main results

- `rename_faithful_iff`: the condition under which a rename keeps the difference faithful
- `renameKeeps_iff_of_grounded`: the condition where every node stands for a file
-/

namespace Snapper.Btrfs

open General

variable {T₁ T T' : DirTree} {files : TreeNode} {src dst : Path}

/-! ## The condition -/

/-- What a rename needs, branch by branch. -/
def RenameKeeps (T₁ T : DirTree) (files : TreeNode) (src dst : Path) : Prop :=
  match files.find src with
  | none => ∀ r, T.Has (src ++ r) → files.Has (dst ++ r) → T₁.Has (dst ++ r)
  | some node => ¬T₁.Has src ∧ (files.Has dst → T₁.Has dst ∧ Merges T₁ T files node src dst)

/-- Where only the old name has a node, the rename moves its subtree, with all statuses as they
are. -/
theorem processRename_move {s : StreamProcessor} {node : TreeNode}
    (hnode : s.files.find src = some node) (hno : ¬s.files.Has dst) :
    ∃ s', s.processRename src dst = some s' ∧
      s'.files = (s.files.graft dst node).detach src := by
  have hnone : s.files.find dst = none := Option.not_isSome_iff_eq_none.mp hno
  refine ⟨s.rename src dst, ?_, StreamProcessor.rename_files hnode hno⟩
  rw [StreamProcessor.processRename, hnode]
  dsimp only
  rw [hnone]

/-- `process_rename` keeps the difference faithful exactly under the condition of its branch. -/
theorem rename_faithful_iff (s : StreamProcessor) (T T' : DirTree) (src dst : Path)
    (h : Renames T T' src dst) (hf : Faithful s.dir1 T s.files) :
    (∃ s', s.processRename src dst = some s' ∧ Faithful s.dir1 T' s'.files) ↔
      RenameKeeps s.dir1 T s.files src dst := by
  rw [RenameKeeps]
  cases hnode : s.files.find src with
  | none => exact no_node_faithful_iff h hf hnode
  | some node =>
    dsimp only
    by_cases hdst : s.files.Has dst
    · obtain ⟨s', hrun, hfiles⟩ := processRename_merge hnode hdst
      have hmerge := merged_faithful_iff h hf (s.ordered.find hnode) hnode hdst
      rw [← hfiles] at hmerge
      simp only [hrun, Option.some.injEq, exists_eq_left', hmerge, hdst, true_implies]
    · obtain ⟨s', hrun, hfiles⟩ := processRename_move hnode hdst
      have hmove := move_faithful_iff h hf hnode hdst
      rw [← hfiles] at hmove
      simp only [hrun, Option.some.injEq, exists_eq_left', hmove, hdst, false_implies, and_true]

/-! ## A renamed directory of the base tree -/

/-- `/d/f` -/
def baseDirs : DirTree where
  root := dirOf [(str "d", dirOf [(str "f", dirOf [])])]
  wf := by decide
  isDir := rfl

/-- `/d/f` and `/d/g` -/
def grownDirs : DirTree where
  root := dirOf [(str "d", dirOf [(str "f", dirOf []), (str "g", dirOf [])])]
  wf := by decide
  isDir := rfl

/-- The same below `/e` -/
def movedDirs : DirTree where
  root := dirOf [(str "e", dirOf [(str "f", dirOf []), (str "g", dirOf [])])]
  wf := by decide
  isDir := rfl

theorem has_baseDirs (p : Path) :
    baseDirs.Has p ↔ p ∈ [[], [str "d"], [str "d", str "f"]] :=
  (DirTree.mem_subtree baseDirs.has_nil).symm

theorem has_grownDirs (p : Path) :
    grownDirs.Has p ↔ p ∈ [[], [str "d"], [str "d", str "f"], [str "d", str "g"]] :=
  (DirTree.mem_subtree grownDirs.has_nil).symm

theorem has_movedDirs (p : Path) :
    movedDirs.Has p ↔ p ∈ [[], [str "e"], [str "e", str "f"], [str "e", str "g"]] :=
  (DirTree.mem_subtree movedDirs.has_nil).symm

/-- The directory d with its two files gets the name e. -/
theorem renames_dirs : Renames grownDirs movedDirs [str "d"] [str "e"] where
  exists_src := by decide
  free_dst := by decide
  parent_dst := ⟨grownDirs.root, rfl, rfl⟩
  not_below := by decide
  has_iff p := by
    simp only [has_grownDirs, has_movedDirs, List.mem_cons, List.not_mem_nil, or_false]
    constructor
    · intro h
      obtain rfl | rfl | rfl | rfl := h
      · exact Or.inr ⟨Or.inl rfl, by decide⟩
      · exact Or.inl ⟨[], rfl, by decide⟩
      · exact Or.inl ⟨[str "f"], rfl, by decide⟩
      · exact Or.inl ⟨[str "g"], rfl, by decide⟩
    · intro h
      obtain ⟨r, rfl, hr⟩ | ⟨hp, hnot⟩ := h
      · obtain hr | hr | hr | hr := hr
        · cases hr
        · obtain rfl := (List.cons.inj hr).2
          exact Or.inr (Or.inl rfl)
        · obtain rfl := (List.cons.inj hr).2
          exact Or.inr (Or.inr (Or.inl rfl))
        · obtain rfl := (List.cons.inj hr).2
          exact Or.inr (Or.inr (Or.inr rfl))
      · obtain rfl | rfl | rfl | rfl := hp
        · exact Or.inl rfl
        · exact absurd (List.prefix_append [str "d"] []) hnot
        · exact absurd (List.prefix_append [str "d"] [str "f"]) hnot
        · exact absurd (List.prefix_append [str "d"] [str "g"]) hnot

/-- Without nodes the whole directory is reported at both paths. -/
theorem rename_faithful_iff_dirs :
    ∃ s', (StreamProcessor.start grownDirs).processRename [str "d"] [str "e"] = some s' ∧
      Faithful grownDirs movedDirs s'.files := by
  refine (rename_faithful_iff (StreamProcessor.start grownDirs) grownDirs movedDirs [str "d"]
    [str "e"] renames_dirs (faithful_empty grownDirs)).mpr fun r _ hhas => ?_
  obtain ⟨c, hc, -⟩ := Trie.has_cons.mp hhas
  cases hc

/-- The directory `/d/g` is made. -/
def afterMkdir : StreamProcessor :=
  (StreamProcessor.start baseDirs).processMkdir [str "d", str "g"]

theorem afterMkdir_files : afterMkdir.files =
    (Trie.node 0 [] : TreeNode).place Status.touched ([str "d", str "g"], .CREATED) :=
  StreamProcessor.created_files _

/-- After the directory and its files are made, the statuses say what the two trees differ in. -/
theorem faithful_afterMkdir : Faithful baseDirs grownDirs afterMkdir.files := by
  have hempty := faithful_empty baseDirs
  have hget (p : Path) (hp : p ≠ []) :
      afterMkdir.files.get p = if p = [str "d", str "g"] then .CREATED else 0 := by
    rw [afterMkdir_files, Trie.get_place]
    split_ifs with hg hhas
    · exact absurd hhas (by decide)
    · rfl
    · match p, hp with
      | n :: p, _ => exact Trie.get_of_child_none rfl p
  refine faithful_iff.mpr ⟨?_, fun p hp => ?_⟩
  · rw [afterMkdir_files, Trie.place, if_neg (by decide)]
    exact Trie.tidy_putValue hempty.tidy Status.CREATED_ne_zero
  · rw [hget p hp, has_baseDirs, has_grownDirs]
    split_ifs with hg
    · subst hg
      decide
    · simp only [List.mem_cons, List.not_mem_nil, hg, hp, Status.created_zero, Status.deleted_zero]
      tauto

/-- The rename of `/d`, which has a node now, forgets that the base tree has `/d` and `/d/f`. -/
theorem rename_forgets_base :
    ¬∀ (s : StreamProcessor) (T T' : DirTree) (src dst : Path), Renames T T' src dst →
      Faithful s.dir1 T s.files →
        ∃ s', s.processRename src dst = some s' ∧ Faithful s.dir1 T' s'.files := by
  intro hall
  obtain ⟨s', hrun, hf'⟩ := hall afterMkdir _ _ _ _ renames_dirs faithful_afterMkdir
  have hhas (p : Path) : afterMkdir.files.Has p ↔
      (Trie.node 0 [] : TreeNode).Has p ∨ p <+: [str "d", str "g"] := by
    rw [afterMkdir_files]
    exact Trie.has_place _ _ p
  obtain ⟨node, hnode⟩ := Trie.has_iff.mp ((hhas [str "d"]).mpr (Or.inr (by decide)))
  have hno : ¬afterMkdir.files.Has [str "e"] := by
    rw [hhas]
    decide
  obtain ⟨s'', hrun', hfiles⟩ := processRename_move hnode hno
  obtain rfl := Option.some.inj (hrun.symm.trans hrun')
  rw [hfiles] at hf'
  exact (move_faithful_iff renames_dirs faithful_afterMkdir hnode hno).mp hf' (by decide)

/-! ## Trees whose nodes stand for files -/

/-- In such a tree a rename is right exactly when the source has no node, or is not in the base
tree and either the destination has no node or nothing is two levels below the source. -/
theorem renameKeeps_iff_of_grounded (h : Renames T T' src dst) (hf : Faithful T₁ T files)
    (hord : files.Ordered) (hg : Grounded T₁ T files) :
    RenameKeeps T₁ T files src dst ↔
      (files.Has src → ¬T₁.Has src ∧ (files.Has dst → ∀ n m, ¬T.Has (src ++ [n, m]))) := by
  have hknown (r : Path) (hhas : files.Has (dst ++ r)) : T₁.Has (dst ++ r) :=
    (hg _ (by simp [h.apart.dst_ne_nil]) hhas).resolve_left (h.not_has_dst r)
  rw [RenameKeeps]
  cases hnode : files.find src with
  | none =>
    have hno : ¬files.Has src := by simp [Trie.Has, hnode]
    simp only [hno, false_implies, iff_true]
    exact fun r _ hhas => hknown r hhas
  | some node =>
    have hhas : files.Has src := Trie.has_iff.mpr ⟨node, hnode⟩
    dsimp only
    simp only [hhas, true_implies]
    refine and_congr_right fun hbase => forall_congr' fun hdst => ?_
    constructor
    · intro hkeeps
      exact hkeeps.2.shallow
    · intro hshallow
      have hdstknown : T₁.Has dst := by
        have hkept := hknown []
        rw [List.append_nil] at hkept
        exact hkept hdst
      -- every node of the source is a file of it, one level below
      have hnodes : ∀ w status, (w, status) ∈ node.nodes → T.Has (src ++ w) ∧ ∃ n, w = [n] := by
        intro w status hmem
        obtain ⟨hw, hfound, -⟩ := (mem_nodes_src (hord.find hnode) hnode).mp hmem
        have hT : T.Has (src ++ w) := (hg _ (by simp [hw]) hfound).resolve_right fun hT₁ =>
          hbase hT₁.above
        refine ⟨hT, ?_⟩
        obtain ⟨n, rest, rfl⟩ := List.exists_cons_of_ne_nil hw
        cases rest with
        | nil => exact ⟨n, rfl⟩
        | cons m rest => exact absurd hT (not_has_deep hshallow (by simp))
      refine ⟨hdstknown, hshallow, ?_, ?_, ?_⟩
      · intro before w status after hsplit _
        obtain ⟨-, n, rfl⟩ := hnodes w status (by simp [hsplit])
        rw [landing_singleton]
        by_cases hfound : files.Has (dst ++ [n])
        · exact Or.inl (hknown [n] hfound)
        · refine Or.inr ⟨by rwa [landing_singleton], fun e he hpre => ?_⟩
          obtain ⟨-, m, hm⟩ := hnodes e.1 e.2 (by simp [hsplit, he])
          have hearlier := (List.pairwise_append.mp
            (hsplit ▸ Trie.nodes_preorder (hord.find hnode))).2.2 e he _ (List.mem_cons_self ..)
          rw [hm, landing_singleton, landing_singleton] at hpre
          rw [hm] at hearlier
          exact hearlier ((List.prefix_append_right_inj dst).mp hpre)
      · intro before w status after hsplit hno
        exact absurd (hnodes w status (by simp [hsplit])).1 hno
      · intro before w after hsplit _
        have hmem : (w, 0) ∈ node.nodes := by simp [hsplit]
        obtain ⟨-, -, hstatus⟩ := (mem_nodes_src (hord.find hnode) hnode).mp hmem
        have hcreated := (flags_src h hf hbase w).1.mpr (hnodes w 0 hmem).1
        rw [hstatus] at hcreated
        exact absurd hcreated Bool.false_ne_true

end Snapper.Btrfs
