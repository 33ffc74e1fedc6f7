import Snapper.Btrfs.Faithful

/-!
# Renaming

What `process_rename` does to the pending difference where the source or the destination has no
node in the tree of statuses.

## Main results

- `Renames.faithful_iff`: what has to hold after a rename
- `no_node_faithful_iff`: the source has no node
- `move_faithful_iff`: the source has a node, the destination has none
-/

namespace Snapper.Btrfs

open General

/-! ## Renames of the current tree -/

/-- Neither path is at or below the other. -/
structure Apart (src dst : Path) : Prop where
  not_below : ¬src <+: dst
  not_above : ¬dst <+: src

namespace Apart

variable {src dst : Path}

theorem src_ne_nil (h : Apart src dst) : src ≠ [] := by
  rintro rfl
  exact h.not_below List.nil_prefix

theorem dst_ne_nil (h : Apart src dst) : dst ≠ [] := by
  rintro rfl
  exact h.not_above List.nil_prefix

/-- Nothing is both below the source and below the destination. -/
theorem disjoint (h : Apart src dst) {p : Path} (hdst : dst <+: p) : ¬src <+: p := by
  intro hsrc
  obtain hpre | hpre := List.prefix_or_prefix_of_prefix hsrc hdst
  · exact h.not_below hpre
  · exact h.not_above hpre

end Apart

/-- `T'` is `T` with the file at `src`, and everything below it, moved to `dst`. -/
structure Renames (T T' : DirTree) (src dst : Path) : Prop where
  exists_src : T.Has src
  free_dst : ¬T.Has dst
  parent_dst : ∃ d, T.root.find dst.dropLast = some d ∧ d.isDir
  not_below : ¬src <+: dst
  has_iff : ∀ p, T'.Has p ↔ (∃ r, p = dst ++ r ∧ T.Has (src ++ r)) ∨ (T.Has p ∧ ¬src <+: p)

namespace Renames

variable {T₁ T T' : DirTree} {src dst : Path}

theorem not_has_dst (h : Renames T T' src dst) (r : Path) : ¬T.Has (dst ++ r) :=
  fun hhas => h.free_dst hhas.above

/-- What is below the destination is not there. -/
theorem apart (h : Renames T T' src dst) : Apart src dst where
  not_below := h.not_below
  not_above := by
    intro hpre
    obtain ⟨r, hr⟩ := hpre
    exact h.not_has_dst r (hr.symm ▸ h.exists_src)

theorem not_has_src (h : Renames T T' src dst) (r : Path) : ¬T'.Has (src ++ r) := by
  rw [h.has_iff]
  intro hhas
  obtain ⟨q, hq, -⟩ | ⟨-, hnot⟩ := hhas
  · exact h.apart.disjoint ⟨q, hq.symm⟩ (List.prefix_append src r)
  · exact hnot (List.prefix_append src r)

/-- What is below the new name after the rename was below the old one before it. -/
theorem has_dst (h : Renames T T' src dst) (r : Path) : T'.Has (dst ++ r) ↔ T.Has (src ++ r) := by
  rw [h.has_iff]
  constructor
  · intro hhas
    obtain ⟨q, hq, hT⟩ | ⟨hT, -⟩ := hhas
    · obtain rfl := List.append_cancel_left hq
      exact hT
    · exact absurd hT (h.not_has_dst r)
  · intro hT
    exact Or.inl ⟨r, rfl, hT⟩

/-- A rename leaves every path alone that is below neither name. -/
theorem has_other (h : Renames T T' src dst) {p : Path} (hsrc : ¬src <+: p) (hdst : ¬dst <+: p) :
    T'.Has p ↔ T.Has p := by
  rw [h.has_iff]
  constructor
  · intro hhas
    obtain ⟨q, rfl, -⟩ | ⟨hT, -⟩ := hhas
    · exact absurd (List.prefix_append dst q) hdst
    · exact hT
  · intro hT
    exact Or.inr ⟨hT, hsrc⟩

/-- Before the rename nothing below the destination is there. -/
theorem pending_dst (h : Renames T T' src dst) {files : TreeNode} (hf : Faithful T₁ T files)
    (r : Path) : (files.get (dst ++ r)).created = false ∧
      ((files.get (dst ++ r)).deleted = true ↔ T₁.Has (dst ++ r)) := by
  have hne : dst ++ r ≠ [] := by simp [h.apart.dst_ne_nil]
  have hcreated := hf.created_iff (dst ++ r) hne
  have hdeleted := hf.deleted_iff (dst ++ r) hne
  simp only [h.not_has_dst r, false_and, iff_false, Bool.not_eq_true] at hcreated
  simp only [h.not_has_dst r, not_false_eq_true, and_true] at hdeleted
  exact ⟨hcreated, hdeleted⟩

/-- What has to hold at the source and at the destination after a rename, when nothing else has
changed. -/
theorem faithful_iff (h : Renames T T' src dst) {files files' : TreeNode}
    (hf : Faithful T₁ T files)
    (hother : ∀ p, ¬src <+: p → ¬dst <+: p → files'.get p = files.get p) :
    Faithful T₁ T' files' ↔ files'.Tidy ∧
      (∀ r, (files'.get (src ++ r)).created = false ∧
        ((files'.get (src ++ r)).deleted = true ↔ T₁.Has (src ++ r))) ∧
      ∀ r, ((files'.get (dst ++ r)).created = true ↔ T.Has (src ++ r) ∧ ¬T₁.Has (dst ++ r)) ∧
        ((files'.get (dst ++ r)).deleted = true ↔ T₁.Has (dst ++ r) ∧ ¬T.Has (src ++ r)) := by
  have hsrc (r : Path) : src ++ r ≠ [] := by simp [h.apart.src_ne_nil]
  have hdst (r : Path) : dst ++ r ≠ [] := by simp [h.apart.dst_ne_nil]
  rw [Btrfs.faithful_iff]
  refine and_congr_right fun _ => ?_
  constructor
  · intro hall
    refine ⟨fun r => ?_, fun r => ?_⟩
    · have hflags := hall _ (hsrc r)
      simpa [h.not_has_src r] using hflags
    · have hflags := hall _ (hdst r)
      rwa [h.has_dst r] at hflags
  · intro ⟨hatsrc, hatdst⟩ p hp
    -- below the source, below the destination, or apart from both
    by_cases hps : src <+: p
    · obtain ⟨r, rfl⟩ := hps
      simpa [h.not_has_src r] using hatsrc r
    · by_cases hpd : dst <+: p
      · obtain ⟨r, rfl⟩ := hpd
        rw [h.has_dst r]
        exact hatdst r
      · rw [hother p hps hpd, h.has_other hps hpd]
        exact ⟨hf.created_iff p hp, hf.deleted_iff p hp⟩

end Renames

/-! ## The source has no node -/

section NoNode

variable {T T' : DirTree} {src dst : Path} {s : StreamProcessor}

/-- One round of the loop over the base subtree. -/
def moveEntry (src dst : Path) (s : StreamProcessor) (e : Path) : StreamProcessor :=
  (s.deleted (src ++ e)).created (dst ++ e)

/-- The marks of one round. -/
def entryMarks (src dst e : Path) : List (Path × Status) :=
  [(src ++ e, .DELETED), (dst ++ e, .CREATED)]

theorem mem_entryMarks {e : Path} {m : Path × Status} :
    m ∈ entryMarks src dst e ↔ m = (src ++ e, .DELETED) ∨ m = (dst ++ e, .CREATED) := by
  simp [entryMarks]

/-- A file without a node is walked in the base tree: each path below it is marked as deleted and,
at its new place, as created. -/
theorem processRename_no_node (hsrc : s.dir1.Has src) (hne : src ≠ [])
    (hno : s.files.find src = none) :
    s.processRename src dst = some ((s.dir1.subtree src).foldl (moveEntry src dst) s) := by
  obtain ⟨t, ht⟩ := Option.isSome_iff_exists.mp hsrc
  have hlast : src.dropLast ++ [src.getLast hne] = src := List.dropLast_concat_getLast hne
  obtain ⟨d, hd, hentry⟩ := Tree.deepopen_of_find s.dir1.wf (hlast.symm ▸ ht)
  have hfirst : moveEntry src dst s [] = (s.deleted src).created dst := by
    rw [moveEntry, List.append_nil, List.append_nil]
  have hname : src.getLast?.bind (fun basename => d.entries.lookup basename) = some t := by
    rw [List.getLast?_eq_some_getLast hne]
    exact hentry
  rw [StreamProcessor.processRename, hno]
  dsimp only
  rw [StreamProcessor.created_dir1, StreamProcessor.deleted_dir1, hd, Option.bind_eq_bind,
    Option.bind_some, hname, DirTree.subtree, ht, List.foldl_cons, hfirst]
  dsimp only
  split_ifs <;> rfl

/-- The loop only puts marks: where it marks something as deleted there is no node. -/
theorem foldl_moveEntry {l : List Path} (hpre : l.Pairwise fun a b => ¬b <+: a)
    (hdisj : ∀ p, dst <+: p → ¬src <+: p) (hno : ∀ e ∈ l, ¬s.files.Has (src ++ e)) :
    (l.foldl (moveEntry src dst) s).files =
      (l.flatMap (entryMarks src dst)).foldl (Trie.place Status.touched) s.files := by
  -- over the entries, in the order of the walk: none is above a later one
  induction l generalizing s with
  | nil => rfl
  | cons e l ih =>
    obtain ⟨hfirst, hpre⟩ := List.pairwise_cons.mp hpre
    have hfiles : (moveEntry src dst s e).files =
        (entryMarks src dst e).foldl (Trie.place Status.touched) s.files := by
      rw [moveEntry, StreamProcessor.created_files,
        StreamProcessor.deleted_of_not_has (hno e (List.mem_cons_self ..))]
      rfl
    rw [List.foldl_cons, List.flatMap_cons, List.foldl_append, ← hfiles]
    refine ih hpre fun a ha hhas => ?_
    rw [hfiles, Trie.has_foldl_place] at hhas
    -- a node below the source is an old one, or the mark of this entry is below it
    obtain hhas | ⟨m, hm, hbelow⟩ := hhas
    · exact hno a (List.mem_cons_of_mem e ha) hhas
    · obtain rfl | rfl := mem_entryMarks.mp hm
      · exact hfirst a ha ((List.prefix_append_right_inj src).mp hbelow)
      · exact hdisj _ (List.prefix_append dst e) ((List.prefix_append src a).trans hbelow)

/-- The marks of the walk are put parent before child on both sides. -/
theorem entryMarks_preorder {l : List Path} (hpre : l.Pairwise fun a b => ¬b <+: a)
    (hsrc : ∀ p, dst <+: p → ¬src <+: p) :
    (l.flatMap (entryMarks src dst)).Pairwise fun a b => ¬b.1 <+: a.1 := by
  have hdst : ∀ p, src <+: p → ¬dst <+: p := fun p hp hd => hsrc p hd hp
  rw [List.pairwise_flatMap]
  refine ⟨fun e _ => ?_, hpre.imp fun {a b} hab m hm m' hm' hbelow => ?_⟩
  · refine List.pairwise_pair.mpr fun hbelow => ?_
    exact hdst (src ++ e) (List.prefix_append src e) ((List.prefix_append dst e).trans hbelow)
  · obtain rfl | rfl := mem_entryMarks.mp hm <;> obtain rfl | rfl := mem_entryMarks.mp hm'
    · exact hab ((List.prefix_append_right_inj src).mp hbelow)
    · exact hdst _ (List.prefix_append src a) ((List.prefix_append dst b).trans hbelow)
    · exact hsrc _ (List.prefix_append dst a) ((List.prefix_append src b).trans hbelow)
    · exact hab ((List.prefix_append_right_inj dst).mp hbelow)

/-- All marks of the loop. -/
def moveMarks (T₁ : DirTree) (src dst : Path) : List (Path × Status) :=
  (T₁.subtree src).flatMap (entryMarks src dst)

/-- The tree after the loop. -/
def moved (T₁ : DirTree) (src dst : Path) (files : TreeNode) : TreeNode :=
  (moveMarks T₁ src dst).foldl (Trie.place Status.touched) files

variable {T₁ : DirTree} {files : TreeNode}

theorem mem_moveMarks (hbase : T₁.Has src) {m : Path × Status} :
    m ∈ moveMarks T₁ src dst ↔ ∃ r, T₁.Has (src ++ r) ∧
      (m = (src ++ r, .DELETED) ∨ m = (dst ++ r, .CREATED)) := by
  simp only [moveMarks, List.mem_flatMap, DirTree.mem_subtree hbase, mem_entryMarks]

theorem get_moved_other (hbase : T₁.Has src) {p : Path}
    (hp : ∀ r, T₁.Has (src ++ r) → p ≠ src ++ r ∧ p ≠ dst ++ r) :
    (moved T₁ src dst files).get p = files.get p := by
  refine Trie.get_foldl_place_other fun m hm heq => ?_
  obtain ⟨r, hr, rfl | rfl⟩ := (mem_moveMarks hbase).mp hm
  · exact (hp r hr).1 heq.symm
  · exact (hp r hr).2 heq.symm

/-- The mark that the loop puts at a path. -/
theorem get_moved_of_mem (hdisj : ∀ p, dst <+: p → ¬src <+: p) {m : Path × Status}
    (hm : m ∈ moveMarks T₁ src dst) :
    (moved T₁ src dst files).get m.1 =
      if files.Has m.1 then (files.get m.1).touched else m.2 :=
  Trie.get_foldl_place_preorder (entryMarks_preorder (T₁.subtree_preorder src) hdisj) hm

/-- Below the old name the walk marks what the base tree has as deleted, and nothing else. -/
theorem get_moved_src (hbase : T₁.Has src) (hdisj : ∀ p, dst <+: p → ¬src <+: p) {r : Path}
    (hno : ¬files.Has (src ++ r)) :
    (moved T₁ src dst files).get (src ++ r) = if T₁.Has (src ++ r) then .DELETED else 0 := by
  split_ifs with hr
  · have hget : (moved T₁ src dst files).get (src ++ r) = _ :=
      get_moved_of_mem hdisj ((mem_moveMarks hbase).mpr ⟨r, hr, Or.inl rfl⟩)
    rw [hget, if_neg hno]
  · rw [get_moved_other hbase, Trie.get_of_not_has hno]
    intro q hq
    refine ⟨fun heq => hr (heq ▸ hq), fun heq => hdisj (src ++ r) ?_ (List.prefix_append src r)⟩
    exact ⟨q, heq.symm⟩

/-- Below the new name it marks the same paths as created, or touches the status that is there. -/
theorem get_moved_dst (hbase : T₁.Has src) (hdisj : ∀ p, dst <+: p → ¬src <+: p) (r : Path) :
    (moved T₁ src dst files).get (dst ++ r) =
      if T₁.Has (src ++ r) then
        (if files.Has (dst ++ r) then (files.get (dst ++ r)).touched else .CREATED)
      else files.get (dst ++ r) := by
  split_ifs with hr hhas
  · have hget : (moved T₁ src dst files).get (dst ++ r) = _ :=
      get_moved_of_mem hdisj ((mem_moveMarks hbase).mpr ⟨r, hr, Or.inr rfl⟩)
    rw [hget, if_pos hhas]
  · have hget : (moved T₁ src dst files).get (dst ++ r) = _ :=
      get_moved_of_mem hdisj ((mem_moveMarks hbase).mpr ⟨r, hr, Or.inr rfl⟩)
    rw [hget, if_neg hhas]
  · apply get_moved_other hbase
    intro q hq
    refine ⟨fun heq => hdisj (dst ++ r) (List.prefix_append dst r) ⟨q, heq.symm⟩, fun heq => hr ?_⟩
    obtain rfl := List.append_cancel_left heq
    exact hq

/-- The walk leaves no node without a status or a child, as the source itself is in the base tree.
-/
theorem tidy_moved (hbase : T₁.Has src) (hdisj : ∀ p, dst <+: p → ¬src <+: p) (hsrc : src ≠ [])
    (hdst : dst ≠ []) (h : files.Tidy) : (moved T₁ src dst files).Tidy := by
  have hpre : (moveMarks T₁ src dst).Pairwise fun a b => ¬b.1 <+: a.1 :=
    entryMarks_preorder (T₁.subtree_preorder src) hdisj
  refine (Trie.tidy_foldl_place Status.touched_ne_zero h (fun m hm => ?_) ?_).mpr ?_
  · obtain ⟨r, -, rfl | rfl⟩ := (mem_moveMarks hbase).mp hm
    · simp [hsrc]
    · simp [hdst]
  · exact hpre.imp fun {a b} hab (heq : a.1 = b.1) => hab (heq ▸ List.prefix_rfl)
  · -- no mark of the loop is zero
    intro l₁ m l₂ hsplit _ hzero
    have hm : m ∈ moveMarks T₁ src dst := by simp [hsplit]
    obtain ⟨r, -, rfl | rfl⟩ := (mem_moveMarks hbase).mp hm
    · cases hzero
    · cases hzero

/-- Without a node for the source the difference stays faithful exactly when no node stands where
a file arrives that the base does not have. -/
theorem no_node_faithful_iff (h : Renames T T' src dst) (hf : Faithful s.dir1 T s.files)
    (hno : s.files.find src = none) :
    (∃ s', s.processRename src dst = some s' ∧ Faithful s.dir1 T' s'.files) ↔
      ∀ r, T.Has (src ++ r) → s.files.Has (dst ++ r) → s.dir1.Has (dst ++ r) := by
  have hnone : ¬s.files.Has src := by simp [Trie.Has, hno]
  have hbelow (r : Path) : ¬s.files.Has (src ++ r) := fun hhas => hnone hhas.above
  -- the source is the same in both trees
  have hsame (r : Path) : s.dir1.Has (src ++ r) ↔ T.Has (src ++ r) :=
    (hf.no_node (by simp [h.apart.src_ne_nil]) (hbelow r)).symm
  have hbase : s.dir1.Has src := (hf.no_node h.apart.src_ne_nil hnone).mp h.exists_src
  have hdisj : ∀ p, dst <+: p → ¬src <+: p := fun _ => h.apart.disjoint
  have hrun : s.processRename src dst = some ((s.dir1.subtree src).foldl (moveEntry src dst) s) :=
    processRename_no_node hbase h.apart.src_ne_nil hno
  have hfiles : ((s.dir1.subtree src).foldl (moveEntry src dst) s).files =
      moved s.dir1 src dst s.files :=
    foldl_moveEntry (s.dir1.subtree_preorder src) hdisj fun e _ => hbelow e
  simp only [hrun, Option.some.injEq, exists_eq_left', hfiles]
  rw [h.faithful_iff hf fun p hps hpd => get_moved_other hbase fun r _ =>
    ⟨fun heq => hps ⟨r, heq.symm⟩, fun heq => hpd ⟨r, heq.symm⟩⟩]
  have hatsrc (r : Path) : ((moved s.dir1 src dst s.files).get (src ++ r)).created = false ∧
      (((moved s.dir1 src dst s.files).get (src ++ r)).deleted = true ↔ s.dir1.Has (src ++ r)) := by
    rw [get_moved_src hbase hdisj (hbelow r)]
    split_ifs with hr
    · simp [Status.DELETED, hr]
    · simp [hr]
  constructor
  · -- a file that arrives at a node is marked as modified
    intro h' r hr hhas
    obtain ⟨-, -, hatdst⟩ := h'
    have hcreated := (hatdst r).1
    rw [get_moved_dst hbase hdisj, if_pos ((hsame r).mpr hr), if_pos hhas] at hcreated
    by_contra hno
    exact absurd (hcreated.mpr ⟨hr, hno⟩) Bool.false_ne_true
  · intro hok
    refine ⟨tidy_moved hbase hdisj h.apart.src_ne_nil h.apart.dst_ne_nil hf.tidy, hatsrc,
      fun r => ?_⟩
    rw [get_moved_dst hbase hdisj]
    simp only [hsame r]
    obtain ⟨hcreated, hdeleted⟩ := h.pending_dst hf r
    split_ifs with hr hhas
    · simp [hr, hok r hr hhas]
    · have hnew : ¬s.dir1.Has (dst ++ r) := by
        rw [← hf.no_node (by simp [h.apart.dst_ne_nil]) hhas]
        exact h.not_has_dst r
      simp [Status.CREATED, hr, hnew]
    · simp [hr, hcreated, hdeleted]

end NoNode

/-! ## The source has a node, the destination has none -/

section Move

variable {T₁ T T' : DirTree} {src dst : Path} {files node : TreeNode}

theorem get_move_src (h : Apart src dst) (r : Path) :
    ((files.graft dst node).detach src).get (src ++ r) = 0 := by
  rw [Trie.get_detach _ h.src_ne_nil, if_pos (List.prefix_append src r)]

theorem get_move_dst (h : Apart src dst) (hnode : files.find src = some node) (r : Path) :
    ((files.graft dst node).detach src).get (dst ++ r) = files.get (src ++ r) := by
  rw [Trie.get_detach _ h.src_ne_nil, if_neg (h.disjoint (List.prefix_append dst r)),
    Trie.get_graft_append, Trie.get_append hnode]

theorem get_move_other (h : Apart src dst) {p : Path} (hsrc : ¬src <+: p)
    (hdst : ¬dst <+: p) : ((files.graft dst node).detach src).get p = files.get p := by
  rw [Trie.get_detach _ h.src_ne_nil, if_neg hsrc, Trie.get_graft_other _ _ hdst]

/-- With a node for the source and none for the destination the difference stays faithful exactly
when the source is not in the base tree. -/
theorem move_faithful_iff (h : Renames T T' src dst) (hf : Faithful T₁ T files)
    (hnode : files.find src = some node) (hno : ¬files.Has dst) :
    Faithful T₁ T' ((files.graft dst node).detach src) ↔ ¬T₁.Has src := by
  rw [h.faithful_iff hf fun _ => get_move_other h.apart]
  simp only [get_move_src h.apart, get_move_dst h.apart hnode, Status.created_zero,
    Status.deleted_zero]
  have htidy : ((files.graft dst node).detach src).Tidy :=
    Trie.tidy_detach (Trie.tidy_graft hf.tidy (hf.tidy.of_find hnode)
      (hf.tidy.live h.apart.src_ne_nil hnode)) h.apart.src_ne_nil
  constructor
  · -- a path of the base that is left has to be marked as deleted
    intro ⟨_, hatsrc, _⟩ hbase
    have hdeleted := (hatsrc []).2.mpr ((List.append_nil src).symm ▸ hbase)
    exact absurd hdeleted Bool.false_ne_true
  · intro hbase
    have hsrc (r : Path) : ¬T₁.Has (src ++ r) := fun hhas => hbase hhas.above
    have hdst (r : Path) : ¬T₁.Has (dst ++ r) := fun hhas =>
      h.free_dst ((hf.no_node h.apart.dst_ne_nil hno).mpr hhas.above)
    refine ⟨htidy, fun r => by simp [hsrc r], fun r => ?_⟩
    have hne : src ++ r ≠ [] := by simp [h.apart.src_ne_nil]
    rw [hf.created_iff _ hne, hf.deleted_iff _ hne]
    simp [hsrc r, hdst r]

end Move

end Snapper.Btrfs
