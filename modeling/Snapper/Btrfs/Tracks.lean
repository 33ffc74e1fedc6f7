import Snapper.Btrfs.Commands

/-!
# Following the difference

Without renames the tree of statuses follows the difference between the base tree and the current
tree, as long as no command removes a file of the base tree that has a node already, and none
changes a file through one name while another name of it goes unnoticed.

## Main results

- `Tracks.creates`, `Tracks.removes_new`, `Tracks.removes_created`, `Tracks.alters`: what the
  changes of the tree keep
- `Tracks.step`: what one command keeps
-/

namespace Snapper.Btrfs

open General

variable {T₁ T T' : DirTree} {files : TreeNode} {p q : Path}

/-! ## Files that stay -/

theorem KeptAt.has_iff (h : KeptAt T T' q) : T'.Has q ↔ T.Has q := by
  rw [DirTree.has_iff_lookup, DirTree.has_iff_lookup]
  rw [KeptAt] at h
  cases hi : T.root.lookup q <;> cases hj : T'.root.lookup q <;> simp_all

/-- A file that a command leaves alone is there before and after, the same but for what it keeps.
-/
theorem KeptAt.lookup (h : KeptAt T T' q) {j : Inode} (hj : T'.root.lookup q = some j) :
    ∃ i, T.root.lookup q = some i ∧ i.Kept j := by
  rw [KeptAt, hj] at h
  cases hi : T.root.lookup q with
  | none => simp [hi] at h
  | some i =>
    rw [hi] at h
    exact ⟨i, rfl, h⟩

/-- A change of a file leaves the set of paths as it is. -/
theorem Alters.has_iff {i : Inode} {alter : Inode → Inode → Prop} (ha : Alters T T' p i alter)
    (q : Path) : T'.Has q ↔ T.Has q := by
  by_cases halias : ∃ j, T.root.lookup q = some j ∧ j.ino = i.ino
  · obtain ⟨j, hj, hino⟩ := halias
    obtain ⟨j', hj', -⟩ := ha.names q j hj hino
    exact iff_of_true (DirTree.has_iff_lookup.mpr ⟨j', hj'⟩) (DirTree.has_iff_lookup.mpr ⟨j, hj⟩)
  · push Not at halias
    exact (ha.others q halias).has_iff

/-! ## The invariant -/

/-- The tree of statuses follows the difference: where it has no status nothing differs. -/
structure Tracks (T₁ T : DirTree) (files : TreeNode) : Prop where
  faithful : Faithful T₁ T files
  grounded : Grounded T₁ T files
  no_type : ∀ p, (files.get p).type = false
  noticed : ∀ p i₁ i, p ≠ [] → T₁.root.lookup p = some i₁ → T.root.lookup p = some i →
    files.get p = 0 → cmpFiles i₁ i = .zero

/-- The change of a status that marks a file as modified. -/
structure Marking (f : Status → Status) : Prop where
  created : ∀ s, (f s).created = s.created
  deleted : ∀ s, (f s).deleted = s.deleted
  type : ∀ s, (f s).type = s.type
  ne_zero : ∀ s, f s ≠ 0

theorem marking_content : Marking fun status => { status with content := true } :=
  ⟨fun _ => rfl, fun _ => rfl, fun _ => rfl, fun _ h =>
    Bool.noConfusion (congrArg Status.content h)⟩

theorem marking_permissions : Marking fun status => { status with permissions := true } :=
  ⟨fun _ => rfl, fun _ => rfl, fun _ => rfl,
    fun _ h => Bool.noConfusion (congrArg Status.permissions h)⟩

theorem marking_owner : Marking fun status => { status with user := true, group := true } :=
  ⟨fun _ => rfl, fun _ => rfl, fun _ => rfl, fun _ h => Bool.noConfusion (congrArg Status.user h)⟩

/-- At the other names of the file in the current tree the base tree has nothing else, or there
is a status. -/
def OthersNoticed (T₁ T T' : DirTree) (files : TreeNode) (p : Path) : Prop :=
  ∀ q i j i₁ j', q ≠ p → T.root.lookup p = some i → T.root.lookup q = some j → j.ino = i.ino →
    T₁.root.lookup q = some i₁ → T'.root.lookup q = some j' → cmpFiles i₁ j' ≠ .zero →
      files.get q ≠ 0

namespace Tracks

/-- A file that stays is noticed as before. -/
theorem noticed_of_kept (h : Tracks T₁ T files) (hq : q ≠ []) (hkept : KeptAt T T' q)
    {i₁ j : Inode} (hi₁ : T₁.root.lookup q = some i₁) (hj : T'.root.lookup q = some j)
    (hzero : files.get q = 0) : cmpFiles i₁ j = .zero := by
  obtain ⟨i, hi, hij⟩ := hkept.lookup hj
  rw [← hij.cmpFiles_eq]
  exact h.noticed q i₁ i hq hi₁ hi hzero

/-- What a command has to do right: the status of its own path, and what other paths show. -/
theorem update (h : Tracks T₁ T files) {files' : TreeNode}
    (hrest : ∀ q, q ≠ p → files'.get q = files.get q) (htidy : files'.Tidy)
    (hground : Grounded T₁ T' files') (hother : ∀ q, q ≠ p → (T'.Has q ↔ T.Has q))
    (hcreated : (files'.get p).created = true ↔ T'.Has p ∧ ¬T₁.Has p)
    (hdeleted : (files'.get p).deleted = true ↔ T₁.Has p ∧ ¬T'.Has p)
    (htype : (files'.get p).type = false) (hmarked : files'.get p = 0 → ¬T'.Has p)
    (hnoticed : ∀ q i₁ j, q ≠ [] → q ≠ p → T₁.root.lookup q = some i₁ →
      T'.root.lookup q = some j → files.get q = 0 → cmpFiles i₁ j = .zero) :
    Tracks T₁ T' files' := by
  -- each part holds at the path by its hypothesis and elsewhere as before
  refine ⟨faithful_iff.mpr ⟨htidy, fun q hq => ?_⟩, hground, fun q => ?_, ?_⟩
  · by_cases hqp : q = p
    · subst hqp
      exact ⟨hcreated, hdeleted⟩
    · rw [hrest q hqp, hother q hqp]
      exact ⟨h.faithful.created_iff q hq, h.faithful.deleted_iff q hq⟩
  · by_cases hqp : q = p
    · subst hqp
      exact htype
    · rw [hrest q hqp]
      exact h.no_type q
  · intro q i₁ j hq hi₁ hj hzero
    by_cases hqp : q = p
    · subst hqp
      exact absurd (DirTree.has_iff_lookup.mpr ⟨j, hj⟩) (hmarked hzero)
    · rw [hrest q hqp] at hzero
      exact hnoticed q i₁ j hq hqp hi₁ hj hzero

/-- New nodes are on the way to a path of one of the trees. -/
theorem grounded_of_place (h : Tracks T₁ T files) {files' : TreeNode}
    (hhas : ∀ q, files'.Has q → files.Has q ∨ q <+: p)
    (hkept : ∀ q, T.Has q → q ≠ p → T'.Has q) (hp : T'.Has p ∨ T₁.Has p) :
    Grounded T₁ T' files' := by
  intro q hq hnode
  obtain hnode | ⟨r, rfl⟩ := hhas q hnode
  · by_cases hqp : q = p
    · exact hqp ▸ hp
    · exact (h.grounded q hq hnode).imp_left fun hT => hkept q hT hqp
  · exact hp.imp DirTree.Has.above DirTree.Has.above

/-- A creation at a path without a node, or on top of a deletion, is noted by its mark. -/
theorem creates {i : Inode} (h : Tracks T₁ T files) (hc : Creates T T' p i) :
    Tracks T₁ T' (files.place Status.touched (p, .CREATED)) := by
  have hp : p ≠ [] := by
    rintro rfl
    exact hc.free T.has_nil
  have hnew : T'.Has p := DirTree.has_iff_lookup.mpr ⟨i, hc.new⟩
  have hother (q : Path) (hq : q ≠ p) : T'.Has q ↔ T.Has q := (hc.others q hq).has_iff
  -- a node for a path that is not there stands for a file of the base
  have hnode : files.Has p ↔ T₁.Has p := by
    constructor
    · intro hhas
      exact (h.grounded p hp hhas).resolve_left hc.free
    · intro hbase
      by_contra hno
      exact hc.free ((h.faithful.no_node hp hno).mpr hbase)
  have hself : (files.place Status.touched (p, .CREATED)).get p =
      if files.Has p then (files.get p).touched else .CREATED := by
    rw [Trie.get_place, if_pos rfl]
  refine h.update (fun q hq => ?_)
    (Trie.tidy_place Status.touched_ne_zero h.faithful.tidy hp Status.CREATED_ne_zero)
    (h.grounded_of_place (fun q => (Trie.has_place files (p, .CREATED) q).mp)
      (fun q hT hq => (hother q hq).mpr hT) (Or.inl hnew)) hother ?_ ?_ ?_ ?_ ?_
  · rw [Trie.get_place, if_neg hq]
  · rw [hself]
    split_ifs with hhas
    · simp [hnode.mp hhas]
    · have hbase : ¬T₁.Has p := mt hnode.mpr hhas
      simp [hnew, hbase, Status.CREATED]
  · rw [hself]
    split_ifs
    · simp [hnew]
    · simp [hnew, Status.CREATED]
  · rw [hself]
    split_ifs
    · exact h.no_type p
    · rfl
  · rw [hself]
    split_ifs
    · exact fun hzero => absurd hzero (Status.touched_ne_zero _)
    · exact fun hzero => absurd hzero Status.CREATED_ne_zero
  · intro q i₁ j hq hqp
    exact h.noticed_of_kept hq (hc.others q hqp)

/-- A removal of a file without a node marks it as deleted; the base tree has it, as nothing was
noted. -/
theorem removes_new {i : Inode} (h : Tracks T₁ T files) (hr : Removes T T' p i)
    (hno : ¬files.Has p) : Tracks T₁ T' (files.place Status.touched (p, .DELETED)) := by
  have hfound : T.Has p := DirTree.has_iff_lookup.mpr ⟨i, hr.found⟩
  have hp : p ≠ [] := by
    rintro rfl
    exact hr.gone T'.has_nil
  have hbase : T₁.Has p := (h.faithful.no_node hp hno).mp hfound
  have hother (q : Path) (hq : q ≠ p) : T'.Has q ↔ T.Has q := (hr.others q hq).has_iff
  have hself : (files.place Status.touched (p, .DELETED)).get p = .DELETED := by
    rw [Trie.get_place, if_pos rfl, if_neg hno]
  refine h.update (fun q hq => ?_)
    (Trie.tidy_place Status.touched_ne_zero h.faithful.tidy hp Status.DELETED_ne_zero)
    (h.grounded_of_place (fun q => (Trie.has_place files (p, .DELETED) q).mp)
      (fun q hT hq => (hother q hq).mpr hT) (Or.inr hbase)) hother ?_ ?_ ?_ ?_ ?_
  · rw [Trie.get_place, if_neg hq]
  · rw [hself]
    simp [hr.gone, Status.DELETED]
  · rw [hself]
    simp [hr.gone, hbase, Status.DELETED]
  · rw [hself]
    rfl
  · exact fun _ => hr.gone
  · intro q i₁ j hq hqp
    exact h.noticed_of_kept hq (hr.others q hqp)

/-- A file that the base does not have leaves nothing behind. -/
theorem removes_created {i : Inode} (h : Tracks T₁ T files) (hr : Removes T T' p i)
    (hbase : ¬T₁.Has p) : Tracks T₁ T' (files.erase p) := by
  have hp : p ≠ [] := by
    rintro rfl
    exact hr.gone T'.has_nil
  have hother (q : Path) (hq : q ≠ p) : T'.Has q ↔ T.Has q := (hr.others q hq).has_iff
  have hself : (files.erase p).get p = 0 := by rw [Trie.get_erase files hp, if_pos rfl]
  have hrest (q : Path) (hq : q ≠ p) : (files.erase p).get q = files.get q := by
    rw [Trie.get_erase files hp, if_neg hq]
  have htidy : (files.erase p).Tidy := Trie.tidy_erase hp (h.faithful.tidy.but p)
  refine h.update hrest htidy ?_ hother ?_ ?_ ?_ ?_ ?_
  · intro q hq hhas
    -- a status that is left below is that of another file
    obtain ⟨r, hr'⟩ := (htidy.has_iff hq).mp hhas
    have hne : q ++ r ≠ p := by
      intro heq
      exact hr' (heq ▸ hself)
    rw [hrest _ hne] at hr'
    obtain hT | hT₁ := h.grounded (q ++ r) (by simp [hq]) (Trie.has_of_get hr')
    · exact Or.inl ((hother _ hne).mpr hT).above
    · exact Or.inr hT₁.above
  · simp [hself, hr.gone]
  · simp [hself, hbase]
  · rw [hself]
    rfl
  · exact fun _ => hr.gone
  · intro q i₁ j hq hqp
    exact h.noticed_of_kept hq (hr.others q hqp)

/-- A command that changes the file at a path puts a mark of its own there.  Other names of the
inode must have been noted, or look the same. -/
theorem alters {i : Inode} {alter : Inode → Inode → Prop} (h : Tracks T₁ T files)
    (ha : Alters T T' p i alter) (hp : p ≠ []) {f : Status → Status} (hf : Marking f)
    (hnoticed : OthersNoticed T₁ T T' files p) : Tracks T₁ T' (files.putValue f p) := by
  have hfound : T.Has p := DirTree.has_iff_lookup.mpr ⟨i, ha.found⟩
  have hsame : ∀ q, T'.Has q ↔ T.Has q := ha.has_iff
  have hself : (files.putValue f p).get p = f (files.get p) := by
    rw [Trie.get_putValue, if_pos rfl]
  refine h.update (p := p) (fun q hq => ?_) (Trie.tidy_putValue h.faithful.tidy (hf.ne_zero _))
    (h.grounded_of_place (fun q => (Trie.has_putValue f files p q).mp)
      (fun q hT _ => (hsame q).mpr hT) (Or.inl ((hsame p).mpr hfound))) (fun q _ => hsame q)
    ?_ ?_ ?_ ?_ ?_
  · rw [Trie.get_putValue, if_neg hq]
  · rw [hself, hf.created, hsame p]
    exact h.faithful.created_iff p hp
  · rw [hself, hf.deleted, hsame p]
    exact h.faithful.deleted_iff p hp
  · rw [hself, hf.type]
    exact h.no_type p
  · rw [hself]
    exact fun hzero => absurd hzero (hf.ne_zero _)
  · intro q i₁ j' hq hqp hi₁ hj' hzero
    -- another name of the changed file differs too
    by_cases halias : ∃ j, T.root.lookup q = some j ∧ j.ino = i.ino
    · obtain ⟨j, hj, hino⟩ := halias
      by_contra hdiffers
      exact hnoticed q i j i₁ j' hqp ha.found hj hino hi₁ hj' hdiffers hzero
    · push Not at halias
      exact h.noticed_of_kept hq (ha.others q halias) hi₁ hj' hzero

end Tracks

/-! ## One command -/

/-- What a command needs: it does not remove a file of the base tree that has a node, and what it
changes does not go unnoticed at another name. -/
def Command.Keeps (T T' : DirTree) (s : StreamProcessor) : Command → Prop
  | unlink p | rmdir p => s.files.Has p → ¬s.dir1.Has p
  | write p | clone p | truncate p | updateExtent p | chmod p _ | chown p _ _ =>
    p ≠ [] ∧ OthersNoticed s.dir1 T T' s.files p
  | mkfile _ | mkdir _ | symlink _ _ | link _ _ => True

@[simp] theorem Command.process_dir1 (s : StreamProcessor) (c : Command) :
    (c.process s).dir1 = s.dir1 := by
  cases c <;>
    first
      | exact StreamProcessor.created_dir1 _
      | exact StreamProcessor.deleted_dir1 _
      | rfl

theorem textPath_of_ne (hp : p ≠ []) : textPath p = p := if_neg hp

section Step

variable {s : StreamProcessor} (h : Tracks s.dir1 T s.files)
include h

theorem Tracks.created {i : Inode} (hc : Creates T T' p i) :
    Tracks s.dir1 T' (s.created (textPath p)).files := by
  have hp : p ≠ [] := by
    rintro rfl
    exact hc.free T.has_nil
  rw [textPath_of_ne hp, StreamProcessor.created_files]
  exact h.creates hc

/-- A removal forgets what was created and marks what the base tree has. -/
theorem Tracks.deleted {i : Inode} (hr : Removes T T' p i) (hk : s.files.Has p → ¬s.dir1.Has p) :
    Tracks s.dir1 T' (s.deleted (textPath p)).files := by
  have hp : p ≠ [] := by
    rintro rfl
    exact hr.gone T'.has_nil
  rw [textPath_of_ne hp]
  by_cases hhas : s.files.Has p
  · rw [StreamProcessor.deleted_of_has hhas]
    exact h.removes_created hr (hk hhas)
  · rw [StreamProcessor.deleted_of_not_has hhas]
    exact h.removes_new hr hhas

theorem Tracks.inserted {i : Inode} {alter : Inode → Inode → Prop} (ha : Alters T T' p i alter)
    {f : Status → Status} (hf : Marking f)
    (hk : p ≠ [] ∧ OthersNoticed s.dir1 T T' s.files p) :
    Tracks s.dir1 T' (s.insert (textPath p) f).files := by
  rw [textPath_of_ne hk.1]
  exact h.alters ha hk.1 hf hk.2

/-- One command keeps the invariant. -/
theorem Tracks.step {c : Command} (hstep : c.Step T T') (hk : c.Keeps T T' s) :
    Tracks s.dir1 T' (c.process s).files := by
  cases c with
  -- new paths, paths that go, and then paths that are changed in place
  | mkfile p =>
    obtain ⟨i, hc, -⟩ := hstep
    exact h.created hc
  | mkdir p =>
    obtain ⟨i, hc, -⟩ := hstep
    exact h.created hc
  | symlink p lnk =>
    obtain ⟨i, hc, -⟩ := hstep
    exact h.created hc
  | link p lnk =>
    obtain ⟨i, -, -, hc⟩ := hstep
    exact h.created hc
  | unlink p =>
    obtain ⟨i, hr, -⟩ := hstep
    exact h.deleted hr hk
  | rmdir p =>
    obtain ⟨i, hr, -⟩ := hstep
    exact h.deleted hr hk
  | write p =>
    obtain ⟨i, ha⟩ := hstep
    exact h.inserted ha marking_content hk
  | clone p =>
    obtain ⟨i, ha⟩ := hstep
    exact h.inserted ha marking_content hk
  | truncate p =>
    obtain ⟨i, ha⟩ := hstep
    exact h.inserted ha marking_content hk
  | updateExtent p =>
    obtain ⟨i, ha⟩ := hstep
    exact h.inserted ha marking_content hk
  | chmod p mode =>
    obtain ⟨i, ha⟩ := hstep
    exact h.inserted ha marking_permissions hk
  | chown p uid gid =>
    obtain ⟨i, ha⟩ := hstep
    exact h.inserted ha marking_owner hk

end Step

end Snapper.Btrfs
