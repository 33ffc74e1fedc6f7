import Snapper.System.Calls

/-!
# Calls on literal paths

A path with directories above it is taken literally: the call acts on the file at that
path.  For each call this module says what it comes to there when no call fails by itself.
`Sets q node kept w w'` is the effect of all of them: only the file at `q` changes.
-/

namespace Snapper

open General

/-- A path that the kernel takes literally. -/
structure Literal (fs : Fs) (q : Path) : Prop where
  ne_nil : q ≠ []
  valid : ∀ n ∈ q, ValidName n
  dirs : DirsAbove fs q

/-- Only the file at `q` changes: it becomes `node`, in place if it is `kept`. -/
structure Sets (q : Path) (node : Option Node) (kept : Bool) (w w' : World) : Prop
    extends Fs.Sets q node kept w.fs w'.fs where
  faults : w'.faults = w.faults
  canClone : w'.canClone = w.canClone
  umask : w'.umask = w.umask

theorem Fs.Sets.world {q : Path} {node : Option Node} {kept : Bool} {w : World} {fs' : Fs}
    (h : Fs.Sets q node kept w.fs fs') : Snapper.Sets q node kept w { w with fs := fs' } :=
  ⟨h, rfl, rfl, rfl⟩

namespace Sets

variable {q : Path} {node node' : Option Node} {kept kept' : Bool} {w w' w'' : World}

theorem trans (h : Sets q node kept w w') (h' : Sets q node' kept' w' w'')
    (hkept : kept = true → kept' = true) : Sets q node' kept w w'' where
  toSets := h.toSets.trans h'.toSets hkept
  faults := h'.faults.trans h.faults
  canClone := h'.canClone.trans h.canClone
  umask := h'.umask.trans h.umask

theorem refl (h : w.fs.find q = node) : Sets q node true w w where
  toSets := Fs.Sets.refl h
  faults := rfl
  canClone := rfl
  umask := rfl

theorem literal (h : Sets q node kept w w') (hq : Literal w.fs q) : Literal w'.fs q where
  ne_nil := hq.ne_nil
  valid := hq.valid
  dirs := fun r hr hne => h.isDir hne (hq.dirs r hr hne)

end Sets

/-- The parent of a literal path. -/
theorem Literal.isDir_dropLast {fs : Fs} {q : Path} (h : Literal fs q) :
    fs.isDir q.dropLast = true := by
  refine h.dirs _ (List.dropLast_prefix q) ?_
  intro heq
  have hlen := congrArg List.length heq
  have hpos := List.length_pos_iff.mpr h.ne_nil
  rw [List.length_dropLast] at hlen
  omega

/-- Above a file that exists there are directories. -/
theorem literal_of_find {fs : Fs} {q : Path} {n : Node} (hq : q ≠ [])
    (hvalid : ∀ n ∈ q, ValidName n) (hn : fs.find q = some n) : Literal fs q where
  ne_nil := hq
  valid := hvalid
  dirs := by
    intro r hr hne
    obtain ⟨s, rfl⟩ := hr
    refine Fs.isDir_of_find_append ?_ hn
    intro hs
    exact hne (by rw [hs, List.append_nil])

section Literal

variable {w : World} {q : Path} {n : Node}

theorem resolve_literal (hq : Literal w.fs q) :
    resolve w.fs false (pathName q) = .ok q :=
  resolve_of_dirs hq.ne_nil hq.valid hq.dirs (Or.inl rfl)

theorem resolve_literal_follow (hq : Literal w.fs q) (hlnk : w.fs.isLnk q = false) :
    resolve w.fs true (pathName q) = .ok q :=
  resolve_of_dirs hq.ne_nil hq.valid hq.dirs (Or.inr hlnk)

private theorem not_isLnk_of_find (hn : w.fs.find q = some n) (hfmt : n.fmt ≠ .lnk) :
    w.fs.isLnk q = false := by
  simp [Fs.isLnk, hn, hfmt]

private theorem not_isLnk_of_none (hn : w.fs.find q = none) : w.fs.isLnk q = false := by
  simp [Fs.isLnk, hn]

/-! ## Looking -/

theorem Fs.lstat_literal (hq : Literal w.fs q) (hn : w.fs.find q = some n) :
    (w.fs.stat false (pathName q)).map (fun n => (n, w.fs)) = .ok (n, w.fs) := by
  simp [Fs.stat, resolve_literal hq, hn, bind, Except.bind, Except.map]

theorem lstat_literal (hw : w.faults = []) (hq : Literal w.fs q) (hn : w.fs.find q = some n) :
    (lstat (pathName q)).run w = (.ok n, w) := by
  unfold lstat
  rw [syscall_ok hw (Fs.lstat_literal hq hn)]

theorem stat_literal (hw : w.faults = []) (hq : Literal w.fs q) (hn : w.fs.find q = some n)
    (hfmt : n.fmt ≠ .lnk) : (stat (pathName q)).run w = (.ok n, w) := by
  unfold stat
  rw [syscall_ok hw]
  simp [Fs.stat, resolve_literal_follow hq (not_isLnk_of_find hn hfmt), hn, bind, Except.bind,
    Except.map]

/-! ## Removing -/

/-- An empty directory is removed. -/
theorem rmdir_literal (hw : w.faults = []) (hq : Literal w.fs q) (hn : w.fs.find q = some n)
    (hfmt : n.fmt = .dir) (hempty : w.fs.hasChild q = false) :
    ∃ w', (rmdir (pathName q)).run w = (.ok (), w') ∧ Sets q none false w w' := by
  have hcall : w.fs.rmdir (pathName q) = .ok (w.fs.remove q ⟨hq.ne_nil, hempty⟩) := by
    simp [Fs.rmdir, resolve_literal hq, hn, hfmt, hq.ne_nil, hempty, bind, Except.bind]
  refine ⟨_, ?_, (Fs.sets_remove ⟨hq.ne_nil, hempty⟩).world⟩
  unfold rmdir
  apply syscall_ok hw
  rw [hcall]
  rfl

theorem Fs.unlink_literal (hq : Literal w.fs q) (hn : w.fs.find q = some n)
    (hfmt : n.fmt ≠ .dir) : ∃ h, w.fs.unlink (pathName q) = .ok (w.fs.remove q h) := by
  have hdir : w.fs.isDir q = false := by simp [Fs.isDir, hn, hfmt]
  have hempty := Fs.hasChild_of_not_dir hdir
  refine ⟨⟨hq.ne_nil, hempty⟩, ?_⟩
  simp [Fs.unlink, resolve_literal hq, hn, hfmt, hq.ne_nil, hempty, bind, Except.bind]

/-- Any other file is unlinked; of several names this one goes. -/
theorem unlink_literal (hw : w.faults = []) (hq : Literal w.fs q) (hn : w.fs.find q = some n)
    (hfmt : n.fmt ≠ .dir) :
    ∃ w', (unlink (pathName q)).run w = (.ok (), w') ∧ Sets q none false w w' := by
  obtain ⟨h, hcall⟩ := Fs.unlink_literal hq hn hfmt
  refine ⟨_, ?_, (Fs.sets_remove h).world⟩
  unfold unlink
  apply syscall_ok hw
  rw [hcall]
  rfl

/-! ## Making -/

theorem make_literal (hq : Literal w.fs q) (hn : w.fs.find q = none) (fmt : FileType)
    (perm : BitVec 12) (data : Str) :
    ∃ fs', w.fs.make q fmt perm data = .ok fs' ∧
      Sets q (some (w.fs.newNode q fmt perm data)) false w { w with fs := fs' } := by
  have h : w.fs.find q = none ∧ w.fs.isDir q.dropLast = true := ⟨hn, hq.isDir_dropLast⟩
  exact ⟨w.fs.create q _ h, by rw [Fs.make, dif_pos h], (Fs.sets_create h).world⟩

/-- A directory is made at a free path. -/
theorem mkdir_literal (hw : w.faults = []) (hq : Literal w.fs q) (hn : w.fs.find q = none)
    (mode : BitVec 12) :
    ∃ w' d, (mkdir (pathName q) mode).run w = (.ok (), w') ∧ Sets q (some d) false w w' ∧
      d.fmt = .dir ∧ d.data = [] := by
  obtain ⟨fs', hmake, hsets⟩ := make_literal hq hn .dir (mode &&& ~~~w.umask) []
  refine ⟨{ w with fs := fs' }, _, ?_, hsets, rfl, rfl⟩
  unfold mkdir
  apply syscall_ok hw
  simp [Fs.mkdir, resolve_literal hq, hmake, bind, Except.bind]
  rfl

/-- A symlink is made at a free path, with its target and all permission bits. -/
theorem symlink_literal (hw : w.faults = []) (hq : Literal w.fs q) (hn : w.fs.find q = none)
    {target : Str} (htarget : target ≠ []) (hnul : 0 ∉ target) :
    ∃ w' l, (symlink target (pathName q)).run w = (.ok (), w') ∧ Sets q (some l) false w w' ∧
      l.fmt = .lnk ∧ l.data = target ∧ l.perm = S_IRWXUGO := by
  obtain ⟨fs', hmake, hsets⟩ := make_literal hq hn .lnk S_IRWXUGO target
  refine ⟨{ w with fs := fs' }, _, ?_, hsets, rfl, rfl, rfl⟩
  unfold symlink
  apply syscall_ok hw
  simp [Fs.symlink, resolve_literal hq, hmake, cstr_of_no_nul hnul, htarget, bind, Except.bind]
  rfl

/-- At a free path the call makes an empty regular file. -/
theorem openTrunc_literal (hw : w.faults = []) (hq : Literal w.fs q) (hn : w.fs.find q = none)
    (mode : BitVec 12) :
    ∃ w' f, (openTrunc (pathName q) mode).run w = (.ok q, w') ∧ Sets q (some f) false w w' ∧
      f.fmt = .reg ∧ f.data = [] := by
  obtain ⟨fs', hmake, hsets⟩ := make_literal hq hn .reg (mode &&& ~~~w.umask) []
  refine ⟨{ w with fs := fs' }, _, ?_, hsets, rfl, rfl⟩
  unfold openTrunc
  apply syscall_ok hw
  simp [Fs.openTrunc, resolve_literal_follow hq (not_isLnk_of_none hn), hn, hmake, bind,
    Except.bind, pure, Except.pure]

/-- A fifo or a device is opened as it is. -/
theorem openTrunc_special (hw : w.faults = []) (hq : Literal w.fs q) (hn : w.fs.find q = some n)
    (hfmt : n.fmt = .fifo ∨ n.fmt = .blk ∨ n.fmt = .chr) (mode : BitVec 12) :
    (openTrunc (pathName q) mode).run w = (.ok q, w) := by
  have hlnk : n.fmt ≠ .lnk := by
    obtain h | h | h := hfmt <;> rw [h] <;> decide
  have hopen : w.fs.openTrunc w.umask (pathName q) mode = .ok (q, w.fs) := by
    obtain h | h | h := hfmt
    all_goals simp [Fs.openTrunc, resolve_literal_follow hq (not_isLnk_of_find hn hlnk), hn, h,
      bind, Except.bind, pure, Except.pure]
  unfold openTrunc
  rw [syscall_ok hw hopen]

/-! ## Changing -/

/-- The mode of what is no symlink is set, under all of its names. -/
theorem chmod_literal (hw : w.faults = []) (hq : Literal w.fs q) (hn : w.fs.find q = some n)
    (hfmt : n.fmt ≠ .lnk) (mode : BitVec 12) :
    ∃ w', (chmod (pathName q) mode).run w = (.ok (), w') ∧
      Sets q (some (n.chmod mode)) true w w' := by
  refine ⟨_, ?_, (Fs.sets_modify (Node.chmod_fmt mode) hn).world⟩
  unfold chmod
  apply syscall_ok hw
  simp [Fs.change, resolve_literal_follow hq (not_isLnk_of_find hn hfmt), hn, bind, Except.bind]
  rfl

/-- The owner of what is no symlink is set, under all of its names. -/
theorem chown_literal (hw : w.faults = []) (hq : Literal w.fs q) (hn : w.fs.find q = some n)
    (hfmt : n.fmt ≠ .lnk) (owner group : Nat) :
    ∃ w', (chown (pathName q) owner group).run w = (.ok (), w') ∧
      Sets q (some (n.chown owner group)) true w w' := by
  refine ⟨_, ?_, (Fs.sets_modify (Node.chown_fmt owner group) hn).world⟩
  unfold chown
  apply syscall_ok hw
  simp [Fs.change, resolve_literal_follow hq (not_isLnk_of_find hn hfmt), hn, bind, Except.bind]
  rfl

/-- The owner of whatever is there is set, of a symlink itself. -/
theorem lchown_literal (hw : w.faults = []) (hq : Literal w.fs q) (hn : w.fs.find q = some n)
    (owner group : Nat) :
    ∃ w', (lchown (pathName q) owner group).run w = (.ok (), w') ∧
      Sets q (some (n.chown owner group)) true w w' := by
  refine ⟨_, ?_, (Fs.sets_modify (Node.chown_fmt owner group) hn).world⟩
  unfold lchown
  apply syscall_ok hw
  simp [Fs.change, resolve_literal hq, hn, bind, Except.bind]
  rfl

/-! ## Open files -/

theorem fchmod_sets (hw : w.faults = []) (hn : w.fs.find q = some n) (mode : BitVec 12) :
    ∃ w', (fchmod q mode).run w = (.ok (), w') ∧ Sets q (some (n.chmod mode)) true w w' :=
  ⟨_, syscall_ok hw rfl, (Fs.sets_modify (Node.chmod_fmt mode) hn).world⟩

theorem fchown_sets (hw : w.faults = []) (hn : w.fs.find q = some n) (owner group : Nat) :
    ∃ w', (fchown q owner group).run w = (.ok (), w') ∧
      Sets q (some (n.chown owner group)) true w w' :=
  ⟨_, syscall_ok hw rfl, (Fs.sets_modify (Node.chown_fmt owner group) hn).world⟩

theorem sets_writeData (hn : w.fs.find q = some n) (hfmt : n.fmt = .reg) (f : Str → Str) :
    Sets q (some { n with data := f n.data }) true w { w with fs := w.fs.writeData q f } := by
  have hsets := Fs.sets_modify
    (f := fun n => if n.fmt = .reg then { n with data := f n.data } else n)
    (fun n => by split <;> rfl) hn
  rw [if_pos hfmt] at hsets
  exact hsets.world

/-- Where the file system can clone, the call replaces the content of the open file. -/
theorem ioctlClone_sets (hw : w.faults = []) (hn : w.fs.find q = some n) (hfmt : n.fmt = .reg)
    (hclone : w.canClone = true) (src : Str) :
    ∃ w', (ioctlClone q src).run w = (.ok (), w') ∧
      Sets q (some { n with data := src }) true w w' := by
  refine ⟨_, ?_, sets_writeData hn hfmt fun _ => src⟩
  unfold ioctlClone
  apply syscall_ok hw
  simp [hclone, hn, hfmt]

theorem ioctlClone_unsupported (hw : w.faults = []) (hclone : w.canClone = false) (fd : Path)
    (src : Str) : (ioctlClone fd src).run w = (.error .einval, w) := by
  unfold ioctlClone
  apply syscall_error hw
  simp [hclone]

theorem sendfile_sets (hw : w.faults = []) (hn : w.fs.find q = some n) (hfmt : n.fmt = .reg)
    (src : Str) (count : Nat) :
    ∃ w', (sendfile q src count).run w = (.ok (src.take count).length, w') ∧
      Sets q (some { n with data := n.data ++ src.take count }) true w w' :=
  ⟨_, syscall_ok hw rfl, sets_writeData hn hfmt fun data => data ++ src.take count⟩

/-- What is written to anything but a regular file is gone. -/
theorem sets_writeData_special (hn : w.fs.find q = some n) (hfmt : n.fmt ≠ .reg) (f : Str → Str) :
    Sets q (some n) true w { w with fs := w.fs.writeData q f } := by
  have hsets := Fs.sets_modify
    (f := fun n => if n.fmt = .reg then { n with data := f n.data } else n)
    (fun n => by split <;> rfl) hn
  rw [if_neg hfmt] at hsets
  exact hsets.world

theorem ioctlClone_special (hw : w.faults = []) (hn : w.fs.find q = some n) (hfmt : n.fmt ≠ .reg)
    (src : Str) : (ioctlClone q src).run w = (.error .einval, w) := by
  unfold ioctlClone
  apply syscall_error hw
  simp [hn, hfmt]

theorem sendfile_special (hw : w.faults = []) (hn : w.fs.find q = some n) (hfmt : n.fmt ≠ .reg)
    (src : Str) (count : Nat) :
    ∃ w', (sendfile q src count).run w = (.ok (src.take count).length, w') ∧
      Sets q (some n) true w w' :=
  ⟨_, syscall_ok hw rfl, sets_writeData_special hn hfmt fun data => data ++ src.take count⟩

end Literal

end Snapper
