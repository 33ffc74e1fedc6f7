import Snapper.General.Cmd
import Snapper.Base.AsciiFile
import Snapper.System.Resolve

/-!
# System calls

The calls the undo makes, issued as root.  A call that changes something takes effect as
a whole or not at all.  Besides what the directory tree decides, any call may fail with
`EIO`: which ones do is part of the state.

## What the calls do to owner and mode

- `chown`, `lchown` and `fchown` clear set-user-ID, and set-group-ID where the group may
  execute the file, unless the file is a directory
- a directory made below one with set-group-ID inherits it and its group
-/

namespace Snapper

open General

/-- The running system. -/
structure World where
  fs : Fs
  /-- Whether the next calls fail; the calls after the end of the list do not. -/
  faults : List Bool
  /-- Whether the file system clones files. -/
  canClone : Bool
  umask : BitVec 12

/-- `!= 0`, or `< 0` for a file descriptor -/
def failed {α : Type} : Except Errno α → Bool
  | .error _ => true
  | .ok _ => false

/-- One system call: `f` is what it does when it does not fail. -/
def syscall {α : Type} (f : World → Except Errno (α × Fs)) : Cmd World (Except Errno α) :=
  ⟨fun w =>
    let w' := { w with faults := w.faults.tail }
    if w.faults.head? = some true then (.error .eio, w')
    else
      match f w with
      | .error e => (.error e, w')
      | .ok (a, fs) => (.ok a, { w' with fs := fs })⟩

/-! ## Modes and owners -/

def S_ISUID : BitVec 12 := 0o4000

def S_ISGID : BitVec 12 := 0o2000

def S_IXGRP : BitVec 12 := 0o0010

/-- The mode of every symlink. -/
def S_IRWXUGO : BitVec 12 := 0o0777

/-- The mode bits that are left after a change of the owner. -/
def clearIds (perm : BitVec 12) : BitVec 12 :=
  if perm &&& S_IXGRP ≠ 0 then perm &&& ~~~(S_ISUID ||| S_ISGID) else perm &&& ~~~S_ISUID

def Node.chmod (mode : BitVec 12) (n : Node) : Node := { n with perm := mode }

/-- `chown` clears the setuid and setgid bits of what is no directory. -/
def Node.chown (owner group : Nat) (n : Node) : Node :=
  { n with uid := owner, gid := group, perm := if n.fmt = .dir then n.perm else clearIds n.perm }

@[simp] theorem Node.chmod_fmt (mode : BitVec 12) (n : Node) : (n.chmod mode).fmt = n.fmt := rfl

@[simp] theorem Node.chown_fmt (owner group : Nat) (n : Node) :
    (n.chown owner group).fmt = n.fmt := rfl

/-- Whether the directory of a path has set-group-ID. -/
def Fs.inheritsGroup (fs : Fs) (q : Path) : Bool :=
  (fs.find q.dropLast).any fun d => d.perm &&& S_ISGID ≠ 0

/-- A new file at `q`. -/
def Fs.newNode (fs : Fs) (q : Path) (fmt : FileType) (perm : BitVec 12) (data : Str) : Node :=
  { fmt := fmt
    perm := if fmt = .dir ∧ fs.inheritsGroup q then perm ||| S_ISGID else perm
    uid := 0
    gid := if fs.inheritsGroup q then ((fs.find q.dropLast).map Node.gid).getD 0 else 0
    data := data }

/-! ## The calls, on the directory tree -/

namespace Fs

/-- Put a new file at a resolved path; a path that is missing is missing from a directory. -/
def make (fs : Fs) (q : Path) (fmt : FileType) (perm : BitVec 12) (data : Str) :
    Except Errno Fs :=
  if h : fs.find q = none ∧ fs.isDir q.dropLast = true then
    .ok (fs.create q (fs.newNode q fmt perm data) h)
  else .error .eexist

/-- `stat` and `lstat`, which differ in whether the last link is followed. -/
def stat (fs : Fs) (follow : Bool) (path : Str) : Except Errno Node := do
  let q ← resolve fs follow path
  match fs.find q with
  | none => .error .enoent
  | some n => .ok n

/-- `mkdir`, with the umask taken from the mode. -/
def mkdir (fs : Fs) (umask : BitVec 12) (path : Str) (mode : BitVec 12) : Except Errno Fs := do
  let q ← resolve fs false path
  fs.make q .dir (mode &&& ~~~umask) []

/-- `symlink`, which stops at a NUL of the target and takes no empty one. -/
def symlink (fs : Fs) (target path : Str) : Except Errno Fs := do
  if cstr target = [] then throw .enoent
  let q ← resolve fs false path
  fs.make q .lnk S_IRWXUGO (cstr target)

/-- `rmdir` takes empty directories only. -/
def rmdir (fs : Fs) (path : Str) : Except Errno Fs := do
  let q ← resolve fs false path
  match fs.find q with
  | none => .error .enoent
  | some n =>
    if n.fmt ≠ .dir then .error .enotdir
    else if hroot : q = [] then .error .ebusy
    else if hempty : fs.hasChild q = false then .ok (fs.remove q ⟨hroot, hempty⟩)
    else .error .enotempty

/-- `unlink` takes everything but directories. -/
def unlink (fs : Fs) (path : Str) : Except Errno Fs := do
  let q ← resolve fs false path
  match fs.find q with
  | none => .error .enoent
  | some n =>
    if h : n.fmt ≠ .dir ∧ q ≠ [] ∧ fs.hasChild q = false then .ok (fs.remove q h.2)
    else .error .eisdir

/-- `chmod`, `chown` and `lchown` -/
def change (fs : Fs) (follow : Bool) (path : Str) (f : Node → Node)
    (hf : ∀ n, (f n).fmt = n.fmt) : Except Errno Fs := do
  let q ← resolve fs follow path
  match fs.find q with
  | none => .error .enoent
  | some _ => .ok (fs.modify q f hf)

/-- `open` with `O_WRONLY | O_CREAT | O_TRUNC`; the descriptor stands for the file opened.
A fifo has a reader and a device a driver. -/
def openTrunc (fs : Fs) (umask : BitVec 12) (path : Str) (mode : BitVec 12) :
    Except Errno (Path × Fs) := do
  let q ← resolve fs true path
  match fs.find q with
  | none =>
    let fs ← fs.make q .reg (mode &&& ~~~umask) []
    return (q, fs)
  | some n =>
    match n.fmt with
    | .reg => return (q, fs.modify q (fun n => { n with data := [] }) fun _ => rfl)
    | .dir => .error .eisdir
    | .sock => .error .enxio
    | .lnk => .error .eloop
    | .fifo | .blk | .chr => return (q, fs)

/-- Write to an open file; only a regular file keeps what is written. -/
def writeData (fs : Fs) (fd : Path) (f : Str → Str) : Fs :=
  fs.modify fd (fun n => if n.fmt = .reg then { n with data := f n.data } else n)
    fun n => by split <;> rfl

end Fs

/-! ## The calls -/

/-- The result of a call that returns nothing but success. -/
def unit (fs : Except Errno Fs) : Except Errno (Unit × Fs) := fs.map fun fs => ((), fs)

theorem unit_eq_ok {x : Except Errno Fs} {a : Unit} {fs : Fs} :
    unit x = .ok (a, fs) ↔ x = .ok fs := by
  cases x <;> simp [unit, Except.map]

def lstat (path : Str) : Cmd World (Except Errno Node) :=
  syscall fun w => (w.fs.stat false path).map fun n => (n, w.fs)

def stat (path : Str) : Cmd World (Except Errno Node) :=
  syscall fun w => (w.fs.stat true path).map fun n => (n, w.fs)

def mkdir (path : Str) (mode : BitVec 12) : Cmd World (Except Errno Unit) :=
  syscall fun w => unit (w.fs.mkdir w.umask path mode)

def rmdir (path : Str) : Cmd World (Except Errno Unit) :=
  syscall fun w => unit (w.fs.rmdir path)

def unlink (path : Str) : Cmd World (Except Errno Unit) :=
  syscall fun w => unit (w.fs.unlink path)

def symlink (target path : Str) : Cmd World (Except Errno Unit) :=
  syscall fun w => unit (w.fs.symlink target path)

def chmod (path : Str) (mode : BitVec 12) : Cmd World (Except Errno Unit) :=
  syscall fun w => unit (w.fs.change true path (Node.chmod mode) (Node.chmod_fmt mode))

def chown (path : Str) (owner group : Nat) : Cmd World (Except Errno Unit) :=
  syscall fun w =>
    unit (w.fs.change true path (Node.chown owner group) (Node.chown_fmt owner group))

def lchown (path : Str) (owner group : Nat) : Cmd World (Except Errno Unit) :=
  syscall fun w =>
    unit (w.fs.change false path (Node.chown owner group) (Node.chown_fmt owner group))

def openTrunc (path : Str) (mode : BitVec 12) : Cmd World (Except Errno Path) :=
  syscall fun w => w.fs.openTrunc w.umask path mode

def fchmod (fd : Path) (mode : BitVec 12) : Cmd World (Except Errno Unit) :=
  syscall fun w => .ok ((), w.fs.modify fd (Node.chmod mode) (Node.chmod_fmt mode))

def fchown (fd : Path) (owner group : Nat) : Cmd World (Except Errno Unit) :=
  syscall fun w =>
    .ok ((), w.fs.modify fd (Node.chown owner group) (Node.chown_fmt owner group))

/-- `ioctl(dest_fd, BTRFS_IOC_CLONE, src_fd)`; `src` is what `src_fd` holds. -/
def ioctlClone (fd : Path) (src : Str) : Cmd World (Except Errno Unit) :=
  syscall fun w =>
    if w.canClone ∧ ((w.fs.find fd).any fun n => n.fmt = .reg) = true then
      .ok ((), w.fs.writeData fd fun _ => src)
    else .error .einval

/-- `sendfile` of at most `count` bytes, when `src` is left to read from `src_fd`; the
number of bytes sent. -/
def sendfile (fd : Path) (src : Str) (count : Nat) : Cmd World (Except Errno Nat) :=
  syscall fun w =>
    .ok ((src.take count).length, w.fs.writeData fd fun data => data ++ src.take count)

/-! ## What a call can come to -/

section Syscall

variable {α : Type} {f : World → Except Errno (α × Fs)}

/-- A call does what it does, or it fails and changes nothing. -/
theorem syscall_cases (f : World → Except Errno (α × Fs)) (w : World) :
    (∃ a fs, f w = .ok (a, fs) ∧
      (syscall f).run w = (.ok a, { w with fs := fs, faults := w.faults.tail })) ∨
    (∃ e, (f w = .error e ∨ e = .eio) ∧
      (syscall f).run w = (.error e, { w with faults := w.faults.tail })) := by
  unfold syscall
  by_cases hfault : w.faults.head? = some true
  · right
    exact ⟨.eio, Or.inr rfl, by simp [hfault]⟩
  · simp only [hfault, if_false]
    cases hf : f w with
    | error e => exact Or.inr ⟨e, Or.inl rfl, rfl⟩
    | ok r => exact Or.inl ⟨r.1, r.2, rfl, rfl⟩

/-- A call that is not made to fail does what it does. -/
theorem syscall_of_not_fault {w : World} (hw : w.faults.head? ≠ some true) {a : α} {fs : Fs}
    (h : f w = .ok (a, fs)) :
    (syscall f).run w = (.ok a, { w with fs := fs, faults := w.faults.tail }) := by
  unfold syscall
  simp [hw, h]

theorem syscall_ok {w : World} (hw : w.faults = []) {a : α} {fs : Fs} (h : f w = .ok (a, fs)) :
    (syscall f).run w = (.ok a, { w with fs := fs }) := by
  rw [syscall_of_not_fault (by simp [hw]) h]
  cases w
  simp_all

theorem syscall_error {w : World} (hw : w.faults = []) {e : Errno} (h : f w = .error e) :
    (syscall f).run w = (.error e, w) := by
  unfold syscall
  cases w
  simp_all

/-- A call from what it does when it succeeds; a failed call changes nothing. -/
theorem syscall_triple {P : World → Prop} {Q : Except Errno α → World → Prop}
    (hok : ∀ w a fs, P w → f w = .ok (a, fs) →
      Q (.ok a) { w with fs := fs, faults := w.faults.tail })
    (herr : ∀ w e, P w → Q (.error e) { w with faults := w.faults.tail }) :
    Cmd.Triple P (syscall f) Q := by
  intro w hw
  obtain ⟨a, fs, hf, hrun⟩ | ⟨e, _, hrun⟩ := syscall_cases f w
  · rw [hrun]
    exact hok w a fs hw hf
  · rw [hrun]
    exact herr w e hw

/-- A property of the tree that a call keeps when it succeeds is kept by the call. -/
theorem syscall_keeps {I : Fs → Prop}
    (h : ∀ w a fs, I w.fs → f w = .ok (a, fs) → I fs) :
    Cmd.Keeps (fun w => I w.fs) (syscall f) :=
  syscall_triple h fun _ _ hw => hw

theorem syscall_keeps_faults : Cmd.Keeps (fun w => w.faults = []) (syscall f) :=
  syscall_triple (fun w _ _ hw _ => by simp [hw]) fun w _ hw => by simp [hw]

end Syscall

end Snapper
