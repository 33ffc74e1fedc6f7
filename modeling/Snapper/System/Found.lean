import Snapper.System.Outcome

/-!
# What is found at a path

The file that `lstat` shows for a path string, wherever symlinks on the way lead.
`Has fs path s` says that there is a file of the given type and content, `Absent fs path`
that there is none.  For each call of the undo this module says what becomes of that.
-/

namespace Snapper

open General

namespace Fs

/-- `lstat` shows a file of type and content `s`. -/
def Has (path : Str) (s : FileType × Str) (fs : Fs) : Prop :=
  ∃ n, fs.stat false path = .ok n ∧ n.shape = s

/-- `lstat` fails. -/
def Absent (path : Str) (fs : Fs) : Prop := ∀ n, fs.stat false path ≠ .ok n

variable {fs fs' : Fs} {path : Str} {q : Path} {n : Node} {s : FileType × Str}

theorem stat_eq_ok {follow : Bool} :
    fs.stat follow path = .ok n ↔ ∃ q, resolve fs follow path = .ok q ∧ fs.find q = some n := by
  refine ⟨stat_ok, fun ⟨q, hres, hn⟩ => ?_⟩
  simp [stat, hres, hn, bind, Except.bind]

/-- A path has a shape when it leads, without following a symlink at its end, to a file of this
shape. -/
theorem has_iff :
    fs.Has path s ↔ ∃ q, resolve fs false path = .ok q ∧ fs.shape q = some s := by
  unfold Has shape
  constructor
  · intro ⟨n, hstat, hs⟩
    obtain ⟨q, hres, hn⟩ := stat_ok hstat
    exact ⟨q, hres, by rw [hn, ← hs]; rfl⟩
  · intro ⟨q, hres, hs⟩
    obtain ⟨n, hn, hs⟩ := Option.map_eq_some_iff.mp hs
    exact ⟨n, stat_eq_ok.mpr ⟨q, hres, hn⟩, hs⟩

theorem Absent.find (h : fs.Absent path) (hres : resolve fs false path = .ok q) :
    fs.find q = none := by
  cases hn : fs.find q with
  | none => rfl
  | some n => exact absurd (stat_eq_ok.mpr ⟨q, hres, hn⟩) (h n)

/-- Where nothing is found, calls that follow symlinks come to the same place. -/
theorem Absent.resolve (h : fs.Absent path) (hres : resolve fs true path = .ok q) :
    Snapper.resolve fs false path = .ok q ∧ fs.find q = none := by
  obtain ⟨q', hres', heq | hlnk⟩ := resolve_stop hres
  · subst heq
    exact ⟨hres', h.find hres'⟩
  · have hfree := h.find hres'
    obtain ⟨n, hn, _⟩ := isLnk_iff.mp hlnk
    rw [hfree] at hn
    cases hn

/-- A file that is no symlink is also found by calls that follow symlinks. -/
theorem Has.resolve (h : fs.Has path s) (hs : s.1 ≠ .lnk) (hres : resolve fs true path = .ok q) :
    fs.shape q = some s := by
  obtain ⟨r, hr, hshape⟩ := has_iff.mp h
  obtain ⟨q', hres', heq | hlnk⟩ := resolve_stop hres
  · rw [hr] at hres'
    cases hres'
    exact heq ▸ hshape
  · rw [hr] at hres'
    cases hres'
    obtain ⟨n, hn, hfmt⟩ := isLnk_iff.mp hlnk
    rw [Fs.shape, hn] at hshape
    cases hshape
    exact absurd hfmt hs

/-! ## Trees that grow -/

/-- The files of `fs` are in `fs'`, of the same types and contents. -/
def Grows (fs fs' : Fs) : Prop := ∀ q s, fs.shape q = some s → fs'.shape q = some s

theorem Grows.extends (h : Grows fs fs') : Extends fs fs' := by
  intro q n hn
  have hshape : fs'.shape q = some n.shape := h q n.shape (by rw [shape, hn]; rfl)
  obtain ⟨n', hn', heq⟩ := Option.map_eq_some_iff.mp hshape
  exact ⟨n', hn', congrArg Prod.fst heq, fun _ => congrArg Prod.snd heq⟩

theorem Grows.has (h : Grows fs fs') (hhas : fs.Has path s) : fs'.Has path s := by
  obtain ⟨q, hres, hs⟩ := has_iff.mp hhas
  exact has_iff.mpr ⟨q, resolve_mono h.extends (Or.inl rfl) hres, h q s hs⟩

/-- With a new file the file system grows. -/
theorem grows_of_new {node : Node} (hfree : fs.find q = none)
    (hsets : Sets q (some node) false fs fs') : Grows fs fs' := by
  intro r s hs
  have hr : r ≠ q := by
    intro hrq
    rw [hrq, shape, hfree] at hs
    cases hs
  rw [shape, hsets.find, Function.update_of_ne hr]
  exact hs

/-- A change of mode or owner makes no path lead elsewhere. -/
theorem grows_of_change {n' : Node} (hn : fs.find q = some n) (hshape : n'.shape = n.shape)
    (hsets : Sets q (some n') true fs fs') : Grows fs fs' := by
  intro r s hs
  obtain ⟨hset, hname⟩ | ⟨hsame, _⟩ := hsets.find_cases r
  · -- the other names of the file show the same
    have hlinked : fs.Linked q r := by
      obtain rfl | ⟨-, hlinked⟩ := hname
      · exact linked_self hn
      · exact hlinked
    rw [shape, hlinked.find, hn] at hs
    rw [shape, hset, Option.map_some, hshape]
    exact hs
  · rw [shape, hsame]
    exact hs

/-- A new file is found. -/
theorem has_of_new {node : Node} (hres : Snapper.resolve fs false path = .ok q)
    (hfree : fs.find q = none) (hsets : Sets q (some node) false fs fs') :
    fs'.Has path node.shape := by
  refine has_iff.mpr ⟨q, resolve_mono (grows_of_new hfree hsets).extends (Or.inl rfl) hres, ?_⟩
  rw [shape, hsets.self]
  rfl

/-- A removed file is not found. -/
theorem absent_of_removed (hres : Snapper.resolve fs false path = .ok q)
    (hsets : Sets q none false fs fs') : fs'.Absent path := by
  have hfind := hsets.find
  intro n hn
  obtain ⟨r, hres', hr⟩ := stat_ok hn
  -- the files that are left were there before
  have hext : Extends fs' fs := by
    intro r n hn
    have hrq : r ≠ q := by
      intro hrq
      rw [hrq, hfind, Function.update_self] at hn
      cases hn
    rw [hfind, Function.update_of_ne hrq] at hn
    exact ⟨n, hn, rfl, fun _ => rfl⟩
  have hold := resolve_mono hext (Or.inl rfl) hres'
  rw [hres] at hold
  cases hold
  rw [hfind, Function.update_self] at hr
  cases hr

/-- A directory made on the way to a path is empty, so nothing is found beyond it. -/
theorem absent_of_mkdir {r p : Path} (hr : ∀ n ∈ r, ValidName n) (hp : ∀ n ∈ p, ValidName n)
    (hne : p ≠ []) {d : Node} (hres : Snapper.resolve fs false (pathName r) = .ok q)
    (hfree : fs.find q = none) (hd : d.fmt = .dir)
    (hsets : Sets q (some d) false fs fs') :
    fs'.Absent (pathName (r ++ p)) := by
  have hfind := hsets.find
  intro n hn
  obtain ⟨s, hres', hs⟩ := stat_ok hn
  have hnew := resolve_mono (grows_of_new hfree hsets).extends (Or.inl rfl) hres
  have hvalid : ∀ n ∈ r ++ p, ValidName n := by
    intro n hn
    exact (List.mem_append.mp hn).elim (hr n) (hp n)
  unfold Snapper.resolve at hnew hres'
  split at hnew
  · cases hnew
  · split at hres'
    · cases hres'
    · rw [components_pathName hr] at hnew
      rw [components_pathName hvalid] at hres'
      have hdir : fs'.isDir q = true :=
        isDir_iff.mpr ⟨d, by rw [hfind, Function.update_self], hd⟩
      -- the walk comes through the new directory, which has no entries
      obtain ⟨links, hwalk⟩ := walk_append p hdir hnew
      rw [hwalk] at hres'
      cases p with
      | nil => exact absurd rfl hne
      | cons c p =>
        have hmissing : fs'.find (q ++ [c]) = none := by
          rw [hfind, Function.update_of_ne (by simp)]
          cases hc : fs.find (q ++ [c]) with
          | none => rfl
          | some m =>
            obtain ⟨d', hd', _⟩ := isDir_iff.mp (isDir_of_find_concat hc)
            rw [hfree] at hd'
            cases hd'
        rw [walk_of_missing (hp c (by simp)) hmissing hres'] at hs
        cases hs

end Fs

/-! ## Calls on what is found -/

section Calls

variable {path : Str} {s : FileType × Str}

/-- A call that changes mode or owner of whatever it comes to leaves every shape. -/
theorem change_has {follow : Bool} {path' : Str} {f : Node → Node} (hf : ∀ n, (f n).fmt = n.fmt)
    (hshape : ∀ n : Node, (f n).shape = n.shape) :
    Cmd.Keeps (fun w => w.fs.Has path s)
      (syscall fun w => unit (w.fs.change follow path' f hf)) := by
  apply syscall_keeps
  intro w a fs h hrun
  obtain ⟨q, n, _, hn, hsets⟩ := Fs.change_ok (unit_eq_ok.mp hrun)
  exact (Fs.grows_of_change hn (hshape n) hsets).has h

theorem chmod_has (path' : Str) (mode : BitVec 12) :
    Cmd.Keeps (fun w => w.fs.Has path s) (chmod path' mode) :=
  change_has _ fun _ => rfl

theorem chown_has (path' : Str) (owner group : Nat) :
    Cmd.Keeps (fun w => w.fs.Has path s) (chown path' owner group) :=
  change_has _ fun _ => rfl

theorem lchown_has (path' : Str) (owner group : Nat) :
    Cmd.Keeps (fun w => w.fs.Has path s) (lchown path' owner group) :=
  change_has _ fun _ => rfl

theorem mkdir_has (path' : Str) (mode : BitVec 12) :
    Cmd.Keeps (fun w => w.fs.Has path s) (mkdir path' mode) := by
  apply syscall_keeps
  intro w a fs h hrun
  obtain ⟨q, d, _, hfree, _, hsets⟩ := Fs.mkdir_ok (unit_eq_ok.mp hrun)
  exact (Fs.grows_of_new hfree hsets).has h

/-- Nothing is changed where nothing is found. -/
theorem change_absent {follow : Bool} {f : Node → Node} (hf : ∀ n, (f n).fmt = n.fmt) :
    Cmd.Triple (fun w => w.fs.Absent path)
      (syscall fun w => unit (w.fs.change follow path f hf))
      fun r w => w.fs.Absent path ∧ failed r = true := by
  refine syscall_triple (fun w a fs h hrun => ?_) fun w e h => ⟨h, rfl⟩
  obtain ⟨q, n, hres, hn, _⟩ := Fs.change_ok (unit_eq_ok.mp hrun)
  have hfree : w.fs.find q = none := by
    cases follow with
    | true => exact (h.resolve hres).2
    | false => exact h.find hres
  rw [hfree] at hn
  cases hn

theorem chmod_absent (mode : BitVec 12) :
    Cmd.Triple (fun w => w.fs.Absent path) (chmod path mode)
      fun r w => w.fs.Absent path ∧ failed r = true :=
  change_absent _

theorem lchown_absent (owner group : Nat) :
    Cmd.Triple (fun w => w.fs.Absent path) (lchown path owner group)
      fun r w => w.fs.Absent path ∧ failed r = true :=
  change_absent _

/-- A new directory is found. -/
theorem mkdir_absent (mode : BitVec 12) :
    Cmd.Triple (fun w => w.fs.Absent path) (mkdir path mode)
      fun r w => if failed r then w.fs.Absent path else w.fs.Has path (.dir, []) := by
  refine syscall_triple (fun w a fs h hrun => ?_) fun w e h => h
  obtain ⟨q, d, hres, hfree, hd, hsets⟩ := Fs.mkdir_ok (unit_eq_ok.mp hrun)
  have hnew := Fs.has_of_new hres hfree hsets
  rw [hd] at hnew
  exact hnew

/-- A new symlink is found; there is none where something is found already. -/
theorem symlink_found (P : World → Prop) (target : Str) :
    Cmd.Triple P (symlink target path)
      fun r w => failed r = false → w.fs.Has path (.lnk, cstr target) ∧ cstr target ≠ [] := by
  refine syscall_triple (fun w a fs _ hrun => ?_) fun w e _ h => by cases h
  obtain ⟨q, l, hres, hfree, hne, hl, hsets⟩ := Fs.symlink_ok (unit_eq_ok.mp hrun)
  have hnew := Fs.has_of_new hres hfree hsets
  rw [hl] at hnew
  exact fun _ => ⟨hnew, hne⟩

/-- On a path that is there already `symlink` fails. -/
theorem symlink_has (target : Str) :
    Cmd.Triple (fun w => w.fs.Has path s) (symlink target path)
      fun r w => w.fs.Has path s ∧ failed r = true := by
  refine syscall_triple (fun w a fs h hrun => ?_) fun w e h => ⟨h, rfl⟩
  obtain ⟨q, l, hres, hfree, _⟩ := Fs.symlink_ok (unit_eq_ok.mp hrun)
  obtain ⟨q', hres', hs⟩ := Fs.has_iff.mp h
  rw [hres] at hres'
  cases hres'
  rw [Fs.shape, hfree] at hs
  cases hs

theorem rmdir_found (P : World → Prop) :
    Cmd.Triple P (rmdir path) fun r w => failed r = false → w.fs.Absent path := by
  refine syscall_triple (fun w a fs _ hrun => ?_) fun w e _ h => by cases h
  obtain ⟨q, n, hres, _, _, hsets⟩ := Fs.rmdir_ok (unit_eq_ok.mp hrun)
  exact fun _ => Fs.absent_of_removed hres hsets

theorem unlink_found (P : World → Prop) :
    Cmd.Triple P (unlink path) fun r w => failed r = false → w.fs.Absent path := by
  refine syscall_triple (fun w a fs _ hrun => ?_) fun w e _ h => by cases h
  obtain ⟨q, n, hres, _, _, hsets⟩ := Fs.unlink_ok (unit_eq_ok.mp hrun)
  exact fun _ => Fs.absent_of_removed hres hsets

/-- `lstat` shows what is found. -/
theorem lstat_found :
    Cmd.Triple (fun w => w.fs.Has path s) (lstat path)
      fun r w => w.fs.Has path s ∧
        match r with
        | .ok n => n.shape = s
        | .error e => e = .eio := by
  intro w ⟨n, hstat, hs⟩
  -- the call answers, or fails by itself
  obtain ⟨a, fs, hf, hrun⟩ | ⟨e, he, hrun⟩ :=
    syscall_cases (fun w => (w.fs.stat false path).map fun n => (n, w.fs)) w
  · unfold lstat
    rw [hrun]
    rw [hstat] at hf
    cases hf
    exact ⟨⟨n, hstat, hs⟩, hs⟩
  · unfold lstat
    rw [hrun]
    rw [hstat] at he
    refine ⟨⟨n, hstat, hs⟩, ?_⟩
    obtain he | he := he
    · cases he
    · exact he

end Calls

/-! ## Open files -/

/-- The path leads to the open regular file `fd`, which holds `data`. -/
structure Fs.OpenAt (path : Str) (fd : Path) (data : Str) (fs : Fs) : Prop where
  resolve : Snapper.resolve fs false path = .ok fd
  shape : fs.shape fd = some (.reg, data)

section Open

variable {path : Str} {fd : Path} {data : Str} {fs : Fs}

theorem Fs.OpenAt.has (h : fs.OpenAt path fd data) : fs.Has path (.reg, data) :=
  Fs.has_iff.mpr ⟨fd, h.resolve, h.shape⟩

/-- What is written to an open file is found at its path. -/
theorem Fs.OpenAt.modify (h : Fs.OpenAt path fd data fs) {f : Node → Node}
    (hf : ∀ n, (f n).fmt = n.fmt) {data' : Str}
    (hdata : ∀ n : Node, n.shape = (.reg, data) → (f n).data = data') :
    Fs.OpenAt path fd data' (fs.modify fd f hf) := by
  obtain ⟨n, hn, hs⟩ := Option.map_eq_some_iff.mp h.shape
  have hfmt : n.fmt = .reg := congrArg Prod.fst hs
  constructor
  · refine resolve_mono ?_ (Or.inl rfl) h.resolve
    intro r m hm
    by_cases hr : fs.Linked fd r
    · -- the names of a regular file are not in the way of any path
      rw [hr.find, hn] at hm
      cases hm
      refine ⟨f n, by rw [Fs.find_modify, if_pos hr, hn]; rfl, hf n, ?_⟩
      intro hlnk
      rw [hfmt] at hlnk
      cases hlnk
    · exact ⟨m, by rw [Fs.find_modify, if_neg hr, hm], rfl, fun _ => rfl⟩
  · rw [Fs.shape, Fs.find_modify_self, hn]
    show some ((f n).fmt, (f n).data) = _
    rw [hf, hfmt, hdata n hs]

theorem fchmod_open (mode : BitVec 12) :
    Cmd.Keeps (fun w => Fs.OpenAt path fd data w.fs) (fchmod fd mode) := by
  apply syscall_keeps
  intro w a fs h hf
  cases hf
  exact h.modify _ fun n hn => congrArg Prod.snd hn

theorem fchown_open (owner group : Nat) :
    Cmd.Keeps (fun w => Fs.OpenAt path fd data w.fs) (fchown fd owner group) := by
  apply syscall_keeps
  intro w a fs h hf
  cases hf
  exact h.modify _ fun n hn => congrArg Prod.snd hn

theorem Fs.OpenAt.writeData (h : Fs.OpenAt path fd data fs) (f : Str → Str) :
    Fs.OpenAt path fd (f data) (fs.writeData fd f) := by
  refine h.modify _ fun n hn => ?_
  have hfmt : n.fmt = .reg := congrArg Prod.fst hn
  have hdata : n.data = data := congrArg Prod.snd hn
  rw [if_pos hfmt, hdata]

theorem ioctlClone_open (src : Str) :
    Cmd.Triple (fun w => Fs.OpenAt path fd data w.fs) (ioctlClone fd src)
      fun r w => Fs.OpenAt path fd (if failed r then data else src) w.fs := by
  refine syscall_triple (fun w a fs h hf => ?_) fun w e h => h
  split at hf <;> cases hf
  exact h.writeData fun _ => src

theorem sendfile_open (src : Str) (count : Nat) :
    Cmd.Triple (fun w => Fs.OpenAt path fd data w.fs) (sendfile fd src count)
      fun r w => failed r = false → Fs.OpenAt path fd (data ++ src.take count) w.fs := by
  refine syscall_triple (fun w a fs h hf => ?_) fun w e h hok => by cases hok
  cases hf
  exact fun _ => h.writeData fun data => data ++ src.take count

/-- A file opened where nothing was found is new and empty. -/
theorem openTrunc_absent (mode : BitVec 12) :
    Cmd.Triple (fun w => w.fs.Absent path) (openTrunc path mode)
      fun r w => ∀ fd, r = .ok fd → Fs.OpenAt path fd [] w.fs := by
  refine syscall_triple (fun w fd fs h hf => ?_) fun w e h fd hok => by cases hok
  obtain ⟨hres, hopen⟩ := Fs.openTrunc_ok hf
  obtain ⟨hplace, hfree⟩ := h.resolve hres
  intro fd' hfd
  cases hfd
  obtain ⟨f, hs, hsets, _⟩ | ⟨n, hn, _⟩ := hopen
  · rw [hfree] at hsets
    refine ⟨resolve_mono (Fs.grows_of_new hfree hsets).extends (Or.inl rfl) hplace, ?_⟩
    rw [Fs.shape, hsets.self, Option.map_some, hs]
  · rw [hfree] at hn
    cases hn

/-- A socket cannot be opened. -/
theorem openTrunc_sock {d : Str} (mode : BitVec 12) :
    Cmd.Triple (fun w => w.fs.Has path (.sock, d)) (openTrunc path mode)
      fun r _ => failed r = true := by
  refine syscall_triple (fun w fd fs h hf => ?_) fun w e h => rfl
  obtain ⟨hres, hopen⟩ := Fs.openTrunc_ok hf
  obtain ⟨n, hn, hs⟩ := Option.map_eq_some_iff.mp (h.resolve (by simp) hres)
  have hfmt : n.fmt = .sock := congrArg Prod.fst hs
  obtain ⟨_, _, _, hreg⟩ | ⟨m, hm, hor, _⟩ := hopen
  · have := hreg n hn
    rw [hfmt] at this
    cases this
  · rw [hn] at hm
    cases hm
    rw [hfmt] at hor
    simp at hor

end Open

end Snapper
