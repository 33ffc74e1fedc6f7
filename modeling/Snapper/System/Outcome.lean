import Snapper.System.Calls

/-!
# Successful calls

What a call that succeeds found and what it left, for every path string: the place the
path resolves to, the file there before and the file there afterwards.  No other file is
changed by a call.
-/

namespace Snapper

open General

/-- A block that succeeds has each of its steps succeed. -/
theorem bind_eq_ok {ε α β : Type} {x : Except ε α} {k : α → Except ε β} {b : β} :
    (x >>= k) = .ok b ↔ ∃ a, x = .ok a ∧ k a = .ok b := by
  cases x with
  | error e => simp [bind, Except.bind]
  | ok a => simp [bind, Except.bind]

namespace Fs

variable {fs fs' : Fs} {follow : Bool} {path : Str} {n : Node}

/-- When `stat` succeeds the path leads to a file. -/
theorem stat_ok (h : fs.stat follow path = .ok n) :
    ∃ q, resolve fs follow path = .ok q ∧ fs.find q = some n := by
  obtain ⟨q, hres, h⟩ := bind_eq_ok.mp h
  refine ⟨q, hres, ?_⟩
  split at h
  · cases h
  · next m hm =>
    cases h
    exact hm

/-- When a file is made there was none, and its directory is there. -/
theorem make_ok {q : Path} {fmt : FileType} {perm : BitVec 12} {data : Str}
    (h : fs.make q fmt perm data = .ok fs') :
    fs.find q = none ∧ fs.isDir q.dropLast = true ∧
      Sets q (some (fs.newNode q fmt perm data)) false fs fs' := by
  unfold make at h
  split at h
  · next hfree =>
    cases h
    exact ⟨hfree.1, hfree.2, sets_create hfree⟩
  · cases h

theorem mkdir_ok {umask mode : BitVec 12} (h : fs.mkdir umask path mode = .ok fs') :
    ∃ q d, resolve fs false path = .ok q ∧ fs.find q = none ∧ d.shape = (.dir, []) ∧
      Sets q (some d) false fs fs' := by
  obtain ⟨q, hres, h⟩ := bind_eq_ok.mp h
  obtain ⟨hfree, _, hsets⟩ := make_ok h
  exact ⟨q, _, hres, hfree, rfl, hsets⟩

/-- When `symlink` succeeds there was no file, and the new one is a symlink with the target up to
its NUL. -/
theorem symlink_ok {target : Str} (h : fs.symlink target path = .ok fs') :
    ∃ q l, resolve fs false path = .ok q ∧ fs.find q = none ∧ cstr target ≠ [] ∧
      l.shape = (.lnk, cstr target) ∧ Sets q (some l) false fs fs' := by
  unfold symlink at h
  split at h
  · cases h
  · next htarget =>
    obtain ⟨q, hres, h⟩ := bind_eq_ok.mp h
    obtain ⟨hfree, _, hsets⟩ := make_ok h
    exact ⟨q, _, hres, hfree, htarget, rfl, hsets⟩

/-- When `rmdir` succeeds a directory is gone. -/
theorem rmdir_ok (h : fs.rmdir path = .ok fs') :
    ∃ q n, resolve fs false path = .ok q ∧ fs.find q = some n ∧ n.fmt = .dir ∧
      Sets q none false fs fs' := by
  obtain ⟨q, hres, h⟩ := bind_eq_ok.mp h
  cases hn : fs.find q with
  | none =>
    simp only [hn] at h
    cases h
  | some n =>
    simp only [hn] at h
    split_ifs at h with hdir hroot hempty
    cases h
    exact ⟨q, n, hres, hn, not_not.mp hdir, sets_remove ⟨hroot, hempty⟩⟩

/-- When `unlink` succeeds something else than a directory is gone from this path. -/
theorem unlink_ok (h : fs.unlink path = .ok fs') :
    ∃ q n, resolve fs false path = .ok q ∧ fs.find q = some n ∧ n.fmt ≠ .dir ∧
      Sets q none false fs fs' := by
  obtain ⟨q, hres, h⟩ := bind_eq_ok.mp h
  cases hn : fs.find q with
  | none =>
    simp only [hn] at h
    cases h
  | some n =>
    simp only [hn] at h
    split_ifs at h with hok
    cases h
    exact ⟨q, n, hres, hn, hok.1, sets_remove hok.2⟩

/-- When a call changes a file it is the one that the path leads to. -/
theorem change_ok {f : Node → Node} {hf : ∀ n, (f n).fmt = n.fmt}
    (h : fs.change follow path f hf = .ok fs') :
    ∃ q n, resolve fs follow path = .ok q ∧ fs.find q = some n ∧
      Sets q (some (f n)) true fs fs' := by
  obtain ⟨q, hres, h⟩ := bind_eq_ok.mp h
  cases hn : fs.find q with
  | none =>
    simp only [hn] at h
    cases h
  | some n =>
    simp only [hn] at h
    cases h
    exact ⟨q, n, hres, hn, sets_modify hf hn⟩

/-- An opened file is empty, unless it is a fifo or a device; a file that is there keeps its
names. -/
theorem openTrunc_ok {umask mode : BitVec 12} {q : Path}
    (h : fs.openTrunc umask path mode = .ok (q, fs')) :
    resolve fs true path = .ok q ∧
      ((∃ f, f.shape = (.reg, []) ∧ Sets q (some f) (fs.find q).isSome fs fs' ∧
          ∀ n, fs.find q = some n → n.fmt = .reg) ∨
        (∃ n, fs.find q = some n ∧ (n.fmt = .fifo ∨ n.fmt = .blk ∨ n.fmt = .chr) ∧
          fs' = fs)) := by
  obtain ⟨q', hres, h⟩ := bind_eq_ok.mp h
  cases hn : fs.find q' with
  | none =>
    simp only [hn] at h
    obtain ⟨fs₁, hmake, h⟩ := bind_eq_ok.mp h
    cases h
    obtain ⟨_, _, hsets⟩ := make_ok hmake
    refine ⟨hres, Or.inl ⟨_, rfl, by rw [hn]; exact hsets, fun n hn' => ?_⟩⟩
    rw [hn] at hn'
    cases hn'
  | some n =>
    simp only [hn] at h
    -- the types that cannot be opened are gone with the errors
    cases hfmt : n.fmt <;> simp only [hfmt] at h <;> cases h
    · refine ⟨hres, Or.inl ⟨{ n with data := [] }, by rw [Node.shape, hfmt], ?_, ?_⟩⟩
      · rw [hn]
        exact sets_modify (f := fun n => { n with data := [] }) (fun _ => rfl) hn
      · intro m hm
        rw [hn] at hm
        cases hm
        exact hfmt
    all_goals exact ⟨hres, Or.inr ⟨n, hn, by simp [hfmt], rfl⟩⟩

end Fs

/-! ## Calls that look -/

section Keeps

variable {I : Fs → Prop} {α : Type}

/-- A call that does not change the directory tree keeps every property of it. -/
theorem syscall_looks {f : World → Except Errno (α × Fs)}
    (h : ∀ w a fs, f w = .ok (a, fs) → fs = w.fs) : Cmd.Keeps (fun w => I w.fs) (syscall f) := by
  apply syscall_keeps
  intro w a fs hI hf
  rw [h w a fs hf]
  exact hI

theorem lstat_keeps (path : Str) : Cmd.Keeps (fun w => I w.fs) (lstat path) := by
  apply syscall_looks
  intro w a fs h
  cases hstat : w.fs.stat false path <;> rw [hstat] at h <;> cases h
  rfl

theorem stat_keeps (path : Str) : Cmd.Keeps (fun w => I w.fs) (stat path) := by
  apply syscall_looks
  intro w a fs h
  cases hstat : w.fs.stat true path <;> rw [hstat] at h <;> cases h
  rfl

end Keeps

end Snapper
