import Mathlib.Data.List.Infix
import Snapper.System.Outcome
import Snapper.Undo.Mounted

/-!
# What an undo leaves alone

Undoing a file touches the file and the directories that are missing above it, as long as
no symlink gets between the path and the file and the file has no other name.  `Framed` says when
that is so, for one step from the state before it; a run of such steps touches nothing but the
selected files.

## Where symlinks get in the way

- one above the file leads every call elsewhere
- the mode of a restored symlink goes to the file it leads to
- a symlink that could not be deleted is followed by what should have replaced it

## Where hard links do

- mode and owner that are changed in place show at all names of the file
- so do those of what could not be deleted
-/

namespace Snapper

open General

/-! ## Frames -/

/-- Compared with `fs` only the file at `q` may be another, missing directories above it may be
there, and at the paths of `C` mode and owner may be others.  These are the three things a step
can do outside of its file: nothing, `createParentDirectories`, and a change in place of a file
with other names. -/
def Within (q : Path) (C : Path → Prop) (fs fs' : Fs) : Prop :=
  ∀ r, r ≠ q → fs'.find r = fs.find r ∨ (fs.find r = none ∧ r <+: q ∧ fs'.isDir r = true) ∨
    (C r ∧ fs'.shape r = fs.shape r)

/-- Besides, the file at `q` has a type of `T`, and its other names are as `A` says for its type.
`T` keeps track of symlinks: a call that follows the last component of its path is only made where
`T` has none.  `A` keeps track of hard links: what is changed in place shows at the paths of `A`.
-/
structure Frame (q : Path) (fs₀ : Fs) (A : FileType → Path → Prop) (C : Path → Prop)
    (T : FileType → Prop) (fs : Fs) : Prop where
  within : Within q C fs₀ fs
  names : ∀ {r n}, r ≠ q → fs.Linked q r → fs.find q = some n → A n.fmt r
  type : ∀ {n}, fs.find q = some n → T n.fmt

/-- The file has no other name.  This is the `A` of a file that has just been made or deleted. -/
def Alone (_ : FileType) (_ : Path) : Prop := False

section Frame

variable {q : Path} {fs₀ fs fs' : Fs} {A : FileType → Path → Prop} {C : Path → Prop}
  {T : FileType → Prop} {node : Option Node} {kept : Bool}

/-- Nothing was done yet. -/
theorem Within.refl (q : Path) (C : Path → Prop) (fs : Fs) : Within q C fs fs :=
  fun _ _ => Or.inl rfl

/-- Whether a file is a symlink is part of its shape, so that a change of mode or owner keeps it.
-/
theorem Fs.isLnk_of_shape {r : Path} (h : fs'.shape r = fs.shape r) : fs'.isLnk r = fs.isLnk r := by
  unfold Fs.shape at h
  unfold Fs.isLnk
  cases hn : fs.find r with
  | none =>
    rw [hn] at h
    rw [Option.map_eq_none_iff.mp h]
  | some n =>
    rw [hn] at h
    obtain ⟨n', hn', hshape⟩ := Option.map_eq_some_iff.mp h
    have hfmt : n'.fmt = n.fmt := congrArg Prod.fst hshape
    rw [hn', Option.any_some, Option.any_some, hfmt]

/-- A missing directory above `q` may be made. -/
theorem Within.make (h : Within q C fs₀ fs) {r : Path} (hr : r <+: q)
    (hfree : fs.find r = none) {d : Node} (hd : d.fmt = .dir)
    (hsets : Fs.Sets r (some d) false fs fs') : Within q C fs₀ fs' := by
  intro s hs
  by_cases hsr : s = r
  · subst hsr
    right
    left
    have hdir : fs'.isDir s = true := Fs.isDir_iff.mpr ⟨d, hsets.self, hd⟩
    obtain hsame | ⟨hnone, _, _⟩ | ⟨_, hshape⟩ := h s hs
    · exact ⟨hsame ▸ hfree, hr, hdir⟩
    · exact ⟨hnone, hr, hdir⟩
    · rw [Fs.shape_eq_none.mpr hfree] at hshape
      exact ⟨Fs.shape_eq_none.mp hshape.symm, hr, hdir⟩
  · have hsame : fs'.find s = fs.find s := hsets.other hsr fun hkept => by cases hkept.1
    rw [hsame, Fs.isDir_congr hsame, Fs.shape, hsame]
    exact h s hs

/-- No symlink gets above the file: the paths above `q` are as they were, have become directories
where nothing was, or have kept their shape. -/
theorem Within.noLinkAbove (h : Within q C fs₀ fs) (hlink : NoLinkAbove fs₀ q) :
    NoLinkAbove fs q := by
  intro r hr hne
  obtain hsame | ⟨_, _, hdir⟩ | ⟨_, hshape⟩ := h r hne
  · rw [Fs.isLnk_congr hsame]
    exact hlink r hr hne
  · exact not_isLnk_of_isDir hdir
  · rw [Fs.isLnk_of_shape hshape]
    exact hlink r hr hne

/-- What is above a directory of the path is above the path. -/
theorem NoLinkAbove.mono (h : NoLinkAbove fs q) {r : Path} (hr : r <+: q) :
    NoLinkAbove fs r := by
  intro s hs hne
  refine h s (hs.trans hr) ?_
  intro hsq
  exact hne (hs.eq_of_length_le (hsq ▸ hr.length_le))

/-- Where no symlink is above it a path resolves to nothing else. -/
theorem eq_of_resolve {follow : Bool} {r : Path} (hvalid : ∀ n ∈ q, ValidName n)
    (hlink : NoLinkAbove fs q) (hlast : follow = false ∨ fs.isLnk q = false)
    (h : resolve fs follow (pathName q) = .ok r) : r = q := by
  obtain hok | ⟨e, herr⟩ := resolve_of_no_link hvalid hlink hlast
  · rw [hok] at h
    exact (Except.ok.inj h).symm
  · rw [herr] at h
    cases h

/-- Where no symlink is allowed at `q` a call that follows the last component stays at `q`. -/
theorem Frame.not_isLnk (h : Frame q fs₀ A C T fs) (hT : ¬T .lnk) : fs.isLnk q = false := by
  cases hlnk : fs.isLnk q with
  | false => rfl
  | true =>
    obtain ⟨n, hn, hfmt⟩ := Fs.isLnk_iff.mp hlnk
    exact absurd (hfmt ▸ h.type hn) hT

/-- A file without other names is as any names allow. -/
theorem Frame.of_alone (h : Frame q fs₀ Alone C T fs) : Frame q fs₀ A C T fs where
  within := h.within
  names := fun hr hlinked hn => (h.names hr hlinked hn).elim
  type := h.type

/-- The file at `q` may become any file of an allowed type.  If it is kept, what changes besides
mode and owner must have no other name. -/
theorem Frame.sets (h : Frame q fs₀ A C T fs) (hsets : Fs.Sets q node kept fs fs')
    (hkept : kept = true → ∃ old n, fs.find q = some old ∧ node = some n ∧ n.fmt = old.fmt ∧
      ∀ r, A old.fmt r → C r ∧ n.shape = old.shape)
    (htype : ∀ n, node = some n → T n.fmt) : Frame q fs₀ A C T fs' where
  within := by
    intro r hr
    obtain ⟨hset, hname⟩ | ⟨hsame, _⟩ := hsets.find_cases r
    · obtain ⟨hk, hlinked⟩ := hname.resolve_left hr
      obtain ⟨old, n, hold, rfl, _, hA⟩ := hkept hk
      obtain ⟨hC, hshape⟩ := hA r (h.names hr hlinked hold)
      have hr' : fs.find r = some old := hlinked.find.trans hold
      -- another name of the file shows the change, which leaves its shape as it was
      have hnew : fs'.shape r = fs.shape r := by
        rw [Fs.shape, Fs.shape, hset, hr', Option.map_some, Option.map_some, hshape]
      refine Or.inr (Or.inr ⟨hC, hnew.trans ?_⟩)
      obtain hsame | ⟨_, _, hdir⟩ | ⟨_, hsame⟩ := h.within r hr
      · rw [Fs.shape, Fs.shape, hsame]
      · -- a directory has no other name
        obtain ⟨d, hd, hfmt⟩ := Fs.isDir_iff.mp hdir
        exact absurd (hlinked.symm.eq_of_dir hd hfmt) hr
      · exact hsame
    · rw [hsame, Fs.isDir_congr hsame, Fs.shape, hsame]
      exact h.within r hr
  names := by
    intro r n hr hlinked hn
    obtain ⟨hk, hlinked⟩ := (hsets.shared hr).mp hlinked
    obtain ⟨old, n', hold, rfl, hfmt, _⟩ := hkept hk
    rw [hsets.self] at hn
    obtain rfl := Option.some.inj hn
    exact hfmt ▸ h.names hr hlinked hold
  type := by
    intro n hn
    rw [hsets.self] at hn
    exact htype n hn

/-- A file that is new or gone has no other name. -/
theorem Frame.sets_new (h : Frame q fs₀ A C T fs) (hsets : Fs.Sets q node false fs fs')
    (htype : ∀ n, node = some n → T n.fmt) : Frame q fs₀ Alone C T fs' where
  within := (h.sets hsets (fun hkept => by cases hkept) htype).within
  names := by
    intro r n hr hlinked _
    cases ((hsets.shared hr).mp hlinked).1
  type := (h.sets hsets (fun hkept => by cases hkept) htype).type

end Frame

/-! ## The calls on the file -/

section Calls

variable {q : Path} {fs₀ : Fs} {A : FileType → Path → Prop} {C : Path → Prop}
  {T : FileType → Prop}

section Path

variable (hvalid : ∀ n ∈ q, ValidName n) (hlink : NoLinkAbove fs₀ q)

include hvalid hlink

/-- `rmdir` removes the directory or leaves it.  When it succeeds the path has no file, and so no
other name of a file is left to look after. -/
theorem rmdir_frame : Cmd.Triple (fun w => Frame q fs₀ A C T w.fs) (rmdir (pathName q))
    fun r w => Frame q fs₀ A C T w.fs ∧ (failed r = false → Frame q fs₀ Alone C T w.fs) := by
  refine syscall_triple (fun w a fs h hf => ?_) fun w e h => ⟨h, fun hok => by cases hok⟩
  obtain ⟨r, n, hres, _, _, hsets⟩ := Fs.rmdir_ok (unit_eq_ok.mp hf)
  obtain rfl := eq_of_resolve hvalid (h.within.noLinkAbove hlink) (Or.inl rfl) hres
  have hgone := h.sets_new hsets fun _ hnone => by cases hnone
  exact ⟨hgone.of_alone, fun _ => hgone⟩

/-- `unlink` removes the one name.  The file may live on under its other names, but what is made
at the path afterwards is another file. -/
theorem unlink_frame : Cmd.Triple (fun w => Frame q fs₀ A C T w.fs) (unlink (pathName q))
    fun r w => Frame q fs₀ A C T w.fs ∧ (failed r = false → Frame q fs₀ Alone C T w.fs) := by
  refine syscall_triple (fun w a fs h hf => ?_) fun w e h => ⟨h, fun hok => by cases hok⟩
  obtain ⟨r, n, hres, _, _, hsets⟩ := Fs.unlink_ok (unit_eq_ok.mp hf)
  obtain rfl := eq_of_resolve hvalid (h.within.noLinkAbove hlink) (Or.inl rfl) hres
  have hgone := h.sets_new hsets fun _ hnone => by cases hnone
  exact ⟨hgone.of_alone, fun _ => hgone⟩

/-- A new directory has a name of its own; where something is in its place `mkdir` fails. -/
theorem mkdir_frame (hdir : T .dir) (mode : BitVec 12) :
    Cmd.Keeps (fun w => Frame q fs₀ A C T w.fs) (mkdir (pathName q) mode) := by
  apply syscall_keeps
  intro w a fs h hf
  obtain ⟨r, d, hres, _, hd, hsets⟩ := Fs.mkdir_ok (unit_eq_ok.mp hf)
  obtain rfl := eq_of_resolve hvalid (h.within.noLinkAbove hlink) (Or.inl rfl) hres
  refine (h.sets_new hsets fun n hn => ?_).of_alone
  obtain rfl := Option.some.inj hn
  have hfmt : d.fmt = .dir := congrArg Prod.fst hd
  rwa [hfmt]

/-- A new symlink has a name of its own; where something is in its place `symlink` fails. -/
theorem symlink_frame (hlnk : T .lnk) (target : Str) :
    Cmd.Keeps (fun w => Frame q fs₀ A C T w.fs) (symlink target (pathName q)) := by
  apply syscall_keeps
  intro w a fs h hf
  obtain ⟨r, l, hres, _, _, hl, hsets⟩ := Fs.symlink_ok (unit_eq_ok.mp hf)
  obtain rfl := eq_of_resolve hvalid (h.within.noLinkAbove hlink) (Or.inl rfl) hres
  refine (h.sets_new hsets fun n hn => ?_).of_alone
  obtain rfl := Option.some.inj hn
  have hfmt : l.fmt = .lnk := congrArg Prod.fst hl
  rwa [hfmt]

/-- A change of mode or owner, by a call that follows symlinks only where there is none. -/
theorem change_frame (hAC : ∀ fmt r, A fmt r → C r) {follow : Bool}
    (hfollow : follow = false ∨ ¬T .lnk) {f : Node → Node} (hf : ∀ n, (f n).fmt = n.fmt)
    (hshape : ∀ n, (f n).shape = n.shape) :
    Cmd.Keeps (fun w => Frame q fs₀ A C T w.fs)
      (syscall fun w => unit (w.fs.change follow (pathName q) f hf)) := by
  apply syscall_keeps
  intro w a fs h hrun
  obtain ⟨r, n, hres, hn, hsets⟩ := Fs.change_ok (unit_eq_ok.mp hrun)
  obtain rfl := eq_of_resolve hvalid (h.within.noLinkAbove hlink)
    (hfollow.imp_right h.not_isLnk) hres
  refine h.sets hsets (fun _ => ⟨n, f n, hn, rfl, hf n, fun r hr => ⟨hAC _ r hr, hshape n⟩⟩) ?_
  intro m hm
  obtain rfl := Option.some.inj hm
  rw [hf]
  exact h.type hn

/-- `chmod` follows a symlink at the end of the path, so there must not be one. -/
theorem chmod_frame (hAC : ∀ fmt r, A fmt r → C r) (hT : ¬T .lnk) (mode : BitVec 12) :
    Cmd.Keeps (fun w => Frame q fs₀ A C T w.fs) (chmod (pathName q) mode) :=
  change_frame hvalid hlink hAC (Or.inr hT) _ fun _ => rfl

/-- `chown` follows a symlink at the end of the path, so there must not be one. -/
theorem chown_frame (hAC : ∀ fmt r, A fmt r → C r) (hT : ¬T .lnk) (owner group : Nat) :
    Cmd.Keeps (fun w => Frame q fs₀ A C T w.fs) (chown (pathName q) owner group) :=
  change_frame hvalid hlink hAC (Or.inr hT) _ fun _ => rfl

/-- `lchown` changes a symlink itself and goes nowhere else. -/
theorem lchown_frame (hAC : ∀ fmt r, A fmt r → C r) (owner group : Nat) :
    Cmd.Keeps (fun w => Frame q fs₀ A C T w.fs) (lchown (pathName q) owner group) :=
  change_frame hvalid hlink hAC (Or.inl rfl) _ fun _ => rfl

/-- `open` with `O_CREAT | O_TRUNC` opens the file at the path, for no symlink is there to follow.
The descriptor stands for the file itself, so that everything that goes through it stays there. -/
theorem openTrunc_frame (hreg : ∀ r, ¬A .reg r) (hT : ¬T .lnk) (htype : T .reg)
    (mode : BitVec 12) :
    Cmd.Triple (fun w => Frame q fs₀ A C T w.fs) (openTrunc (pathName q) mode)
      fun r w => Frame q fs₀ A C T w.fs ∧ ∀ fd, r = .ok fd → fd = q := by
  refine syscall_triple (fun w fd fs h hf => ?_) fun w e h => ⟨h, fun fd hfd => by cases hfd⟩
  obtain ⟨hres, hopen⟩ := Fs.openTrunc_ok hf
  obtain rfl := eq_of_resolve hvalid (h.within.noLinkAbove hlink) (Or.inr (h.not_isLnk hT)) hres
  refine ⟨?_, fun fd' hfd => (Except.ok.inj hfd).symm⟩
  -- a regular file is made or emptied; a file of another type is only opened
  obtain ⟨f, hf', hsets, hold⟩ | ⟨_, _, _, rfl⟩ := hopen
  · have hfmt : f.fmt = .reg := congrArg Prod.fst hf'
    refine h.sets hsets (fun hkept => ?_) fun n hn => ?_
    · -- a regular file that is emptied has no other name
      obtain ⟨old, hold'⟩ := Option.isSome_iff_exists.mp hkept
      have holdfmt := hold old hold'
      refine ⟨old, f, hold', rfl, hfmt.trans holdfmt.symm, fun r hr => ?_⟩
      rw [holdfmt] at hr
      exact absurd hr (hreg r)
    · obtain rfl := Option.some.inj hn
      rwa [hfmt]
  · exact h

end Path

/-- A change of the file itself keeps the frame, if the paths of `A` may show it and it keeps the
shape. -/
theorem modify_frame {fs : Fs} (h : Frame q fs₀ A C T fs) {f : Node → Node}
    (hf : ∀ n, (f n).fmt = n.fmt) (hA : ∀ n r, A n.fmt r → C r ∧ (f n).shape = n.shape) :
    Frame q fs₀ A C T (fs.modify q f hf) := by
  cases hn : fs.find q with
  | none =>
    have hsame : fs.modify q f hf = fs := by
      rw [Fs.modify]
      split
      · rfl
      · next i hi =>
        rw [Fs.find, hi] at hn
        cases hn
    rwa [hsame]
  | some n =>
    refine h.sets (Fs.sets_modify hf hn) (fun _ => ⟨n, f n, hn, rfl, hf n, hA n⟩) fun m hm => ?_
    obtain rfl := Option.some.inj hm
    rw [hf]
    exact h.type hn

theorem fchmod_frame (hAC : ∀ fmt r, A fmt r → C r) (mode : BitVec 12) :
    Cmd.Keeps (fun w => Frame q fs₀ A C T w.fs) (fchmod q mode) := by
  apply syscall_keeps
  intro w a fs h hf
  cases hf
  exact modify_frame h _ fun _ r hr => ⟨hAC _ r hr, rfl⟩

theorem fchown_frame (hAC : ∀ fmt r, A fmt r → C r) (owner group : Nat) :
    Cmd.Keeps (fun w => Frame q fs₀ A C T w.fs) (fchown q owner group) := by
  apply syscall_keeps
  intro w a fs h hf
  cases hf
  exact modify_frame h _ fun _ r hr => ⟨hAC _ r hr, rfl⟩

/-- What is written shows at no other name: only regular files keep it. -/
theorem writeData_frame (hAC : ∀ fmt r, A fmt r → C r) (hreg : ∀ r, ¬A .reg r) {fs : Fs}
    (h : Frame q fs₀ A C T fs) (f : Str → Str) : Frame q fs₀ A C T (fs.writeData q f) := by
  refine modify_frame h _ fun n r hr => ⟨hAC _ r hr, ?_⟩
  rw [if_neg]
  intro hfmt
  exact hreg r (hfmt ▸ hr)

/-- Cloning writes the whole content at once, through the descriptor. -/
theorem clonefile_frame (hAC : ∀ fmt r, A fmt r → C r) (hreg : ∀ r, ¬A .reg r) (src : Str) :
    Cmd.Keeps (fun w => Frame q fs₀ A C T w.fs) (clonefile src q) := by
  refine Cmd.Keeps.bind (syscall_keeps ?_) fun _ => Cmd.Keeps.pure _
  intro w a fs h hf
  split at hf <;> cases hf
  exact writeData_frame hAC hreg h _

/-- Copying writes block by block, each of them through the descriptor. -/
theorem copyfile_frame (hAC : ∀ fmt r, A fmt r → C r) (hreg : ∀ r, ¬A .reg r) (src : Str) :
    Cmd.Keeps (fun w => Frame q fs₀ A C T w.fs) (copyfile src q) := by
  induction src using copyfile.induct with
  | case1 src ih =>
    rw [copyfile]
    refine Cmd.Keeps.bind (syscall_keeps ?_) fun r => ?_
    · intro w a fs h hf
      cases hf
      exact writeData_frame hAC hreg h _
    · cases r with
      | error e => exact Cmd.Keeps.pure _
      | ok n =>
        show Cmd.Keeps _ (if _h : src = [] then _ else _)
        split
        · exact Cmd.Keeps.pure _
        · next hsrc => exact ih hsrc

end Calls

/-! ## The routines of the undo -/

section Routines

variable {paths : FilePaths} {file : File} {p q : Path} {fs₀ : Fs} {A : FileType → Path → Prop}
  {C : Path → Prop} {T : FileType → Prop}

/-- The file of the pre snapshot is no symlink.  Only then the undo calls `chmod` and `open` at a
path that it expects to be no symlink either. -/
def NoLinkBefore (pre : Tree) (p : Path) : Prop := ∀ f, pre.lookup p = some f → f.fmt ≠ .lnk

theorem noLinkBefore_iff {pre : Tree} {f : Inode} (hf : pre.lookup p = some f) :
    NoLinkBefore pre p ↔ f.fmt ≠ .lnk := by
  simp [NoLinkBefore, hf]

/-- The file of the pre snapshot may be made: its type is allowed, and where a path is followed no
symlink is. -/
structure MayMake (pre : Tree) (p : Path) (T : FileType → Prop) : Prop where
  type : ∀ f, pre.lookup p = some f → f.fmt.Ordinary → T f.fmt
  follow : NoLinkBefore pre p → ¬T .lnk

section Path

variable (hnames : Names paths file p q) (hvalid : ∀ n ∈ q, ValidName n)
  (hlink : NoLinkAbove fs₀ q)

include hvalid hlink

/-- Only missing directories are made on the way to the file: what is there is left alone, and if
it is not a directory the routine gives up. -/
theorem createParentDirectories_frame {r : Path} (hr : r <+: q) :
    Cmd.Keeps (fun w => Frame q fs₀ A C T w.fs) (createParentDirectories (pathName r)) := by
  refine createParentDirectories_keeps hvalid stat_keeps ?_ hr
  intro r hr hne
  apply syscall_keeps
  intro w a fs hw hf
  -- the directory is above the file, so the file stays what it is
  obtain ⟨s, d, hres, hfree, hdir, hsets⟩ := Fs.mkdir_ok (unit_eq_ok.mp hf)
  obtain rfl := eq_of_resolve (fun n hn => hvalid n (hr.subset hn))
    ((hw.within.noLinkAbove hlink).mono hr) (Or.inl rfl) hres
  have hsame : fs.find q = w.fs.find q := hsets.other hne.symm fun hkept => by cases hkept.1
  refine ⟨hw.within.make hr hfree (congrArg Prod.fst hdir) hsets, fun {t n} ht hlinked hn => ?_,
    fun hn => hw.type (hsame ▸ hn)⟩
  exact hw.names ht (hsets.linked_of_linked ht.symm hlinked) (hsame ▸ hn)

include hnames

/-- Deleting the file touches nothing but the file, whatever the type is that `lstat` shows. -/
theorem deleteAllTypes_frame :
    Cmd.Keeps (fun w => Frame q fs₀ A C T w.fs) (file.deleteAllTypes paths) := by
  unfold File.deleteAllTypes
  rw [hnames.system]
  refine Cmd.Keeps.bind (lstat_keeps _) fun r => ?_
  cases r with
  | error e => exact Cmd.Keeps.pure _
  | ok n =>
    have hrmdir := ((rmdir_frame (A := A) (C := C) (T := T) hvalid hlink).post
      fun _ _ h => h.1).bind fun r => Cmd.Keeps.pure (!failed r)
    have hunlink := ((unlink_frame (A := A) (C := C) (T := T) hvalid hlink).post
      fun _ _ h => h.1).bind fun r => Cmd.Keeps.pure (!failed r)
    dsimp only
    -- the other types are left alone
    cases n.fmt
    case dir => exact hrmdir
    case reg => exact hunlink
    case lnk => exact hunlink
    all_goals exact Cmd.Keeps.pure _

/-- A directory is made, or one that is there already is kept; mode and owner are then set by
path. -/
theorem createDirectory_frame (hAC : ∀ fmt r, A fmt r → C r) (hT : ¬T .lnk) (hdir : T .dir)
    (mode : BitVec 12) (owner group : Nat) :
    Cmd.Keeps (fun w => Frame q fs₀ A C T w.fs) (file.createDirectory paths mode owner group) := by
  unfold File.createDirectory
  rw [hnames.system]
  refine Cmd.Keeps.bind (mkdir_frame hvalid hlink hdir _) fun r => ?_
  refine Cmd.Keeps.bind (Cmd.Keeps.when _ ?_) fun blocked =>
    Cmd.Keeps.ite (Cmd.Keeps.pure _) ?_
  · exact (checkDir_keeps _).bind fun b => Cmd.Keeps.pure _
  · refine (chmod_frame hvalid hlink hAC hT _).bind fun r => Cmd.Keeps.ite (Cmd.Keeps.pure _) ?_
    exact (chown_frame hvalid hlink hAC hT _ _).bind fun r =>
      Cmd.Keeps.ite (Cmd.Keeps.pure _) (Cmd.Keeps.pure _)

/-- A regular file is made or overwritten.  The path is looked at once, by `open`; mode, owner and
content go through the descriptor. -/
theorem createFile_frame (hAC : ∀ fmt r, A fmt r → C r) (hreg : ∀ r, ¬A .reg r) (hT : ¬T .lnk)
    (htype : T .reg) (mode : BitVec 12) (owner group : Nat) :
    Cmd.Keeps (fun w => Frame q fs₀ A C T w.fs) (file.createFile paths mode owner group) := by
  unfold File.createFile
  rw [hnames.system]
  refine Cmd.Keeps.bind ((readPre_reads hnames _).post fun _ _ h => h.1) fun src => ?_
  cases src with
  | error e => exact Cmd.Keeps.pure _
  | ok src =>
    refine Cmd.Triple.bind (openTrunc_frame hvalid hlink hreg hT htype _) fun r => ?_
    cases r with
    | error e =>
      intro w h
      exact h.1
    | ok fd =>
      refine Cmd.Triple.of_fact fun hfd => ?_
      obtain rfl := hfd fd rfl
      -- from here on everything goes through the descriptor
      refine (fchmod_frame hAC _).bind fun r => Cmd.Keeps.ite (Cmd.Keeps.pure _) ?_
      refine (fchown_frame hAC _ _).bind fun r => Cmd.Keeps.ite (Cmd.Keeps.pure _) ?_
      exact (clonefile_frame hAC hreg _).bind fun b =>
        Cmd.Keeps.ite (Cmd.Keeps.pure _) (copyfile_frame hAC hreg _)

/-- A symlink is made and gets its owner by `lchown`, so that its target is not touched. -/
theorem createLink_frame (hAC : ∀ fmt r, A fmt r → C r) (hlnk : T .lnk) (owner group : Nat) :
    Cmd.Keeps (fun w => Frame q fs₀ A C T w.fs) (file.createLink paths owner group) := by
  unfold File.createLink File.readlinkPre
  rw [hnames.system]
  refine Cmd.Keeps.bind ?_ fun tmp => ?_
  · refine Cmd.Keeps.bind ((readPre_reads hnames _).post fun _ _ h => h.1) fun r => ?_
    cases r <;> exact Cmd.Keeps.pure _
  · refine (symlink_frame hvalid hlink hlnk _).bind fun r => Cmd.Keeps.ite (Cmd.Keeps.pure _) ?_
    exact (lchown_frame hvalid hlink hAC _ _).bind fun r =>
      Cmd.Keeps.ite (Cmd.Keeps.pure _) (Cmd.Keeps.pure _)

/-- Making a file of the type of the pre snapshot touches nothing else.  Only a symlink is not
opened or changed through its path, so for the other types no symlink may be at the path. -/
theorem createAllTypes_frame (hAC : ∀ fmt r, A fmt r → C r)
    (hreg : ∀ f, paths.pre.lookup p = some f → f.fmt = .reg → ∀ r, ¬A .reg r)
    (hmake : MayMake paths.pre p T) :
    Cmd.Keeps (fun w => Frame q fs₀ A C T w.fs) (file.createAllTypes paths) := by
  unfold File.createAllTypes
  rw [hnames.system]
  refine Cmd.Triple.bind (lstatPre_reads (I := Frame q fs₀ A C T) hnames) fun r =>
    Cmd.Triple.of_fact fun hf => ?_
  cases r with
  | error e => exact Cmd.Keeps.pure _
  | ok f =>
    have hf := hf f rfl
    have hkind : f.fmt ≠ .lnk → ¬T .lnk := fun h => hmake.follow ((noLinkBefore_iff hf).mpr h)
    have htype := hmake.type f hf
    have hreg := hreg f hf
    refine (createParentDirectories_frame hvalid hlink (List.prefix_refl q)).bind fun made =>
      Cmd.Keeps.ite (Cmd.Keeps.pure _) ?_
    -- one routine for each of the three types; other types are not restored
    cases hfmt : f.fmt <;> rw [hfmt] at hkind htype hreg
    case dir =>
      exact createDirectory_frame hnames hvalid hlink hAC (hkind (by decide))
        (htype (by decide)) _ _ _
    case reg =>
      exact createFile_frame hnames hvalid hlink hAC (hreg rfl) (hkind (by decide))
        (htype (by decide)) _ _ _
    case lnk => exact createLink_frame hnames hvalid hlink hAC (htype (by decide)) _ _
    all_goals exact Cmd.Keeps.pure _

/-- A file that is reported as deleted has no name left, if it was one that can be deleted.  For
the other types `deleteAllTypes` reports success without a deletion, so `T` must exclude them. -/
theorem deleteAllTypes_gone (hne : q ≠ []) (hord : ∀ fmt, T fmt → fmt.Ordinary) :
    Cmd.Triple (fun w => Frame q fs₀ A C T w.fs) (file.deleteAllTypes paths)
      fun r w => Frame q fs₀ A C T w.fs ∧ (r = true → Frame q fs₀ Alone C T w.fs) := by
  unfold File.deleteAllTypes
  rw [hnames.system]
  -- what `lstat` shows is the file, and where it shows that there is none there is none
  have hlstat : Cmd.Triple (fun w => Frame q fs₀ A C T w.fs) (lstat (pathName q))
      fun r w => Frame q fs₀ A C T w.fs ∧ (∀ n, r = .ok n → T n.fmt) ∧
        (r = .error .enoent → Frame q fs₀ Alone C T w.fs) := by
    intro w h
    have hfind : w.fs.find q = none → Frame q fs₀ Alone C T w.fs := fun hnone =>
      { within := h.within
        names := fun _ _ hn => by
          rw [hnone] at hn
          cases hn
        type := h.type }
    obtain ⟨a, fs, hf, hrun⟩ | ⟨e, he, hrun⟩ :=
      syscall_cases (fun w => (w.fs.stat false (pathName q)).map fun n => (n, w.fs)) w
    · unfold lstat
      rw [hrun]
      cases hstat : w.fs.stat false (pathName q) with
      | error e =>
        rw [hstat] at hf
        cases hf
      | ok n =>
        rw [hstat] at hf
        cases hf
        obtain ⟨r, hres, hn⟩ := Fs.stat_ok hstat
        obtain rfl := eq_of_resolve hvalid (h.within.noLinkAbove hlink) (Or.inl rfl) hres
        refine ⟨h, fun m hm => ?_, fun herr => by cases herr⟩
        obtain rfl := Except.ok.inj hm
        exact h.type hn
    · unfold lstat
      rw [hrun]
      refine ⟨h, fun n hn => (by cases hn), fun herr => ?_⟩
      cases herr
      have hstat := he.resolve_right (by decide)
      refine hfind (Option.eq_none_iff_forall_ne_some.mpr fun n hn => ?_)
      rw [Fs.lstat_literal (literal_of_find hne hvalid hn) hn] at hstat
      cases hstat
  refine hlstat.bind fun r => ?_
  cases r with
  | error e =>
    intro w ⟨h, _, hnone⟩
    refine ⟨h, fun he => hnone ?_⟩
    have he : decide (e = .enoent) = true := he
    rw [of_decide_eq_true he]
  | ok n =>
    have hrmdir := (rmdir_frame (A := A) (C := C) (T := T) hvalid hlink).bind
      (k := fun r => pure (!failed r))
      (R := fun r w => Frame q fs₀ A C T w.fs ∧ (r = true → Frame q fs₀ Alone C T w.fs))
      fun r w h => ⟨h.1, fun hok => h.2 (by simpa using hok)⟩
    have hunlink := (unlink_frame (A := A) (C := C) (T := T) hvalid hlink).bind
      (k := fun r => pure (!failed r))
      (R := fun r w => Frame q fs₀ A C T w.fs ∧ (r = true → Frame q fs₀ Alone C T w.fs))
      fun r w h => ⟨h.1, fun hok => h.2 (by simpa using hok)⟩
    intro w ⟨h, htype, _⟩
    have hfmt := hord _ (htype n rfl)
    dsimp only
    unfold FileType.Ordinary at hfmt
    -- the three types of `T`
    cases hcase : n.fmt <;> rw [hcase] at hfmt
    case dir => exact hrmdir w h
    case reg => exact hunlink w h
    case lnk => exact hunlink w h
    all_goals simp at hfmt

/-- With its content a file gets an inode of its own: the old one is deleted and a new one made,
and the second call is not reached when the first one has failed. -/
theorem modifyContent_frame (hne : q ≠ []) (hord : ∀ fmt, T fmt → fmt.Ordinary)
    (hmake : MayMake paths.pre p T) {f : Inode} (hf : paths.pre.lookup p = some f) :
    Cmd.Triple (fun w => Frame q fs₀ A C T w.fs) (file.modifyContent paths f)
      fun r w => Frame q fs₀ A C T w.fs ∧
        ((f.fmt = .reg ∨ f.fmt = .lnk) → r = true → Frame q fs₀ Alone C T w.fs) := by
  have hdelete := deleteAllTypes_gone (A := A) (C := C) hnames hvalid hlink hne hord
  have hkind : f.fmt ≠ .lnk → ¬T .lnk := fun h => hmake.follow ((noLinkBefore_iff hf).mpr h)
  have htype := hmake.type f hf
  -- what is made after the deletion has no other name
  have hafter : ∀ (k : Cmd World Bool), Cmd.Keeps (fun w => Frame q fs₀ Alone C T w.fs) k →
      Cmd.Triple (fun w => Frame q fs₀ A C T w.fs)
        (do
          if !(← file.deleteAllTypes paths) then return false
          k)
        fun r w => Frame q fs₀ A C T w.fs ∧
          ((f.fmt = .reg ∨ f.fmt = .lnk) → r = true → Frame q fs₀ Alone C T w.fs) := by
    intro k hk
    refine hdelete.bind fun b => ?_
    cases b with
    | false =>
      intro w h
      exact ⟨h.1, fun _ hfalse => by cases hfalse⟩
    | true =>
      intro w h
      have hdone : Frame q fs₀ Alone C T (k.run w).2.fs := hk w (h.2 rfl)
      exact ⟨hdone.of_alone, fun _ _ => hdone⟩
  unfold File.modifyContent
  cases hfmt : f.fmt <;> rw [hfmt] at hkind htype hafter
  case reg =>
    exact hafter _ (createFile_frame hnames hvalid hlink (fun _ _ h => h.elim) (fun _ h => h)
      (hkind (by decide)) (htype (by decide)) _ _ _)
  case lnk =>
    exact hafter _ (createLink_frame hnames hvalid hlink (fun _ _ h => h.elim)
      (htype (by decide)) _ _)
  all_goals
    intro w h
    exact ⟨h, fun hor => by simp at hor⟩

/-- The two calls after the content: `chmod` follows a symlink, `lchown` does not. -/
theorem modifyRights_frame {B : FileType → Path → Prop} (hBC : ∀ fmt r, B fmt r → C r)
    (hmode : file.preToPostStatus.permissions = true → ¬T .lnk) (f : Inode) :
    Cmd.Keeps (fun w => Frame q fs₀ B C T w.fs) (do
      let r ← Cmd.when file.preToPostStatus.permissions (chmod (file.systemPath paths) f.perm)
        (.ok ())
      if failed r then return false
      let r ← Cmd.when (file.preToPostStatus.user || file.preToPostStatus.group)
        (lchown (file.systemPath paths) f.uid f.gid) (.ok ())
      if failed r then return false
      return true : Cmd World Bool) := by
  rw [hnames.system]
  refine Cmd.Keeps.bind ?_ fun r => Cmd.Keeps.ite (Cmd.Keeps.pure _) ?_
  · exact Cmd.Triple.when (fun hperm => chmod_frame hvalid hlink hBC (hmode hperm) _)
      fun _ _ hs => hs
  · exact (Cmd.Keeps.when _ (lchown_frame hvalid hlink hBC _ _)).bind fun r =>
      Cmd.Keeps.ite (Cmd.Keeps.pure _) (Cmd.Keeps.pure _)

/-- Changing a file in place or replacing it touches nothing else.  The mode may be set where the
file of the pre snapshot is no symlink; a file that keeps other names is changed in place, and
then `C` has to allow for these names. -/
theorem modifyAllTypes_frame (hne : q ≠ []) (hmake : MayMake paths.pre p T)
    (hmode : file.preToPostStatus.permissions = true → ¬T .lnk)
    (hcontent : file.preToPostStatus.content = true → (∀ fmt, T fmt → fmt.Ordinary) ∧
      ∀ f, paths.pre.lookup p = some f → f.fmt = .reg ∨ f.fmt = .lnk)
    (hAC : file.preToPostStatus.content = false → ∀ fmt r, A fmt r → C r) :
    Cmd.Triple (fun w => Frame q fs₀ A C T w.fs) (file.modifyAllTypes paths)
      fun _ w => Within q C fs₀ w.fs := by
  unfold File.modifyAllTypes
  refine Cmd.Triple.bind (lstatPre_reads (I := Frame q fs₀ A C T) hnames) fun r =>
    Cmd.Triple.of_fact fun hf => ?_
  have hstop : ∀ b : Bool, Cmd.Triple (fun w => Frame q fs₀ A C T w.fs) (pure b : Cmd World Bool)
      fun _ w => Within q C fs₀ w.fs := fun _ _ h => h.within
  cases r with
  | error e => exact hstop false
  | ok f =>
    have hf := hf f rfl
    have hparents := createParentDirectories_frame (A := A) (C := C) (T := T) hvalid hlink
      (List.prefix_refl q)
    rw [← hnames.system] at hparents
    refine Cmd.Triple.bind hparents fun made => ?_
    cases made with
    | false => exact hstop false
    | true =>
      show Cmd.Triple _ (_ >>= _) _
      -- with a new content the file has no other names left when its mode and owner are set;
      -- without one they are the old ones
      cases hcase : file.preToPostStatus.content with
      | false =>
        intro w h
        exact (modifyRights_frame (B := A) hnames hvalid hlink (hAC hcase) hmode f w h).within
      | true =>
        obtain ⟨hord, hfmt⟩ := hcontent hcase
        refine (modifyContent_frame hnames hvalid hlink hne hord hmake hf).bind fun done => ?_
        cases done with
        | false =>
          intro w h
          exact h.1.within
        | true =>
          intro w h
          exact (modifyRights_frame (B := Alone) hnames hvalid hlink (fun _ _ h => h.elim) hmode f w
            (h.2 (hfmt f hf) rfl)).within

end Path

private theorem heads_of_take {l : List Bool} (h : true ∉ l.take 2) :
    l.head? ≠ some true ∧ l.tail.head? ≠ some true := by
  match l with
  | [] => simp
  | [b] => simp_all
  | b :: b' :: l => simp_all

/-- Where `lstat` and `unlink` do not fail by themselves a file of an ordinary type is deleted, and
with it what its other names could show; a directory has none. -/
theorem deleteAllTypes_removed (hnames : Names paths file p q) (hvalid : ∀ n ∈ q, ValidName n)
    (hne : q ≠ []) {w : World} (hlink : NoLinkAbove w.fs q) {n : Node} (hn : w.fs.find q = some n)
    (hord : n.fmt.Ordinary) (hfaults : true ∉ w.faults.take 2) (hT : T .dir) :
    Frame q w.fs Alone C T ((file.deleteAllTypes paths).run w).2.fs := by
  by_cases hdir : n.fmt = .dir
  · refine deleteAllTypes_frame hnames hvalid hlink w ⟨Within.refl q C w.fs, ?_, ?_⟩
    -- a directory has one name
    · exact fun hr hlinked _ => hr.symm (hlinked.eq_of_dir hn hdir)
    · intro m hm
      obtain rfl := Option.some.inj (hn.symm.trans hm)
      rwa [hdir]
  · have hq := literal_of_find hne hvalid hn
    -- `lstat` and `unlink` are the only two calls
    obtain ⟨hfirst, hsecond⟩ := heads_of_take hfaults
    obtain ⟨hremove, hunlink⟩ := Fs.unlink_literal hq hn hdir
    have hrun₁ := syscall_of_not_fault hfirst
      (f := fun w => (w.fs.stat false (pathName q)).map fun n => (n, w.fs))
      (Fs.lstat_literal hq hn)
    have hrun₂ := syscall_of_not_fault (w := { w with faults := w.faults.tail }) hsecond
      (a := ()) (f := fun w => unit (w.fs.unlink (pathName q))) (unit_eq_ok.mpr hunlink)
    have hafter : ((file.deleteAllTypes paths).run w).2.fs = w.fs.remove q hremove := by
      unfold File.deleteAllTypes
      rw [hnames.system]
      unfold lstat unlink
      obtain hfmt | hfmt : n.fmt = .reg ∨ n.fmt = .lnk := hord.resolve_left hdir
      all_goals simp only [Cmd.run_bind, hrun₁, hfmt, hrun₂, Cmd.run_pure]
    have hsets := Fs.sets_remove hremove
    rw [hafter]
    refine ⟨fun r hr => Or.inl (hsets.other hr fun hkept => by cases hkept.1), ?_, ?_⟩
    · exact fun hr hlinked _ => by cases ((hsets.shared hr).mp hlinked).1
    · intro m hm
      rw [hsets.self] at hm
      cases hm

/-- The step does not change the file at `q` in place: it only deletes it, or what it makes has an
inode of its own, since the deletion before that is certain.  With a new content the deletion is
checked by the undo; with a new type it is not, so that it must not fail. -/
def Replaces (fs : Fs) (faults : List Bool) (q : Path) (st : Status) : Prop :=
  st = .CREATED ∨ st.content = true ∨
    st.type = true ∧ (fs.find q).any (fun n => n.fmt.Ordinary) = true ∧ true ∉ faults.take 2

section Step

variable {w : World} (hnames : Names paths file p q) (hvalid : ∀ n ∈ q, ValidName n)
  (hne : q ≠ []) (hlink : NoLinkAbove w.fs q)

include hnames hvalid hlink

/-- A file that was created is only deleted. -/
theorem undoCreated_within (hst : file.preToPostStatus = .CREATED) :
    Within q C w.fs (undoFile paths w file).fs := by
  have hdelete := deleteAllTypes_frame (A := fun _ _ => True) (C := C) (T := fun _ => True)
    hnames hvalid hlink w ⟨Within.refl q C w.fs, fun _ _ _ => trivial, fun _ => trivial⟩
  unfold undoFile File.doUndo
  simpa [hst, Status.CREATED, Status.modified] using hdelete.within

include hne

/-- A file with another content is deleted and made again, so that neither the content nor the mode
and owner that are set afterwards show at another name. -/
theorem undoContent_within (hboth : file.preToPostStatus.Both)
    (hcase : file.preToPostStatus.content = true)
    (hmode : file.preToPostStatus.permissions = true → NoLinkBefore paths.pre p)
    (hstart : NoLinkBefore paths.pre p → w.fs.isLnk q = false)
    (hord : ∀ n, w.fs.find q = some n → n.fmt.Ordinary)
    (hpre : ∀ f, paths.pre.lookup p = some f → f.fmt = .reg ∨ f.fmt = .lnk) :
    Within q C w.fs (undoFile paths w file).fs := by
  have htype : file.preToPostStatus.type = false := by
    cases htype : file.preToPostStatus.type with
    | false => rfl
    | true =>
      rw [hboth.not_type_content htype] at hcase
      cases hcase
  have hmake : MayMake paths.pre p
      fun fmt => fmt.Ordinary ∧ (NoLinkBefore paths.pre p → fmt ≠ .lnk) :=
    ⟨fun f hf hord => ⟨hord, fun h => (noLinkBefore_iff hf).mp h⟩, fun h hlnk => hlnk.2 h rfl⟩
  have hframe : Frame q w.fs (fun _ _ => True) C
      (fun fmt => fmt.Ordinary ∧ (NoLinkBefore paths.pre p → fmt ≠ .lnk)) w.fs := by
    refine ⟨Within.refl q C w.fs, fun _ _ _ => trivial, fun {n} hn => ?_⟩
    refine ⟨hord n hn, fun hpre hfmt => ?_⟩
    have hlnk := Fs.isLnk_iff.mpr ⟨n, hn, hfmt⟩
    rw [hstart hpre] at hlnk
    cases hlnk
  have hmodify := modifyAllTypes_frame hnames hvalid hlink hne hmake
    (fun hperm hlnk => hmake.follow (hmode hperm) hlnk) (fun _ => ⟨fun _ h => h.1, hpre⟩)
    (fun hc => by rw [hcase] at hc; cases hc) w hframe
  have hmodified : file.preToPostStatus.modified = true := by simp [Status.modified, hcase]
  -- with such a status the third phase is the only one
  unfold undoFile File.doUndo
  simpa [hboth.not_created, htype, hboth.not_deleted, hmodified] using hmodify

/-- The first phase where the content is no other one.  If the status asks for a replacement the
file has no other name afterwards, and otherwise its other names are paths of `C`. -/
theorem deletePhase_frame (hnot : file.preToPostStatus.created = false)
    (hcase : file.preToPostStatus.content = false)
    (hstart : w.fs.isLnk q = true → NoLinkBefore paths.pre p →
      file.preToPostStatus.type = true ∧ true ∉ w.faults.take 2)
    (hshared : Replaces w.fs w.faults q file.preToPostStatus ∨
      ∀ r, r ≠ q → w.fs.Linked q r → C r)
    (hregular : (file.preToPostStatus.deleted || file.preToPostStatus.type) = true →
      ∀ f n, paths.pre.lookup p = some f → w.fs.find q = some n → f.fmt = .reg → n.fmt ≠ .reg) :
    ∃ B : FileType → Path → Prop, (∀ fmt r, B fmt r → C r) ∧
      ((file.preToPostStatus.deleted || file.preToPostStatus.type) = true →
        ∀ f, paths.pre.lookup p = some f → f.fmt = .reg → ∀ r, ¬B .reg r) ∧
      Cmd.Triple (fun s => s = w)
        (Cmd.when (file.preToPostStatus.created || file.preToPostStatus.type)
          (file.deleteAllTypes paths) true)
        fun _ s => Frame q w.fs B C (fun fmt => NoLinkBefore paths.pre p → fmt ≠ .lnk) s.fs := by
  rw [hnot, Bool.false_or]
  by_cases hreplace : Replaces w.fs w.faults q file.preToPostStatus
  · obtain ⟨htype, hord, hfaults⟩ := (hreplace.resolve_left
      (by rintro h; rw [h] at hnot; cases hnot)).resolve_left (by simp [hcase])
    obtain ⟨n, hn, hfmt⟩ : ∃ n, w.fs.find q = some n ∧ n.fmt.Ordinary := by
      cases hn : w.fs.find q with
      | none =>
        rw [hn] at hord
        cases hord
      | some n =>
        rw [hn] at hord
        exact ⟨n, rfl, of_decide_eq_true hord⟩
    refine ⟨Alone, fun _ _ h => h.elim, fun _ _ _ _ _ h => h, ?_⟩
    rw [htype]
    intro s hs
    subst hs
    exact deleteAllTypes_removed hnames hvalid hne hlink hn hfmt hfaults fun _ => by decide
  · have hC := hshared.resolve_left hreplace
    refine ⟨fun fmt r => r ≠ q ∧ w.fs.Linked q r ∧ ∃ n, w.fs.find q = some n ∧ n.fmt = fmt,
      fun _ r h => hC r h.1 h.2.1, ?_, ?_⟩
    · rintro hphase f hf hfreg r ⟨-, -, n, hn, hnreg⟩
      exact hregular hphase f n hf hn hfreg hnreg
    · have hframe : Frame q w.fs
          (fun fmt r => r ≠ q ∧ w.fs.Linked q r ∧ ∃ n, w.fs.find q = some n ∧ n.fmt = fmt) C
          (fun fmt => NoLinkBefore paths.pre p → fmt ≠ .lnk) w.fs := by
        refine ⟨Within.refl q C w.fs, fun {r n} hr hlinked hn => ⟨hr, hlinked, n, hn, rfl⟩, ?_⟩
        intro n hn hpre hfmt
        -- a symlink would be replaced
        obtain ⟨htype, hfaults⟩ := hstart (Fs.isLnk_iff.mpr ⟨n, hn, hfmt⟩) hpre
        refine hreplace (Or.inr (Or.inr ⟨htype, ?_, hfaults⟩))
        rw [hn, Option.any_some, hfmt]
        decide
      apply Cmd.Triple.when
      · intro _ s hs
        subst hs
        exact deleteAllTypes_frame hnames hvalid hlink s hframe
      · intro _ s hs
        subst hs
        exact hframe

/-- Undoing a file touches nothing else, if no symlink gets in the way, but for modes and owners
at the paths of `C` where the file has other names and is not replaced.  The first phase deletes,
the second creates and the third modifies; which of them run is in the status. -/
theorem undoFile_within (hst : file.preToPostStatus.Reported)
    (hmode : file.preToPostStatus.permissions = true → NoLinkBefore paths.pre p)
    (hstart : w.fs.isLnk q = true → NoLinkBefore paths.pre p →
      file.preToPostStatus = .CREATED ∨
        (file.preToPostStatus.type = true ∧ true ∉ w.faults.take 2))
    (hshared : Replaces w.fs w.faults q file.preToPostStatus ∨
      ∀ r, r ≠ q → w.fs.Linked q r → C r)
    (hregular : (file.preToPostStatus.deleted || file.preToPostStatus.type) = true →
      ∀ f n, paths.pre.lookup p = some f → w.fs.find q = some n → f.fmt = .reg → n.fmt ≠ .reg)
    (hcontent : file.preToPostStatus.content = true →
      (∀ n, w.fs.find q = some n → n.fmt.Ordinary) ∧
        ∀ f, paths.pre.lookup p = some f → f.fmt = .reg ∨ f.fmt = .lnk) :
    Within q C w.fs (undoFile paths w file).fs := by
  by_cases hcreated : file.preToPostStatus = .CREATED
  · exact undoCreated_within hnames hvalid hlink hcreated
  replace hstart := fun hlnk hpre => (hstart hlnk hpre).resolve_left hcreated
  cases hcase : file.preToPostStatus.content with
  | true =>
    have hboth : file.preToPostStatus.Both := by
      obtain h | h | h := hst
      · exact absurd h hcreated
      · rw [h] at hcase
        cases hcase
      · exact h
    refine undoContent_within hnames hvalid hne hlink hboth hcase hmode (fun hpre => ?_)
      (hcontent hcase).1 (hcontent hcase).2
    -- a symlink in the place of another file would be another type, not another content
    cases hlnk : w.fs.isLnk q with
    | false => rfl
    | true =>
      rw [hboth.not_type_content (hstart hlnk hpre).1] at hcase
      cases hcase
  | false =>
    have hnot : file.preToPostStatus.created = false := by
      obtain h | h | h := hst
      · exact absurd h hcreated
      · rw [h]
        rfl
      · exact h.not_created
    have hmake : MayMake paths.pre p fun fmt => NoLinkBefore paths.pre p → fmt ≠ .lnk :=
      ⟨fun f hf _ h => (noLinkBefore_iff hf).mp h, fun h hlnk => hlnk h rfl⟩
    obtain ⟨B, hBC, hreg, hdelete⟩ :=
      deletePhase_frame hnames hvalid hne hlink hnot hcase hstart hshared hregular
    have hcreate : Cmd.Keeps
        (fun s => Frame q w.fs B C (fun fmt => NoLinkBefore paths.pre p → fmt ≠ .lnk) s.fs)
        (Cmd.when (file.preToPostStatus.deleted || file.preToPostStatus.type)
          (file.createAllTypes paths) true) :=
      Cmd.Triple.when (fun hphase =>
        createAllTypes_frame hnames hvalid hlink hBC (hreg hphase) hmake)
        fun _ _ hs => hs
    have hmodify : Cmd.Triple
        (fun s => Frame q w.fs B C (fun fmt => NoLinkBefore paths.pre p → fmt ≠ .lnk) s.fs)
        (Cmd.when file.preToPostStatus.modified (file.modifyAllTypes paths) true)
        fun _ s => Within q C w.fs s.fs :=
      Cmd.Triple.when (fun _ => modifyAllTypes_frame hnames hvalid hlink hne hmake
        (fun hperm hlnk => hmake.follow (hmode hperm) hlnk)
        (fun hc => by rw [hcase] at hc; cases hc) fun _ => hBC) fun _ _ hs => hs.within
    -- the three phases one after the other
    have hundo : Cmd.Triple (fun s => s = w) (file.doUndo paths)
        fun _ s => Within q C w.fs s.fs :=
      hdelete.bind fun _ => Cmd.Triple.bind hcreate fun _ => hmodify.bind fun _ _ hs => hs
    exact hundo w rfl

end Step

end Routines

/-! ## The whole undo -/

/-- Only the files of `touched` may be others, and missing directories above them may have been
made. Everything about a file counts, its mode and owner included. -/
def Untouched (touched : Path → Prop) (before after : Fs) : Prop :=
  ∀ r, ¬touched r → after.find r = before.find r ∨
    (before.find r = none ∧ (∃ q, touched q ∧ r <+: q ∧ r ≠ q) ∧ after.isDir r = true)

/-- The place of an entry on the running system. -/
def entryPath (sub : Path) (file : File) : Path := sub ++ components file.name

/-- The path is that of a marked entry. -/
def Selected (sub : Path) (files : List File) (r : Path) : Prop :=
  ∃ file ∈ files, file.undo = true ∧ r = entryPath sub file

/-- No symlink gets in the way of the step, and no hard link to a path that is not selected.  It
is a condition on the state before the step: on the directories above the path, on the types of
the two files, on the other names of the file and on the failures ahead. -/
structure Framed (pre : Tree) (sub : Path) (files : List File) (w : World) (file : File) :
    Prop where
  above : NoLinkAbove w.fs (entryPath sub file)
  mode : file.preToPostStatus.permissions = true → NoLinkBefore pre (components file.name)
  delete : file.preToPostStatus.type = true → w.fs.isLnk (entryPath sub file) = true →
    true ∉ w.faults.take 2
  /-- The other names of the file are of marked entries, unless the step replaces it. -/
  names : Replaces w.fs w.faults (entryPath sub file) file.preToPostStatus ∨
    ∀ r, r ≠ entryPath sub file → w.fs.Linked (entryPath sub file) r → Selected sub files r

instance (fs : Fs) (q : Path) : Decidable (NoLinkAbove fs q) :=
  decidable_of_iff (∀ r ∈ q.inits, r ≠ q → fs.isLnk r = false) <| by
    simp [NoLinkAbove, List.mem_inits]

instance (pre : Tree) (p : Path) : Decidable (NoLinkBefore pre p) :=
  decidable_of_iff ((pre.lookup p).all (fun f => f.fmt ≠ .lnk) = true) <| by
    cases h : pre.lookup p <;> simp [NoLinkBefore, h]

instance (fs : Fs) (faults : List Bool) (q : Path) (st : Status) :
    Decidable (Replaces fs faults q st) :=
  inferInstanceAs (Decidable (_ ∨ _ ∨ _ ∧ _ ∧ _))

instance (sub : Path) (files : List File) (r : Path) : Decidable (Selected sub files r) :=
  inferInstanceAs (Decidable (∃ file ∈ files, file.undo = true ∧ r = entryPath sub file))

instance (pre : Tree) (sub : Path) (files : List File) (w : World) (file : File) :
    Decidable (Framed pre sub files w file) :=
  decidable_of_iff (NoLinkAbove w.fs (entryPath sub file) ∧
    (file.preToPostStatus.permissions = true → NoLinkBefore pre (components file.name)) ∧
    (file.preToPostStatus.type = true → w.fs.isLnk (entryPath sub file) = true →
      true ∉ w.faults.take 2) ∧
    (Replaces w.fs w.faults (entryPath sub file) file.preToPostStatus ∨
      ∀ r ∈ w.fs.names.keys, r ≠ entryPath sub file → w.fs.Linked (entryPath sub file) r →
        Selected sub files r)) <| by
    constructor
    · rintro ⟨habove, hmode, hdelete, hnames⟩
      refine ⟨habove, hmode, hdelete, hnames.imp_right fun hall r hr hlinked =>
        hall r ?_ hr hlinked⟩
      -- what is a name is among the names
      exact AList.mem_keys.mp (AList.lookup_isSome.mp hlinked.symm.1)
    · rintro ⟨habove, hmode, hdelete, hnames⟩
      exact ⟨habove, hmode, hdelete, hnames.imp_right fun hall r _ hr hlinked => hall r hr hlinked⟩

section Run

variable {pre post : SnapshotTree} {sub : Path} {selected : Str → Bool} {files : List File}
  {done rest : List File} {file : File} {w₀ w : World}

/-- The paths whose steps are done. -/
def Done (sub : Path) (done : List File) (r : Path) : Prop :=
  ∃ file ∈ done, r = entryPath sub file

/-- In the middle of an undo: what is not selected is as it was, and what is selected and not done
yet has at least its type and content. -/
structure HalfwayFrame (sub : Path) (files : List File) (fs₀ : Fs) (done : List File) (fs : Fs) :
    Prop where
  untouched : Untouched (Selected sub files) fs₀ fs
  shapes : ∀ r, ¬Done sub done r → fs.shape r = fs₀.shape r ∨
    (fs₀.find r = none ∧ fs.isDir r = true)

/-- A step keeps the invariant: a path that is not selected is not touched by it, and one that is
selected and not done changes its mode and owner at most. -/
theorem HalfwayFrame.step {fs₀ fs fs' : Fs} (h : HalfwayFrame sub files fs₀ done fs)
    (hsel : Selected sub files (entryPath sub file))
    (hstep : Within (entryPath sub file) (Selected sub files) fs fs') :
    HalfwayFrame sub files fs₀ (done ++ [file]) fs' where
  untouched := by
    intro r hr
    -- the path of the step is selected, so `r` is another one
    have hne : r ≠ entryPath sub file := fun heq => hr (heq ▸ hsel)
    obtain hsame | ⟨hnone, hprefix, hdir⟩ | ⟨hC, _⟩ := hstep r hne
    · rw [hsame, Fs.isDir_congr hsame]
      exact h.untouched r hr
    · right
      refine ⟨?_, ⟨_, hsel, hprefix, hne⟩, hdir⟩
      obtain hsame | ⟨hfree, _⟩ := h.untouched r hr
      · exact hsame ▸ hnone
      · exact hfree
    · exact absurd hC hr
  shapes := by
    intro r hr
    have hne : r ≠ entryPath sub file := fun heq => hr ⟨file, by simp, heq⟩
    have hbefore := h.shapes r fun ⟨other, hother, heq⟩ =>
      hr ⟨other, List.mem_append_left _ hother, heq⟩
    obtain hsame | ⟨hnone, _, hdir⟩ | ⟨_, hshape⟩ := hstep r hne
    · rw [Fs.shape, hsame, Fs.isDir_congr hsame]
      exact hbefore
    · obtain hsame | ⟨hfree, _⟩ := hbefore
      · rw [Fs.shape_eq_none.mpr hnone] at hsame
        exact Or.inr ⟨Fs.shape_eq_none.mp hsame.symm, hdir⟩
      · exact Or.inr ⟨hfree, hdir⟩
    · rw [hshape]
      refine hbefore.imp_right fun ⟨hfree, hdir⟩ => ⟨hfree, ?_⟩
      -- a directory is one by its shape
      obtain ⟨n, hn, hfmt⟩ := Fs.isDir_iff.mp hdir
      rw [Fs.shape, Fs.shape, hn] at hshape
      obtain ⟨n', hn', hshape⟩ := Option.map_eq_some_iff.mp hshape
      exact Fs.isDir_iff.mpr ⟨n', hn', (congrArg Prod.fst hshape).trans hfmt⟩

/-- The file that a step finds is of the type that the post tree has at the path, or a directory
where the post tree has nothing. -/
def FromPost (g? : Option Inode) (n : Node) : Prop :=
  (∃ g, g? = some g ∧ n.fmt = g.fmt) ∨ (g? = none ∧ n.fmt = .dir)

section FromPost

variable {f? g? : Option Inode} {st : Status} {n : Node}

/-- A symlink where the pre tree has another file is one that was created or that has replaced a
file of another type. -/
theorem FromPost.of_link (hpost : FromPost g? n) (hst : diffStatus f? g? = some st)
    (hfmt : n.fmt = .lnk) (hpre : ∀ f, f? = some f → f.fmt ≠ .lnk) :
    st = .CREATED ∨ st.type = true := by
  obtain ⟨g, rfl, hgfmt⟩ | ⟨-, hdir⟩ := hpost
  · cases f? with
    | none => exact Or.inl (Option.some.inj hst).symm
    | some f =>
      right
      rw [diffStatus] at hst
      split_ifs at hst
      rw [← Option.some.inj hst, cmpFiles_type]
      exact fun heq => hpre f rfl (heq.trans (hgfmt.symm.trans hfmt))
  · rw [hdir] at hfmt
    cases hfmt

/-- A regular file of the pre tree is made where there is none. -/
theorem FromPost.not_reg (hpost : FromPost g? n) {f : Inode} (hst : diffStatus (some f) g? = some st)
    (hphase : (st.deleted || st.type) = true) (hfreg : f.fmt = .reg) : n.fmt ≠ .reg := by
  intro hnreg
  obtain ⟨g, rfl, hgfmt⟩ | ⟨-, hdir⟩ := hpost
  · rw [diffStatus] at hst
    split_ifs at hst
    rw [← Option.some.inj hst, (cmpFiles_both f g).not_deleted, Bool.false_or,
      cmpFiles_type] at hphase
    exact hphase (hfreg.trans (hnreg.symm.trans hgfmt))
  · rw [hdir] at hnreg
    cases hnreg

/-- Contents are compared of two files of one type, and only of regular files and symlinks. -/
theorem FromPost.of_content (hst : diffStatus f? g? = some st) (hc : st.content = true) :
    (∀ n, FromPost g? n → n.fmt.Ordinary) ∧ ∀ f, f? = some f → f.fmt = .reg ∨ f.fmt = .lnk := by
  -- of two files the comparison has looked at the contents
  cases f? with
  | none =>
    rw [diffStatus_none_left] at hst
    rw [hst.2] at hc
    cases hc
  | some f =>
    cases g? with
    | none =>
      rw [← Option.some.inj hst] at hc
      cases hc
    | some g =>
      rw [diffStatus] at hst
      split_ifs at hst
      rw [← Option.some.inj hst] at hc
      obtain ⟨hfg, hor⟩ := content_fmt hc
      refine ⟨fun n hpost => ?_, fun f' hf' => Option.some.inj hf' ▸ hor⟩
      obtain ⟨g', hg', hgfmt⟩ | ⟨hnone, -⟩ := hpost
      · obtain rfl := Option.some.inj hg'
        rw [hgfmt, ← hfg]
        exact Or.inr hor
      · cases hnone

end FromPost

/-- The file of a step is that of the post tree, but for its mode and owner, or a directory where
the post tree has nothing.  So the status of the entry still says what is there, and the calls of
the step do what they would have done at the beginning. -/
theorem HalfwayFrame.post_file {fs₀ fs : Fs} (h : HalfwayFrame sub files fs₀ done fs)
    (hsys : SystemAt fs₀ sub post.root) {p : Path} (hnew : ¬Done sub done (sub ++ p)) {n : Node}
    (hn : fs.find (sub ++ p) = some n) : FromPost (post.root.lookup p) n := by
  obtain hshape | ⟨hfree, hdir⟩ := h.shapes _ hnew
  · left
    rw [Fs.shape, Fs.shape, hn, hsys.files, Option.map_map] at hshape
    obtain ⟨g, hg, hgshape⟩ := Option.map_eq_some_iff.mp hshape.symm
    exact ⟨g, hg, (congrArg Prod.fst hgshape).symm⟩
  · right
    obtain ⟨d, hd, hfmt⟩ := Fs.isDir_iff.mp hdir
    obtain rfl := Option.some.inj (hn.symm.trans hd)
    rw [hsys.files] at hfree
    exact ⟨Option.map_eq_none_iff.mp hfree, hfmt⟩

/-- One step of the undo: the entry is at a path of the subvolume that no step before has reached,
and what is there is known from the comparison, so that `undoFile_within` applies. -/
theorem framed_step (hvalid : ∀ n ∈ sub, ValidName n) (hsys : SystemAt w₀.fs sub post.root)
    (horder : undoOrder (mark selected (compareTrees pre.root post.root)) = done ++ file :: rest)
    (h : HalfwayFrame sub (mark selected (compareTrees pre.root post.root)) w₀.fs done w.fs)
    (hframed : Framed pre.root sub (mark selected (compareTrees pre.root post.root)) w file) :
    HalfwayFrame sub (mark selected (compareTrees pre.root post.root)) w₀.fs (done ++ [file])
      (undoFile (undoPaths pre.root sub) w file).fs := by
  have hmem : file ∈ undoOrder (mark selected (compareTrees pre.root post.root)) := by
    rw [horder]
    simp
  obtain ⟨p, hname, hdiff⟩ := exists_differs_of_mem (mem_undoOrder.mp hmem).1
  have hp : components file.name = p := by rw [hname, hdiff.components]
  have hentry : entryPath sub file = sub ++ p := by rw [entryPath, hp]
  have hnames : Names (undoPaths pre.root sub) file p (sub ++ p) :=
    names_of_subvolume hvalid rfl hname hdiff.valid
  have hq : ∀ n ∈ sub ++ p, ValidName n := by
    intro n hn
    obtain hn | hn := List.mem_append.mp hn
    · exact hvalid n hn
    · exact hdiff.valid n hn
  have hne : sub ++ p ≠ [] := by simp [hdiff.1]
  -- every name stands once in the comparison
  have hnew : ¬Done sub done (sub ++ p) := by
    intro ⟨other, hother, heq⟩
    have hmem' : other ∈ undoOrder (mark selected (compareTrees pre.root post.root)) := by
      rw [horder]
      exact List.mem_append_left _ hother
    obtain ⟨p', hname', hdiff'⟩ := exists_differs_of_mem (mem_undoOrder.mp hmem').1
    rw [entryPath, hname', hdiff'.components] at heq
    refine name_not_mem_done (namesAscend_mark (namesAscend_compareTrees _ _) _) horder
      (List.mem_map.mpr ⟨other, hother, ?_⟩)
    rw [hname, hname', List.append_cancel_left heq]
  obtain ⟨habove, hmode, hdelete, hlinks⟩ := hframed
  rw [hentry] at habove hdelete hlinks
  rw [hp] at hmode
  obtain ⟨_, _, hst⟩ := hdiff
  have hfound : ∀ n, w.fs.find (sub ++ p) = some n → FromPost (post.root.lookup p) n :=
    fun n hn => h.post_file hsys hnew hn
  -- the status says what is to be expected of the file that is found
  have hstart : w.fs.isLnk (sub ++ p) = true → NoLinkBefore pre.root p →
      file.preToPostStatus = .CREATED ∨
        (file.preToPostStatus.type = true ∧ true ∉ w.faults.take 2) := by
    intro hlnk hpre
    obtain ⟨n, hn, hfmt⟩ := Fs.isLnk_iff.mp hlnk
    exact ((hfound n hn).of_link hst hfmt hpre).imp_right fun htype => ⟨htype, hdelete htype hlnk⟩
  have hregular : (file.preToPostStatus.deleted || file.preToPostStatus.type) = true →
      ∀ f n, pre.root.lookup p = some f → w.fs.find (sub ++ p) = some n → f.fmt = .reg →
        n.fmt ≠ .reg := by
    intro hphase f n hf hn hfreg
    exact (hfound n hn).not_reg (hf ▸ hst) hphase hfreg
  have hcontent : file.preToPostStatus.content = true →
      (∀ n, w.fs.find (sub ++ p) = some n → n.fmt.Ordinary) ∧
        ∀ f, pre.root.lookup p = some f → f.fmt = .reg ∨ f.fmt = .lnk := by
    intro hc
    have hboth := FromPost.of_content hst hc
    exact ⟨fun n hn => hboth.1 n (hfound n hn), hboth.2⟩
  have hsel : Selected sub (mark selected (compareTrees pre.root post.root))
      (entryPath sub file) := ⟨file, (mem_undoOrder.mp hmem).1, (mem_undoOrder.mp hmem).2, rfl⟩
  refine h.step hsel ?_
  rw [hentry]
  have hreported : file.preToPostStatus.Reported := Differs.reported ⟨‹_›, ‹_›, hst⟩
  exact undoFile_within hnames hq hne habove hreported hmode hstart hlinks hregular hcontent

end Run

/-- Where no symlink gets in the way of any step, and no hard link to another path, an undo
touches the selected files and nothing else.  Directories that are missing above a selected file
are made. -/
theorem undo_touches_only_selected (pre post : SnapshotTree) (selected : Str → Bool) (sub : Path)
    (hvalid : ∀ n ∈ sub, ValidName n) (w : World) (hsys : SystemAt w.fs sub post.root)
    (hrun : Along (Framed pre.root sub (mark selected (compareTrees pre.root post.root)))
      (undoFile (undoPaths pre.root sub))
      (undoOrder (mark selected (compareTrees pre.root post.root))) w) :
    Untouched (Selected sub (mark selected (compareTrees pre.root post.root))) w.fs
      (undoComparison (undoPaths pre.root sub)
        (mark selected (compareTrees pre.root post.root)) w).fs := by
  have hend := hrun.induction
    (P := fun done w' =>
      HalfwayFrame sub (mark selected (compareTrees pre.root post.root)) w.fs done w'.fs)
    ⟨fun r _ => Or.inl rfl, fun r _ => Or.inl rfl⟩
    (fun done file rest horder h hC => framed_step hvalid hsys horder h hC)
    (List.append_nil _).symm
  rw [undoComparison_eq (namesAscend_mark (namesAscend_compareTrees _ _) _)]
  exact hend.untouched

/-- Two files … -/
private def twoFiles : SnapshotTree where
  root := .node (plainDir 1)
    [(str "a", .node (plainFile 1 (str "x")) []), (str "b", .node (plainFile 1 (str "y")) [])]
  wf := by decide
  isDir := rfl
  oneDev := by decide

/-- … and the first of them as a symlink to the second. -/
private def fileAndLink : SnapshotTree where
  root := .node (plainDir 2)
    [(str "a", .node (plainLink 2 (str "b")) []), (str "b", .node (plainFile 2 (str "y")) [])]
  wf := by decide
  isDir := rfl
  oneDev := by decide

/-- The symlink becomes a file again and its target stays as it was. -/
theorem undo_touches_only_selected_link :
    (undoComparison (undoPaths twoFiles.root [str "s"])
      (mark (fun _ => true) (compareTrees twoFiles.root fileAndLink.root))
      { fs := mounted [str "s"] (by decide) fileAndLink.toDirTree, faults := [], canClone := true,
        umask := 0o022 }).fs.find [str "s", str "b"] =
      some (plainFile 2 (str "y")).node := by
  have h := undo_touches_only_selected twoFiles fileAndLink (fun _ => true) [str "s"] (by decide)
    { fs := mounted [str "s"] (by decide) fileAndLink.toDirTree, faults := [], canClone := true,
      umask := 0o022 }
    (mounted_systemAt [str "s"] (by decide) fileAndLink.toDirTree) (by decide +kernel)
  obtain hsame | ⟨hnone, _⟩ := h [str "s", str "b"] (by decide +kernel)
  · exact hsame.trans (by decide +kernel)
  · exact absurd hnone (by decide +kernel)

/-- Undone the other way round, the symlink is restored and the mode it gets goes to the
file it leads to, which is not selected. -/
theorem undo_mode_through_link :
    ¬Untouched
      (Selected [str "s"] (mark (· = str "/a") (compareTrees fileAndLink.root twoFiles.root)))
      (mounted [str "s"] (by decide) twoFiles.toDirTree)
      (undoComparison (undoPaths fileAndLink.root [str "s"])
        (mark (· = str "/a") (compareTrees fileAndLink.root twoFiles.root))
        { fs := mounted [str "s"] (by decide) twoFiles.toDirTree, faults := [], canClone := true,
          umask := 0o022 }).fs := by
  intro h
  obtain hsame | ⟨hnone, _⟩ := h [str "s", str "b"] (by decide +kernel)
  · exact absurd hsame (by decide +kernel)
  · exact absurd hnone (by decide +kernel)

/-- Two files of different modes. -/
private def twoModes : SnapshotTree where
  root := pairRoot 0o600 0o755
  wf := by decide
  isDir := rfl
  oneDev := by decide

/-- The mode of the one name of a file shows at the other, which is not selected. -/
theorem undo_mode_at_hard_link :
    ¬Untouched
      (Selected [str "s"] (mark (· = str "/f") (compareTrees twoModes.root modePair.root)))
      linkedFs
      (undoComparison (undoPaths twoModes.root [str "s"])
        (mark (· = str "/f") (compareTrees twoModes.root modePair.root))
        { fs := linkedFs, faults := [], canClone := true, umask := 0o022 }).fs := by
  intro h
  obtain hsame | ⟨hnone, _⟩ := h [str "s", str "g"] (by decide +kernel)
  · exact absurd hsame (by decide +kernel)
  · exact absurd hnone (by decide +kernel)

end Snapper
