import Snapper.System.Found
import Snapper.Undo.Plain

/-!
# What a successful step has done

`doUndo` reports success as a flag.  For each of its routines this module says what is
found at the path of the file when the flag is set, wherever symlinks on the way lead and
whatever calls fail.

## Main results

- `createAllTypes_found`: a file that was missing is there
- `createAllTypes_blocked`: a file of another type that was left in place is noticed
- `modifyAllTypes_has`, `modifyAllTypes_found`: the content is kept, or it is that of the pre tree
- `doUndo_succeeds`: a step from its three phases
-/

namespace Snapper

open General Cmd

section Copying

variable {path : Str} {fd : Path} {data : Str}

/-- A failed clone leaves the file as it was. -/
theorem clonefile_open (src : Str) :
    Triple (fun w => Fs.OpenAt path fd data w.fs) (clonefile src fd)
      fun b w => Fs.OpenAt path fd (if b then src else data) w.fs := by
  refine (ioctlClone_open src).bind fun r => Triple.pure fun w h => ?_
  cases hr : failed r <;> simpa [hr] using h

/-- Copying in chunks appends all of the source to what the file has. -/
theorem copyfile_open (src : Str) :
    Succeeds (fun w => Fs.OpenAt path fd data w.fs) (copyfile src fd)
      fun w => Fs.OpenAt path fd (data ++ src) w.fs := by
  induction src using copyfile.induct generalizing data with
  | case1 src ih =>
    rw [copyfile]
    refine Triple.bind (sendfile_open src 0xffff) fun r => ?_
    cases r with
    | error e => exact Succeeds.failure
    | ok n =>
      show Succeeds _ (if _h : src = [] then _ else _) _
      split
      · next hsrc =>
        subst hsrc
        exact Succeeds.success fun w h => h rfl
      · next hsrc =>
        -- the first chunk is written, and the rest is shorter
        have hrest : Succeeds (fun w => Fs.OpenAt path fd (data ++ src.take 0xffff) w.fs)
            (copyfile (src.drop 0xffff) fd)
            fun w => Fs.OpenAt path fd (data ++ src.take 0xffff ++ src.drop 0xffff) w.fs :=
          ih hsrc
        rw [List.append_assoc, List.take_append_drop] at hrest
        exact hrest.pre _ fun w h => h rfl

end Copying

theorem restored_shape_eq (f : Inode) : (restored f).shape =
    (f.fmt, if f.fmt = .lnk then f.stored.take 1024 else f.stored) := rfl

/-- A symlink that was made has the target that was read of the pre snapshot. -/
theorem createLink_target (paths : FilePaths) (file : File) (owner group : Nat)
    {P : World → Prop} (hnul : ∀ t,
      (paths.pre.lookup (components file.name)).bind Inode.data = some t → 0 ∉ t) :
    Succeeds P (file.createLink paths owner group)
      fun w => ∃ t, (paths.pre.lookup (components file.name)).bind Inode.data = some t ∧
        w.fs.Has (file.systemPath paths) (.lnk, t.take 1024) := by
  unfold File.createLink
  -- the target is read from the snapshot, 1024 bytes at most
  have hreadlink : Triple P (file.readlinkPre paths) fun tmp _ => True ∧ (tmp = [] ∨
      ∃ t, (paths.pre.lookup (components file.name)).bind Inode.data = some t ∧
        tmp = t.take 1024) := by
    unfold File.readlinkPre
    have hread : Triple (fun _ => True) (file.readPre paths readlink) _ :=
      readPre_looks (I := fun _ => True) readlink
    refine Triple.bind (hread.conseq (fun _ _ => trivial) fun _ _ h => h) fun r =>
      Triple.of_fact fun hread => ?_
    cases r with
    | error e => exact fun w _ => ⟨trivial, Or.inl rfl⟩
    | ok tmp =>
      refine fun w _ => ⟨trivial, Or.inr ?_⟩
      obtain ⟨f, hf, hread⟩ := Option.bind_eq_some_iff.mp (hread tmp rfl)
      obtain ⟨t, ht, heq⟩ := Option.map_eq_some_iff.mp hread
      exact ⟨t, Option.bind_eq_some_iff.mpr ⟨f, hf, ht⟩, heq.symm⟩
  refine hreadlink.bind fun tmp => Triple.of_fact fun htmp => ?_
  refine Succeeds.check (symlink_found _ tmp) ?_
  refine Succeeds.pre (fun w => w.fs.Has (file.systemPath paths) (.lnk, cstr tmp) ∧ cstr tmp ≠ [])
    (fun w h => h) (Triple.of_fact fun hne => ?_)
  obtain rfl | ⟨t, ht, rfl⟩ := htmp
  -- an empty target is not created
  · exact absurd rfl hne
  · have hcstr : cstr (t.take 1024) = t.take 1024 :=
      cstr_of_no_nul fun h => hnul t ht (List.mem_of_mem_take h)
    rw [hcstr]
    refine Succeeds.check ((lchown_has _ _ _).post fun _ _ h _ => h) ?_
    exact Succeeds.success fun w h => ⟨t, ht, h⟩

section Routines

variable {paths : FilePaths} {file : File} {p q : Path} {f : Inode} {s : FileType × Str}
  (hnames : Names paths file p q)

include hnames

/-! ## Deleting -/

/-- What is deleted is not found any more. -/
theorem deleteAllTypes_found (hs : s.1.Ordinary) :
    Succeeds (fun w => w.fs.Has (pathName q) s) (file.deleteAllTypes paths)
      fun w => w.fs.Absent (pathName q) := by
  unfold File.deleteAllTypes
  rw [hnames.system]
  refine Triple.bind lstat_found fun r => Triple.of_fact fun hr => ?_
  cases r with
  | error e =>
    subst hr
    exact Succeeds.failure
  | ok n =>
    have hfmt : n.fmt = s.1 := congrArg Prod.fst hr
    rw [← hfmt] at hs
    have hflag : ∀ r : Except Errno Unit, Succeeds
        (fun w : World => failed r = false → w.fs.Absent (pathName q)) (pure (!failed r))
        fun w => w.fs.Absent (pathName q) := by
      intro r w hw hok
      exact hw (by simpa using hok)
    -- a directory is removed by rmdir, the other two by unlink
    obtain hdir | hreg | hlnk := hs
    · simp only [hdir]
      exact (rmdir_found _).bind hflag
    · simp only [hreg]
      exact (unlink_found _).bind hflag
    · simp only [hlnk]
      exact (unlink_found _).bind hflag

/-- A file of another type stays, and that is no failure. -/
theorem deleteAllTypes_stays (hs : ¬s.1.Ordinary) :
    Keeps (fun w => w.fs.Has (pathName q) s) (file.deleteAllTypes paths) := by
  unfold File.deleteAllTypes
  rw [hnames.system]
  refine Triple.bind lstat_found fun r => Triple.of_fact fun hr => ?_
  cases r with
  | error e => exact Keeps.pure _
  | ok n =>
    have hfmt : n.fmt = s.1 := congrArg Prod.fst hr
    rw [← hfmt, FileType.Ordinary] at hs
    dsimp only
    cases hcase : n.fmt
    case dir => exact absurd (Or.inl hcase) hs
    case reg => exact absurd (Or.inr (Or.inl hcase)) hs
    case lnk => exact absurd (Or.inr (Or.inr hcase)) hs
    all_goals exact Keeps.pure _

/-! ## Parent directories -/

theorem createParentDirectories_has (hvalid : ∀ n ∈ q, ValidName n) :
    Keeps (fun w => w.fs.Has (pathName q) s) (createParentDirectories (file.systemPath paths)) := by
  rw [hnames.system]
  exact createParentDirectories_keeps hvalid stat_keeps (fun r _ _ => mkdir_has _ _)
    (List.prefix_refl q)

/-- Making the directories above a missing file does not make it appear. -/
theorem createParentDirectories_absent (hvalid : ∀ n ∈ q, ValidName n) :
    Keeps (fun w => w.fs.Absent (pathName q))
      (createParentDirectories (file.systemPath paths)) := by
  rw [hnames.system]
  refine createParentDirectories_keeps hvalid stat_keeps ?_ (List.prefix_refl q)
  intro r hr hne
  obtain ⟨p', rfl⟩ := hr
  apply syscall_keeps
  intro w a fs _ hf
  obtain ⟨s, d, hres, hfree, hd, hfind⟩ := Fs.mkdir_ok (unit_eq_ok.mp hf)
  have hp' : p' ≠ [] := fun hnil => hne (by rw [hnil, List.append_nil])
  exact Fs.absent_of_mkdir (fun n hn => hvalid n (List.mem_append_left _ hn))
    (fun n hn => hvalid n (List.mem_append_right _ hn)) hp' hres hfree (congrArg Prod.fst hd) hfind

/-! ## Creating -/

/-- When `createDirectory` succeeds there is an empty directory at the path. -/
theorem createDirectory_found (mode : BitVec 12) (owner group : Nat) :
    Succeeds (fun w => w.fs.Absent (pathName q)) (file.createDirectory paths mode owner group)
      fun w => w.fs.Has (pathName q) (.dir, []) := by
  unfold File.createDirectory
  rw [hnames.system]
  -- whatever becomes of `mkdir`, only a directory it has made gets its mode
  have hmade : Triple (fun w => w.fs.Absent (pathName q)) (mkdir (pathName q) 0)
      fun _ w => w.fs.Absent (pathName q) ∨ w.fs.Has (pathName q) (.dir, []) := by
    refine (mkdir_absent 0).post fun r w h => ?_
    split at h
    · exact Or.inl h
    · exact Or.inr h
  refine hmade.bind fun r => ?_
  refine Triple.bind (Keeps.when _ ?_) fun blocked =>
    Triple.ite (fun _ => Succeeds.failure) fun _ => ?_
  · exact Keeps.bind (checkDir_keeps (I := fun fs => fs.Absent (pathName q) ∨
      fs.Has (pathName q) (.dir, [])) _) fun _ => Keeps.pure _
  · refine Succeeds.check (Q := fun w => w.fs.Has (pathName q) (.dir, [])) ?_ ?_
    · intro w hw hok
      obtain habsent | hhas := hw
      · rw [(chmod_absent mode w habsent).2] at hok
        cases hok
      · exact chmod_has _ _ w hhas
    · refine Succeeds.check ((chown_has _ _ _).post fun _ _ h _ => h) ?_
      exact Succeeds.success fun _ h => h

/-- When `createFile` succeeds the file has the content of the pre-snapshot: the file was new, so
nothing was in front of it. -/
theorem createFile_found (hf : paths.pre.lookup p = some f) (mode : BitVec 12)
    (owner group : Nat) :
    Succeeds (fun w => w.fs.Absent (pathName q)) (file.createFile paths mode owner group)
      fun w => ∃ bs, f.data = some bs ∧ w.fs.Has (pathName q) (.reg, bs) := by
  unfold File.createFile
  rw [hnames.system]
  refine Triple.bind (readPre_reads (I := Fs.Absent (pathName q)) hnames _) fun r =>
    Triple.of_fact fun hread => ?_
  cases r with
  | error e => exact Succeeds.failure
  | ok src =>
    have hsrc : f.data = some src := by
      have hread := hread src rfl
      rwa [hf] at hread
    refine Triple.bind (openTrunc_absent mode) fun r => ?_
    cases r with
    | error e => exact Succeeds.failure
    | ok fd =>
      refine Succeeds.pre (fun w => Fs.OpenAt (pathName q) fd [] w.fs) (fun w h => h fd rfl) ?_
      refine Succeeds.check ((fchmod_open mode).post fun _ _ h _ => h) ?_
      refine Succeeds.check ((fchown_open owner group).post fun _ _ h _ => h) ?_
      refine Triple.bind (clonefile_open src) fun b => Triple.ite (fun hb => ?_) fun hb => ?_
      · rw [hb]
        exact Succeeds.success fun w h => ⟨src, hsrc, h.has⟩
      · -- the file is still empty
        have hb : b = false := by simpa using hb
        subst hb
        exact (copyfile_open src).post fun _ _ h hok => ⟨src, hsrc, (h hok).has⟩

theorem createLink_found (hf : paths.pre.lookup p = some f) (owner group : Nat)
    (hnul : ∀ t, f.data = some t → 0 ∉ t) (P : World → Prop) :
    Succeeds P (file.createLink paths owner group)
      fun w => ∃ t, f.data = some t ∧ w.fs.Has (pathName q) (.lnk, t.take 1024) := by
  have htarget := createLink_target paths file owner group (P := P)
  rw [hnames.components, hf, hnames.system] at htarget
  exact htarget hnul

theorem createFile_restored (hf : paths.pre.lookup p = some f) (hreg : f.fmt = .reg) :
    Succeeds (fun w => w.fs.Absent (pathName q)) (file.createFile paths f.perm f.uid f.gid)
      fun w => w.fs.Has (pathName q) (restored f).shape := by
  refine (createFile_found hnames hf _ _ _).post fun b w h hb => ?_
  obtain ⟨bs, hbs, hhas⟩ := h hb
  rw [restored_shape_eq]
  simpa [Inode.stored, hreg, hbs] using hhas

/-- When `createLink` succeeds there is the link of the pre-snapshot, cut to what `readlink` can
hold. -/
theorem createLink_restored (hf : paths.pre.lookup p = some f) (hreal : f.Real)
    (hlnk : f.fmt = .lnk) (P : World → Prop) :
    Succeeds P (file.createLink paths f.uid f.gid)
      fun w => w.fs.Has (pathName q) (restored f).shape := by
  rw [Inode.Real, hlnk] at hreal
  obtain ⟨⟨t, ht, _, hnul⟩, _⟩ := hreal
  refine (createLink_found hnames hf _ _ ?_ _).post fun b w h hb => ?_
  · intro t' ht'
    rw [ht] at ht'
    cases ht'
    exact hnul
  · obtain ⟨t', ht', hhas⟩ := h hb
    rw [restored_shape_eq]
    simpa [Inode.stored, hlnk, ht'] using hhas

/-- A missing file that can be made is there. -/
theorem createAllTypes_found (hvalid : ∀ n ∈ q, ValidName n) (hf : paths.pre.lookup p = some f)
    (hreal : f.Real) (hord : f.fmt.Ordinary) :
    Succeeds (fun w => w.fs.Absent (pathName q)) (file.createAllTypes paths)
      fun w => w.fs.Has (pathName q) (restored f).shape := by
  unfold File.createAllTypes
  refine Triple.bind (lstatPre_reads (I := Fs.Absent (pathName q)) hnames) fun r =>
    Triple.of_fact fun hread => ?_
  cases r with
  | error e => exact Succeeds.failure
  | ok f' =>
    -- the snapshot is read only, so the file is the one of the tree
    have hff : f = f' := by
      have hread := hread f' rfl
      rw [hf] at hread
      exact Option.some.inj hread
    subst hff
    refine Succeeds.check
      ((createParentDirectories_absent hnames hvalid).post fun _ _ h _ => h) ?_
    obtain hdir | hreg | hlnk := hord
    · have hshape : (restored f).shape = (.dir, []) := by
        simp [restored_shape_eq, Inode.stored, hdir]
      rw [hshape]
      simp only [hdir]
      exact createDirectory_found hnames _ _ _
    · have hcreate := createFile_restored hnames hf hreg
      simp only [hreg]
      exact hcreate
    · have hcreate := createLink_restored hnames hf hreal hlnk fun w => w.fs.Absent (pathName q)
      simp only [hlnk]
      exact hcreate

/-- A file of another type is not made, and that is no failure. -/
theorem createAllTypes_special (hvalid : ∀ n ∈ q, ValidName n)
    (hf : paths.pre.lookup p = some f) (hord : ¬f.fmt.Ordinary) :
    Keeps (fun w => w.fs.Absent (pathName q)) (file.createAllTypes paths) := by
  unfold File.createAllTypes
  refine Triple.bind (lstatPre_reads (I := Fs.Absent (pathName q)) hnames) fun r =>
    Triple.of_fact fun hread => ?_
  cases r with
  | error e => exact Keeps.pure _
  | ok f' =>
    have hread := hread f' rfl
    rw [hf] at hread
    cases hread
    refine (createParentDirectories_absent hnames hvalid).bind fun made =>
      Keeps.ite (Keeps.pure _) ?_
    unfold FileType.Ordinary at hord
    -- the switch has no case for such a file
    cases hfmt : f.fmt
    case dir => exact absurd (Or.inl hfmt) hord
    case reg => exact absurd (Or.inr (Or.inl hfmt)) hord
    case lnk => exact absurd (Or.inr (Or.inr hfmt)) hord
    all_goals exact Keeps.pure _

/-! ## Files in the way -/

/-- `createLink` cannot succeed where something already is. -/
theorem createLink_blocked (owner group : Nat) :
    Succeeds (fun w => w.fs.Has (pathName q) s) (file.createLink paths owner group)
      fun _ => False := by
  unfold File.createLink File.readlinkPre
  rw [hnames.system]
  refine Triple.bind (Q := fun _ w => w.fs.Has (pathName q) s) ?_ fun tmp => ?_
  · refine Triple.bind ((readPre_reads hnames _).post fun _ _ h => h.1) fun r => ?_
    cases r <;> exact Keeps.pure _
  · refine Succeeds.check (Q := fun _ => False) ((symlink_has tmp).post fun r w h hr => ?_) ?_
    · rw [h.2] at hr
      cases hr
    · exact fun w h => h.elim

/-- `createFile` cannot succeed at a socket, since `open` does not open one. -/
theorem createFile_blocked (hs : s.1 = .sock) (mode : BitVec 12) (owner group : Nat) :
    Succeeds (fun w => w.fs.Has (pathName q) s) (file.createFile paths mode owner group)
      fun _ => False := by
  obtain ⟨fmt, d⟩ := s
  subst hs
  unfold File.createFile
  rw [hnames.system]
  refine Triple.bind ((readPre_reads hnames _).post fun _ _ h => h.1) fun r => ?_
  cases r with
  | error e => exact Succeeds.failure
  | ok src =>
    refine Triple.bind (openTrunc_sock mode) fun r => ?_
    cases r with
    | error e => exact Succeeds.failure
    | ok fd => exact fun w h => by cases h

/-- The call that fails for no reason is what `createDirectory` does not notice. -/
theorem createDirectory_blocked (hs : ¬s.1.Ordinary) (mode : BitVec 12) (owner group : Nat) :
    Succeeds (fun w => w.fs.Has (pathName q) s ∧ w.faults = [])
      (file.createDirectory paths mode owner group) fun _ => False := by
  intro w ⟨hhas, hfaults⟩ hok
  obtain ⟨r, hres, hshape⟩ := Fs.has_iff.mp hhas
  obtain ⟨n, hn, hns⟩ := Option.map_eq_some_iff.mp hshape
  have hmkdir : (mkdir (pathName q) 0).run w = (.error .eexist, w) := by
    apply syscall_error hfaults
    simp [Fs.mkdir, Fs.make, hres, hn, bind, Except.bind]
    rfl
  -- what is there is no directory, whether or not `stat` finds it
  have hcheck : ((checkDir (pathName q)).run w).1 = false := by
    unfold checkDir
    cases hstat : w.fs.stat true (pathName q) with
    | error e =>
      have hrun : (stat (pathName q)).run w = (.error e, w) := by
        apply syscall_error hfaults
        rw [hstat]
        rfl
      simp [hrun]
    | ok m =>
      have hrun : (stat (pathName q)).run w = (.ok m, w) := by
        apply syscall_ok hfaults
        rw [hstat]
        rfl
      obtain ⟨r', hres', hm⟩ := Fs.stat_ok hstat
      have hsame := hhas.resolve (fun h => hs (Or.inr (Or.inr h))) hres'
      rw [Fs.shape, hm] at hsame
      have hfmt : m.fmt = s.1 := congrArg Prod.fst (Option.some.inj hsame)
      have hnot : m.fmt ≠ .dir := fun h => hs (Or.inl (hfmt ▸ h))
      simp [hrun, hnot]
  unfold File.createDirectory at hok
  rw [hnames.system] at hok
  simp only [Cmd.run_bind, hmkdir, decide_true, Cmd.when_true, hcheck, Bool.not_false,
    Cmd.run_pure, if_true, Bool.false_eq_true] at hok

/-- A file in the way is noticed when a symlink is made, and when a socket is opened. -/
theorem createAllTypes_blocked (hvalid : ∀ n ∈ q, ValidName n)
    (hf : paths.pre.lookup p = some f)
    (hkind : f.fmt = .lnk ∨ (f.fmt = .reg ∧ s.1 = .sock)) :
    Succeeds (fun w => w.fs.Has (pathName q) s) (file.createAllTypes paths) fun _ => False := by
  unfold File.createAllTypes
  refine Triple.bind (lstatPre_reads (I := Fs.Has (pathName q) s) hnames) fun r =>
    Triple.of_fact fun hread => ?_
  cases r with
  | error e => exact Succeeds.failure
  | ok f' =>
    have hread := hread f' rfl
    rw [hf] at hread
    cases hread
    refine Succeeds.check
      ((createParentDirectories_has hnames hvalid).post fun _ _ h _ => h) ?_
    -- symlink fails on a name that exists, open on a socket
    obtain hlnk | ⟨hreg, hsock⟩ := hkind
    · simp only [hlnk]
      exact createLink_blocked hnames _ _
    · simp only [hreg]
      exact createFile_blocked hnames hsock _ _ _

omit hnames in
theorem createParentDirectories_faults (hvalid : ∀ n ∈ q, ValidName n) :
    Keeps (fun w => w.faults = []) (createParentDirectories (pathName q)) :=
  createParentDirectories_keeps hvalid (fun _ => syscall_keeps_faults)
    (fun _ _ _ => syscall_keeps_faults) (List.prefix_refl q)

/-- It is noticed when a directory is made and no call fails by itself. -/
theorem createAllTypes_blocked_dir (hvalid : ∀ n ∈ q, ValidName n)
    (hf : paths.pre.lookup p = some f) (hdir : f.fmt = .dir) (hs : ¬s.1.Ordinary) :
    Succeeds (fun w => w.fs.Has (pathName q) s ∧ w.faults = []) (file.createAllTypes paths)
      fun _ => False := by
  unfold File.createAllTypes
  -- mkdir passes over EEXIST, which a look at the directory then corrects
  have hkeep : Keeps (fun w => w.faults = []) (file.lstatPre paths) := syscall_keeps_faults
  have hread := (lstatPre_reads (I := Fs.Has (pathName q) s) hnames).and_keeps hkeep
  refine Triple.bind hread fun r => ?_
  cases r with
  | error e => exact Succeeds.failure
  | ok f' =>
    refine Succeeds.pre (fun w => (w.fs.Has (pathName q) s ∧ w.faults = []) ∧ f = f') ?_
      (Triple.of_fact fun hff => ?_)
    · intro w ⟨⟨hhas, hlookup⟩, hfaults⟩
      have hlookup := hlookup f' rfl
      rw [hf] at hlookup
      exact ⟨⟨hhas, hfaults⟩, Option.some.inj hlookup⟩
    · subst hff
      have hparents := (createParentDirectories_has (s := s) hnames hvalid).and_keeps
        (I := fun w => w.faults = []) (hnames.system ▸ createParentDirectories_faults hvalid)
      refine Succeeds.check (hparents.post fun _ _ h _ => h) ?_
      simp only [hdir]
      exact createDirectory_blocked hnames hs _ _ _

omit hnames in
/-- `deleteAllTypes` without failing calls has none left over either. -/
theorem deleteAllTypes_faults :
    Keeps (fun w => w.faults = []) (file.deleteAllTypes paths) := by
  unfold File.deleteAllTypes
  refine Keeps.bind syscall_keeps_faults fun r => ?_
  cases r with
  | error e => exact Keeps.pure _
  | ok n =>
    have hcall : ∀ c : Cmd World (Except Errno Unit), Keeps (fun w => w.faults = []) c →
        Keeps (fun w => w.faults = []) (do return !failed (← c) : Cmd World Bool) :=
      fun c hc => hc.bind fun r => Keeps.pure _
    dsimp only
    cases n.fmt
    case dir => exact hcall _ syscall_keeps_faults
    case reg => exact hcall _ syscall_keeps_faults
    case lnk => exact hcall _ syscall_keeps_faults
    all_goals exact Keeps.pure _

/-! ## Modifying -/

/-- When the content is modified successfully the type and the content are those of the
pre-snapshot. -/
theorem modifyContent_found (hf : paths.pre.lookup p = some f) (hreal : f.Real)
    (hfmt : f.fmt = .reg ∨ f.fmt = .lnk) (hs : s.1 = f.fmt) :
    Succeeds (fun w => w.fs.Has (pathName q) s) (file.modifyContent paths f)
      fun w => w.fs.Has (pathName q) (restored f).shape := by
  have hdelete := deleteAllTypes_found hnames (hs ▸ Or.inr hfmt : s.1.Ordinary)
  unfold File.modifyContent
  have hchecked : Triple (fun w => w.fs.Has (pathName q) s) (file.deleteAllTypes paths)
      fun b w => (!b) = false → w.fs.Absent (pathName q) :=
    hdelete.post fun b w h hb => h (by simpa using hb)
  obtain hreg | hlnk := hfmt
  · have hcreate := createFile_restored hnames hf hreg
    simp only [hreg]
    exact Succeeds.check hchecked hcreate
  · have hcreate := createLink_restored hnames hf hreal hlnk fun w => w.fs.Absent (pathName q)
    simp only [hlnk]
    exact Succeeds.check hchecked hcreate

/-- A change without the content keeps the content. -/
theorem modifyAllTypes_has (hvalid : ∀ n ∈ q, ValidName n)
    (hcontent : file.preToPostStatus.content = false) :
    Keeps (fun w => w.fs.Has (pathName q) s) (file.modifyAllTypes paths) := by
  unfold File.modifyAllTypes
  refine Keeps.bind ((lstatPre_reads hnames).post fun _ _ h => h.1) fun r => ?_
  cases r with
  | error e => exact Keeps.pure _
  | ok f =>
    refine (createParentDirectories_has hnames hvalid).bind fun made =>
      Keeps.ite (Keeps.pure _) ?_
    rw [hcontent, when_false]
    refine (Keeps.pure _).bind fun done => Keeps.ite (Keeps.pure _) ?_
    refine (Keeps.when _ (chmod_has _ _)).bind fun r => Keeps.ite (Keeps.pure _) ?_
    exact (Keeps.when _ (lchown_has _ _ _)).bind fun r =>
      Keeps.ite (Keeps.pure _) (Keeps.pure _)

/-- The content of the pre snapshot is there. -/
theorem modifyAllTypes_found (hvalid : ∀ n ∈ q, ValidName n) (hf : paths.pre.lookup p = some f)
    (hreal : f.Real) (hfmt : f.fmt = .reg ∨ f.fmt = .lnk) (hs : s.1 = f.fmt)
    (hcontent : file.preToPostStatus.content = true) :
    Succeeds (fun w => w.fs.Has (pathName q) s) (file.modifyAllTypes paths)
      fun w => w.fs.Has (pathName q) (restored f).shape := by
  unfold File.modifyAllTypes
  refine Triple.bind (lstatPre_reads (I := Fs.Has (pathName q) s) hnames) fun r =>
    Triple.of_fact fun hread => ?_
  cases r with
  | error e => exact Succeeds.failure
  | ok f' =>
    have hff : f = f' := by
      have hread := hread f' rfl
      rw [hf] at hread
      exact Option.some.inj hread
    subst hff
    refine Succeeds.check ((createParentDirectories_has hnames hvalid).post fun _ _ h _ => h) ?_
    rw [hcontent, when_true]
    have hmodify := modifyContent_found hnames hf hreal hfmt hs
    -- the content first; neither chmod nor lchown changes it
    refine Succeeds.check (hmodify.post fun b w h hb => h (by simpa using hb)) ?_
    refine Succeeds.check ((Keeps.when _ (chmod_has _ _)).post fun _ _ h _ => h) ?_
    refine Succeeds.check ((Keeps.when _ (lchown_has _ _ _)).post fun _ _ h _ => h) ?_
    exact Succeeds.success fun _ h => h

/-- Setting the mode or the owner of a missing file is noticed. -/
theorem modifyAllTypes_absent (hvalid : ∀ n ∈ q, ValidName n)
    (hcontent : file.preToPostStatus.content = false)
    (hmodified : file.preToPostStatus.modified = true) :
    Succeeds (fun w => w.fs.Absent (pathName q)) (file.modifyAllTypes paths)
      fun _ => False := by
  unfold File.modifyAllTypes
  refine Triple.bind ((lstatPre_reads hnames).post fun _ _ h => h.1) fun r => ?_
  cases r with
  | error e => exact Succeeds.failure
  | ok f =>
    refine Succeeds.check
      ((createParentDirectories_absent hnames hvalid).post fun _ _ h _ => h) ?_
    rw [hcontent, when_false]
    refine Succeeds.check (Q := fun w => w.fs.Absent (pathName q)) (fun w h _ => h) ?_
    rw [hnames.system]
    -- some attribute is set, and the first of them fails on what is absent
    cases hperm : file.preToPostStatus.permissions with
    | true =>
      rw [when_true]
      refine Succeeds.check (Q := fun _ => False) ((chmod_absent _).post fun r w h hr => ?_)
        fun w h => h.elim
      rw [h.2] at hr
      cases hr
    | false =>
      rw [when_false]
      refine Succeeds.check (Q := fun w => w.fs.Absent (pathName q)) (fun w h _ => h) ?_
      have howner : (file.preToPostStatus.user || file.preToPostStatus.group) = true := by
        simpa [Status.modified, hcontent, hperm] using hmodified
      rw [howner, when_true]
      refine Succeeds.check (Q := fun _ => False) ((lchown_absent _ _).post fun r w h hr => ?_)
        fun w h => h.elim
      rw [h.2] at hr
      cases hr

end Routines

/-! ## Undoing -/

section Undoing

variable {paths : FilePaths} {file : File} {P₀ P₁ P₂ P₃ : World → Prop}

/-- A step that reports success has succeeded in each of its phases. -/
theorem doUndo_succeeds
    (hdelete : Succeeds P₀ (Cmd.when (file.preToPostStatus.created || file.preToPostStatus.type)
      (file.deleteAllTypes paths) true) P₁)
    (hcreate : Succeeds P₁ (Cmd.when (file.preToPostStatus.deleted || file.preToPostStatus.type)
      (file.createAllTypes paths) true) P₂)
    (hmodify : Succeeds P₂ (Cmd.when file.preToPostStatus.modified
      (file.modifyAllTypes paths) true) P₃) :
    Succeeds P₀ (file.doUndo paths) P₃ := by
  unfold File.doUndo
  refine hdelete.bind fun deleted => ?_
  refine Triple.bind (hcreate.and deleted) fun created => ?_
  refine Triple.bind (hmodify.and (deleted && created)) fun modified => ?_
  exact Triple.pure fun w h => h

/-- The rule for a created entry: only the deletion runs. -/
theorem doUndo_created_succeeds (hst : file.preToPostStatus = .CREATED)
    (hdelete : Succeeds P₀ (file.deleteAllTypes paths) P₁) :
    Succeeds P₀ (file.doUndo paths) P₁ := by
  refine doUndo_succeeds ?_ (Succeeds.when ?_ fun _ _ h => h) (Succeeds.when ?_ fun _ _ h => h)
  all_goals rw [hst]
  · exact Succeeds.when (fun _ => hdelete) fun h => by cases h
  · exact fun h => by cases h
  · exact fun h => by cases h

/-- The rule for a deleted entry: only the creation runs. -/
theorem doUndo_deleted_succeeds (hst : file.preToPostStatus = .DELETED)
    (hcreate : Succeeds P₀ (file.createAllTypes paths) P₁) :
    Succeeds P₀ (file.doUndo paths) P₁ := by
  refine doUndo_succeeds (Succeeds.when ?_ fun _ _ h => h) ?_ (Succeeds.when ?_ fun _ _ h => h)
  all_goals rw [hst]
  · exact fun h => by cases h
  · exact Succeeds.when (fun _ => hcreate) fun h => by cases h
  · exact fun h => by cases h

/-- The rule for an entry whose type differs: deletion, creation and, when the status says so, the
modification, each behind the success of the one before. -/
theorem doUndo_type_succeeds (htype : file.preToPostStatus.type = true)
    (hdelete : Succeeds P₀ (file.deleteAllTypes paths) P₁)
    (hcreate : Succeeds P₁ (file.createAllTypes paths) P₂)
    (hmodify : Succeeds P₂ (Cmd.when file.preToPostStatus.modified
      (file.modifyAllTypes paths) true) P₃) :
    Succeeds P₀ (file.doUndo paths) P₃ := by
  have hdelete' : Succeeds P₀ (Cmd.when (file.preToPostStatus.created ||
      file.preToPostStatus.type) (file.deleteAllTypes paths) true) P₁ := by
    rw [htype, Bool.or_true]
    exact hdelete
  have hcreate' : Succeeds P₁ (Cmd.when (file.preToPostStatus.deleted ||
      file.preToPostStatus.type) (file.createAllTypes paths) true) P₂ := by
    rw [htype, Bool.or_true]
    exact hcreate
  exact doUndo_succeeds hdelete' hcreate' hmodify

/-- The rule for an entry with the same type in both snapshots: only the modification runs. -/
theorem doUndo_same_succeeds (hboth : file.preToPostStatus.Both)
    (htype : file.preToPostStatus.type = false)
    (hmodify : Succeeds P₀ (Cmd.when file.preToPostStatus.modified
      (file.modifyAllTypes paths) true) P₁) :
    Succeeds P₀ (file.doUndo paths) P₁ := by
  refine doUndo_succeeds (Succeeds.when ?_ fun _ _ h => h) (Succeeds.when ?_ fun _ _ h => h) hmodify
  · rw [hboth.not_created, htype]
    exact fun h => by cases h
  · rw [hboth.not_deleted, htype]
    exact fun h => by cases h

end Undoing

end Snapper
