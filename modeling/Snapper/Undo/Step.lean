import Snapper.System.Literal
import Snapper.System.Outcome
import Snapper.Undo.File

/-!
# What undoing one file does

When no call fails by itself and everything above the file is a directory, undoing a
change sets the file to a known value and leaves everything else alone, with one
exception: the mode of a restored symlink goes to the file the symlink leads to.
-/

namespace Snapper

open General

/-- The files a snapshot or the system can hold: what is read of a regular file has the
length `stat` says, a symlink has a target and every mode bit. -/
def Inode.Real (i : Inode) : Prop :=
  match i.fmt with
  | .reg => ∃ bs, i.data = some bs ∧ i.size = bs.length
  | .lnk => (∃ t, i.data = some t ∧ t ≠ [] ∧ 0 ∉ t) ∧ i.perm = S_IRWXUGO
  | _ => True

instance (i : Inode) : Decidable i.Real :=
  decidable_of_iff
    ((i.fmt = .reg → i.data.any (fun bs => i.size = bs.length) = true) ∧
      (i.fmt = .lnk → i.data.any (fun t => t ≠ [] ∧ 0 ∉ t) = true ∧ i.perm = S_IRWXUGO)) <| by
    unfold Inode.Real
    cases i.fmt <;> simp [Option.any_eq_true]

/-- What the undo can make: directories, regular files and symlinks. -/
def FileType.Ordinary (fmt : FileType) : Prop := fmt = .dir ∨ fmt = .reg ∨ fmt = .lnk

instance (fmt : FileType) : Decidable fmt.Ordinary := inferInstanceAs (Decidable (_ ∨ _))

/-- What is stored of a file besides its type. -/
def Inode.stored (i : Inode) : Str :=
  match i.fmt with
  | .reg | .lnk => i.data.getD []
  | _ => []

/-- A file of a snapshot as a file of the running system. -/
def Inode.node (i : Inode) : Node :=
  { fmt := i.fmt, perm := i.perm, uid := i.uid, gid := i.gid, data := i.stored }

/-! ## Names of one file -/

/-- `system_path` of the subvolume at `sub` -/
def subvolumePath (sub : Path) : Str := if sub = [] then [slash] else pathName sub

/-- The file is that at `p`; `q` is its place on the running system. -/
structure Names (paths : FilePaths) (file : File) (p q : Path) : Prop where
  name : file.name = pathName p
  valid : ∀ n ∈ p, ValidName n
  system : file.systemPath paths = pathName q

/-- The place of an entry is below the subvolume, also when that is the root. -/
theorem names_of_subvolume {paths : FilePaths} {file : File} {sub p : Path}
    (hsub : ∀ n ∈ sub, ValidName n) (hpath : paths.systemPath = subvolumePath sub)
    (hname : file.name = pathName p) (hp : ∀ n ∈ p, ValidName n) :
    Names paths file p (sub ++ p) where
  name := hname
  valid := hp
  system := by
    unfold File.systemPath
    rw [hpath, subvolumePath]
    by_cases hnil : sub = []
    · simp [hnil, hname]
    · have hne : pathName sub ≠ [slash] := by
        cases sub with
        | nil => exact absurd rfl hnil
        | cons n sub =>
          have hn := (hsub n (by simp)).ne_nil
          cases n with
          | nil => exact absurd rfl hn
          | cons b n => simp
      simp [hnil, hne, hname, pathName_append]

section Step

variable {paths : FilePaths} {file : File} {p q : Path} {w : World} {f : Inode} {n : Node}

theorem Names.components (h : Names paths file p q) : components file.name = p := by
  rw [h.name, components_pathName h.valid]

theorem lstatPre_eq (hnames : Names paths file p q) (hw : w.faults = [])
    (hf : paths.pre.lookup p = some f) : (file.lstatPre paths).run w = (.ok f, w) := by
  unfold File.lstatPre
  rw [syscall_ok hw]
  simp [hnames.components, hf]

theorem readPre_eq (hnames : Names paths file p q) (hw : w.faults = [])
    (hf : paths.pre.lookup p = some f) {read : Inode → Option Str} {bs : Str}
    (hread : read f = some bs) : (file.readPre paths read).run w = (.ok bs, w) := by
  unfold File.readPre
  rw [syscall_ok hw]
  simp [hnames.components, hf, hread]

theorem readlinkPre_eq (hnames : Names paths file p q) (hw : w.faults = [])
    (hf : paths.pre.lookup p = some f) {t : Str} (ht : f.data = some t) :
    (file.readlinkPre paths).run w = (t.take 1024, w) := by
  have hread : readlink f = some (t.take 1024) := by simp [readlink, ht]
  simp [File.readlinkPre, readPre_eq hnames hw hf hread]

/-! ## Looking at the snapshot -/

section Reading

variable {I : Fs → Prop}

/-- What is read of the pre snapshot is there, and reading it changes nothing. -/
theorem lstatPre_reads (hnames : Names paths file p q) :
    Cmd.Triple (fun w => I w.fs) (file.lstatPre paths)
      fun r w => I w.fs ∧ ∀ f, r = .ok f → paths.pre.lookup p = some f := by
  unfold File.lstatPre
  rw [hnames.components]
  refine syscall_triple (fun w a fs h hf => ?_) fun w e h => ⟨h, fun f hfile => by cases hfile⟩
  split at hf
  · cases hf
  · next f hlookup =>
    cases hf
    exact ⟨h, fun f hfile => Except.ok.inj hfile ▸ hlookup⟩

/-- Reading the pre-snapshot leaves the file system as it is and gives what the snapshot has at
the path. -/
theorem readPre_looks (read : Inode → Option Str) :
    Cmd.Triple (fun w => I w.fs) (file.readPre paths read)
      fun r w => I w.fs ∧
        ∀ bs, r = .ok bs → (paths.pre.lookup (Snapper.components file.name)).bind read =
          some bs := by
  unfold File.readPre
  refine syscall_triple (fun w a fs h hf => ?_) fun w e h => ⟨h, fun bs hread => by cases hread⟩
  split at hf
  · cases hf
  · next bs hread =>
    cases hf
    exact ⟨h, fun bs' hbs => Except.ok.inj hbs ▸ hread⟩

theorem readPre_reads (hnames : Names paths file p q) (read : Inode → Option Str) :
    Cmd.Triple (fun w => I w.fs) (file.readPre paths read)
      fun r w => I w.fs ∧ ∀ bs, r = .ok bs → (paths.pre.lookup p).bind read = some bs := by
  rw [← hnames.components]
  exact readPre_looks read

theorem checkDir_keeps (path : Str) : Cmd.Keeps (fun w => I w.fs) (checkDir path) := by
  refine Cmd.Keeps.bind (stat_keeps path) fun r => ?_
  cases r <;> exact Cmd.Keeps.pure _

end Reading

/-! ## Parent directories -/

/-- The leading path of a path ends before the last slash. -/
theorem leadingPath_append (leading : Str) {c : Name} (hc : slash ∉ c) :
    leadingPath (leading ++ slash :: c) = some leading := by
  have hmem : slash ∈ leading ++ slash :: c := by simp
  have hrev : (leading ++ slash :: c).reverse = c.reverse ++ slash :: leading.reverse := by simp
  have hall : ∀ b ∈ c.reverse, decide (b ≠ slash) = true := by
    intro b hb
    exact decide_eq_true fun h => hc (h ▸ List.mem_reverse.mp hb)
  unfold leadingPath
  rw [if_pos hmem, hrev, List.dropWhile_append_of_pos hall]
  simp

theorem leadingPath_concat (r : Path) {c : Name} (hc : slash ∉ c) :
    leadingPath (pathName (r ++ [c])) = some (pathName r) := by
  rw [pathName_concat]
  exact leadingPath_append (pathName r) hc

/-- What every `stat` and the making of each directory above the file keep. -/
theorem createParentDirectories_keeps {I : World → Prop} (hvalid : ∀ n ∈ q, ValidName n)
    (hstat : ∀ path, Cmd.Keeps I (stat path))
    (hmkdir : ∀ r, r <+: q → r ≠ q → Cmd.Keeps I (mkdir (pathName r) 0o777)) {r : Path}
    (hr : r <+: q) : Cmd.Keeps I (createParentDirectories (pathName r)) := by
  induction r using List.reverseRec with
  | nil =>
    rw [createParentDirectories]
    exact Cmd.Keeps.pure _
  | append_singleton r c ih =>
    have hr' : r <+: q := (List.prefix_append r [c]).trans hr
    have hne : r ≠ q := by
      intro heq
      have hlen := hr.length_le
      rw [heq, List.length_append, List.length_singleton] at hlen
      omega
    have hslash : slash ∉ c := (hvalid c (hr.subset (by simp))).no_slash
    rw [createParentDirectories]
    split
    · exact Cmd.Keeps.pure _
    · next leading h =>
      rw [leadingPath_concat r hslash] at h
      cases h
      refine Cmd.Keeps.bind (hstat _) fun res => ?_
      -- what is missing is made after the directories above it
      cases res with
      | ok n => exact Cmd.Keeps.pure _
      | error e =>
        refine Cmd.Keeps.bind (ih hr') fun made => Cmd.Keeps.ite (Cmd.Keeps.pure _) ?_
        exact (hmkdir r hr' hne).bind fun res =>
          Cmd.Keeps.ite (Cmd.Keeps.pure _) (Cmd.Keeps.pure _)

/-- Nothing is made where the directory of the file is there. -/
theorem createParentDirectories_literal (hw : w.faults = []) {r : Path} {c : Name}
    (hc : slash ∉ c) (hr : Literal w.fs r) (hdir : w.fs.isDir r = true) :
    (createParentDirectories (pathName (r ++ [c]))).run w = (true, w) := by
  obtain ⟨d, hd, hfmt⟩ := Fs.isDir_iff.mp hdir
  have hstat := stat_literal hw hr hd (by rw [hfmt]; decide)
  rw [createParentDirectories]
  split
  · next h =>
    rw [leadingPath_concat r hc] at h
    cases h
  · next leading h =>
    rw [leadingPath_concat r hc] at h
    cases h
    simp [hstat, hfmt]

/-- When every ancestor is a directory nothing has to be made. -/
theorem createParentDirectories_of_literal (hw : w.faults = []) (hq : Literal w.fs q)
    (hparent : q.dropLast ≠ []) : (createParentDirectories (pathName q)).run w = (true, w) := by
  have hconcat := List.dropLast_append_getLast hq.ne_nil
  have hvalid : ValidName (q.getLast hq.ne_nil) := hq.valid _ (List.getLast_mem _)
  have hr : Literal w.fs q.dropLast := by
    refine ⟨hparent, fun n hn => hq.valid n (List.dropLast_subset q hn), ?_⟩
    intro r hr _
    refine hq.dirs r (hr.trans (List.dropLast_prefix q)) ?_
    intro heq
    have hlen := hr.length_le
    have hpos := List.length_pos_iff.mpr hq.ne_nil
    rw [heq, List.length_dropLast] at hlen
    omega
  rw [← hconcat]
  exact createParentDirectories_literal hw hvalid.no_slash hr hq.isDir_dropLast

/-! ## Deleting -/

/-- The file at `q` can be deleted: a directory only when nothing is in it. -/
def Deletable (fs : Fs) (q : Path) (n : Node) : Prop :=
  n.fmt.Ordinary ∧ (n.fmt = .dir → fs.hasChild q = false)

/-- `deleteAllTypes` removes the inode and nothing else, when a directory there is empty. -/
theorem deleteAllTypes_sets (hnames : Names paths file p q) (hw : w.faults = [])
    (hq : Literal w.fs q) (hn : w.fs.find q = some n) (hdel : Deletable w.fs q n) :
    ∃ w', (file.deleteAllTypes paths).run w = (true, w') ∧ Sets q none false w w' := by
  have hlstat := lstat_literal hw hq hn
  unfold File.deleteAllTypes
  rw [hnames.system]
  obtain ⟨hdir | hreg | hlnk, hempty⟩ := hdel
  · obtain ⟨w', hrun, hsets⟩ := rmdir_literal hw hq hn hdir (hempty hdir)
    exact ⟨w', by simp [hlstat, hdir, hrun, failed], hsets⟩
  · obtain ⟨w', hrun, hsets⟩ := unlink_literal hw hq hn (by rw [hreg]; decide)
    exact ⟨w', by simp [hlstat, hreg, hrun, failed], hsets⟩
  · obtain ⟨w', hrun, hsets⟩ := unlink_literal hw hq hn (by rw [hlnk]; decide)
    exact ⟨w', by simp [hlstat, hlnk, hrun, failed], hsets⟩

/-- A file of another type is left where it is, and that counts as success. -/
theorem deleteAllTypes_special (hnames : Names paths file p q) (hw : w.faults = [])
    (hq : Literal w.fs q) (hn : w.fs.find q = some n) (hfmt : ¬n.fmt.Ordinary) :
    (file.deleteAllTypes paths).run w = (true, w) := by
  have hlstat := lstat_literal hw hq hn
  unfold File.deleteAllTypes
  rw [hnames.system]
  unfold FileType.Ordinary at hfmt
  cases hcase : n.fmt <;> simp_all

/-! ## Creating -/

/-- `copyfile` sends the source in blocks, each behind what was written before, and touches
nothing else. -/
theorem copyfile_sets (src : Str) {n : Node} (hw : w.faults = []) (hn : w.fs.find q = some n)
    (hfmt : n.fmt = .reg) :
    ∃ w', (copyfile src q).run w = (true, w') ∧
      Sets q (some { n with data := n.data ++ src }) true w w' := by
  -- one round sends the first block, the induction hypothesis the rest
  induction src using copyfile.induct generalizing w n with
  | case1 src ih =>
    obtain ⟨w', hrun, hsets⟩ := sendfile_sets hw hn hfmt src 0xffff
    rw [copyfile, Cmd.run_bind, hrun]
    by_cases hsrc : src = []
    · refine ⟨w', by simp [hsrc], ?_⟩
      simpa [hsrc] using hsets
    · obtain ⟨w'', hrest, hsets'⟩ := ih hsrc (hsets.faults.trans hw) hsets.self hfmt
      refine ⟨w'', by simp [hsrc, hrest], ?_⟩
      simpa using hsets.trans hsets' fun _ => rfl

/-- The regular file `createFile` leaves: changing the owner comes after setting the mode. -/
theorem createFile_sets (hnames : Names paths file p q) (hw : w.faults = [])
    (hq : Literal w.fs q) (hn : w.fs.find q = none) (hf : paths.pre.lookup p = some f)
    {bs : Str} (hbs : f.data = some bs) (mode : BitVec 12) (owner group : Nat) :
    ∃ w', (file.createFile paths mode owner group).run w = (true, w') ∧
      Sets q (some { fmt := .reg, perm := clearIds mode, uid := owner, gid := group, data := bs })
        false w w' := by
  obtain ⟨w₁, f₁, hrun₁, hsets₁, hfmt₁, hdata₁⟩ := openTrunc_literal hw hq hn mode
  have hw₁ := hsets₁.faults.trans hw
  obtain ⟨w₂, hrun₂, hsets₂⟩ := fchmod_sets hw₁ hsets₁.self mode
  have hw₂ := hsets₂.faults.trans hw₁
  obtain ⟨w₃, hrun₃, hsets₃⟩ := fchown_sets hw₂ hsets₂.self owner group
  have hw₃ := hsets₃.faults.trans hw₂
  have hsets := (hsets₁.trans hsets₂ fun _ => rfl).trans hsets₃ fun _ => rfl
  have hfmt₃ : ((f₁.chmod mode).chown owner group).fmt = .reg := hfmt₁
  unfold File.createFile File.openPre
  rw [hnames.system, Cmd.run_bind, readPre_eq hnames hw hf hbs]
  simp only [Cmd.run_bind, hrun₁, hrun₂, hrun₃, failed, Bool.false_eq_true, if_false]
  -- the content is cloned, or copied where cloning is not supported
  cases hclone : w₃.canClone with
  | true =>
    obtain ⟨w₄, hrun₄, hsets₄⟩ := ioctlClone_sets hw₃ hsets₃.self hfmt₃ hclone bs
    refine ⟨w₄, by simp [clonefile, hrun₄, failed], ?_⟩
    have hnode : ({ (f₁.chmod mode).chown owner group with data := bs } : Node) =
        { fmt := .reg, perm := clearIds mode, uid := owner, gid := group, data := bs } := by
      simp [Node.chown, Node.chmod, hfmt₁]
    exact hnode ▸ hsets.trans hsets₄ fun _ => rfl
  | false =>
    have hrun₄ := ioctlClone_unsupported hw₃ hclone q bs
    obtain ⟨w₅, hrun₅, hsets₅⟩ := copyfile_sets bs hw₃ hsets₃.self hfmt₃
    refine ⟨w₅, by simp [clonefile, hrun₄, failed, hrun₅], ?_⟩
    have hnode : ({ (f₁.chmod mode).chown owner group with
        data := ((f₁.chmod mode).chown owner group).data ++ bs } : Node) =
        { fmt := .reg, perm := clearIds mode, uid := owner, gid := group, data := bs } := by
      simp [Node.chown, Node.chmod, hfmt₁, hdata₁]
    exact hnode ▸ hsets.trans hsets₅ fun _ => rfl

/-- A directory is made with no rights, and gets mode and owner afterwards. -/
theorem createDirectory_sets (hnames : Names paths file p q) (hw : w.faults = [])
    (hq : Literal w.fs q) (hn : w.fs.find q = none) (mode : BitVec 12) (owner group : Nat) :
    ∃ w', (file.createDirectory paths mode owner group).run w = (true, w') ∧
      Sets q (some { fmt := .dir, perm := mode, uid := owner, gid := group, data := [] })
        false w w' := by
  obtain ⟨w₁, d, hrun₁, hsets₁, hfmt₁, hdata₁⟩ := mkdir_literal hw hq hn 0
  have hw₁ := hsets₁.faults.trans hw
  have hq₁ := hsets₁.literal hq
  obtain ⟨w₂, hrun₂, hsets₂⟩ :=
    chmod_literal hw₁ hq₁ hsets₁.self (by rw [hfmt₁]; decide) mode
  have hw₂ := hsets₂.faults.trans hw₁
  obtain ⟨w₃, hrun₃, hsets₃⟩ := chown_literal hw₂ (hsets₂.literal hq₁) hsets₂.self
    (by rw [Node.chmod_fmt, hfmt₁]; decide) owner group
  have hnode : (d.chmod mode).chown owner group =
      { fmt := .dir, perm := mode, uid := owner, gid := group, data := [] } := by
    simp [Node.chown, Node.chmod, hfmt₁, hdata₁]
  refine ⟨w₃, ?_, hnode ▸ (hsets₁.trans hsets₂ fun _ => rfl).trans hsets₃ fun _ => rfl⟩
  unfold File.createDirectory
  rw [hnames.system]
  simp only [Cmd.run_bind, hrun₁, reduceCtorEq, decide_false, Cmd.when_false, if_false,
    Cmd.run_pure, Bool.false_eq_true, hrun₂, hrun₃, failed]

/-- A symlink is made and gets its owner; of its target the first 1024 bytes are read. -/
theorem createLink_sets (hnames : Names paths file p q) (hw : w.faults = [])
    (hq : Literal w.fs q) (hn : w.fs.find q = none) (hf : paths.pre.lookup p = some f)
    {t : Str} (ht : f.data = some t) (htne : t ≠ []) (hnul : 0 ∉ t) (owner group : Nat) :
    ∃ w', (file.createLink paths owner group).run w = (true, w') ∧
      Sets q (some { fmt := .lnk, perm := clearIds S_IRWXUGO, uid := owner, gid := group,
                     data := t.take 1024 }) false w w' := by
  have htne' : t.take 1024 ≠ [] := by
    intro h
    exact htne ((List.take_eq_nil_iff.mp h).resolve_left (by decide))
  have hnul' : 0 ∉ t.take 1024 := fun h => hnul (List.mem_of_mem_take h)
  obtain ⟨w₁, l, hrun₁, hsets₁, hfmt₁, hdata₁, hperm₁⟩ := symlink_literal hw hq hn htne' hnul'
  have hw₁ := hsets₁.faults.trans hw
  obtain ⟨w₂, hrun₂, hsets₂⟩ := lchown_literal hw₁ (hsets₁.literal hq) hsets₁.self owner group
  have hnode : l.chown owner group =
      { fmt := .lnk, perm := clearIds S_IRWXUGO, uid := owner, gid := group,
        data := t.take 1024 } := by
    simp [Node.chown, hfmt₁, hdata₁, hperm₁]
  refine ⟨w₂, ?_, hnode ▸ hsets₁.trans hsets₂ fun _ => rfl⟩
  unfold File.createLink
  rw [hnames.system]
  simp [readlinkPre_eq hnames hw hf ht, hrun₁, hrun₂, failed]

/-- What `createAllTypes` leaves of a file of the pre snapshot. -/
def restored (f : Inode) : Node :=
  { fmt := f.fmt
    perm := if f.fmt = .dir then f.perm else clearIds f.perm
    uid := f.uid
    gid := f.gid
    data := if f.fmt = .lnk then f.stored.take 1024 else f.stored }

/-- At a free path below a directory the file of the pre tree is made, with its own content, mode
and owner. -/
theorem createAllTypes_sets (hnames : Names paths file p q) (hw : w.faults = [])
    (hq : Literal w.fs q) (hparent : q.dropLast ≠ []) (hn : w.fs.find q = none)
    (hf : paths.pre.lookup p = some f) (hreal : f.Real) (hord : f.fmt.Ordinary) :
    ∃ w', (file.createAllTypes paths).run w = (true, w') ∧
      Sets q (some (restored f)) false w w' := by
  have hlstat := lstatPre_eq hnames hw hf
  have hparents := createParentDirectories_of_literal hw hq hparent
  unfold File.createAllTypes
  rw [hnames.system]
  simp only [Cmd.run_bind, hlstat, hparents, Bool.not_true, Bool.false_eq_true, if_false]
  unfold Inode.Real at hreal
  unfold restored Inode.stored
  -- one routine for each type
  obtain hdir | hreg | hlnk := hord
  · obtain ⟨w', hrun, hsets⟩ := createDirectory_sets hnames hw hq hn f.perm f.uid f.gid
    exact ⟨w', by simp [hdir, hrun], by simpa [hdir] using hsets⟩
  · rw [hreg] at hreal
    obtain ⟨bs, hbs, _⟩ := hreal
    obtain ⟨w', hrun, hsets⟩ := createFile_sets hnames hw hq hn hf hbs f.perm f.uid f.gid
    exact ⟨w', by simp [hreg, hrun], by simpa [hreg, hbs] using hsets⟩
  · rw [hlnk] at hreal
    obtain ⟨⟨t, ht, htne, hnul⟩, hperm⟩ := hreal
    obtain ⟨w', hrun, hsets⟩ := createLink_sets hnames hw hq hn hf ht htne hnul f.uid f.gid
    exact ⟨w', by simp [hlnk, hrun], by simpa [hlnk, ht, hperm] using hsets⟩

/-! ## Modifying -/

/-- A changed content is undone by a file of its own: the old one is deleted first. -/
theorem modifyContent_sets (hnames : Names paths file p q) (hw : w.faults = [])
    (hq : Literal w.fs q) (hn : w.fs.find q = some n) (hdel : Deletable w.fs q n)
    (hf : paths.pre.lookup p = some f) (hreal : f.Real) (hfmt : f.fmt = .reg ∨ f.fmt = .lnk) :
    ∃ w', (file.modifyContent paths f).run w = (true, w') ∧
      Sets q (some (restored f)) false w w' := by
  obtain ⟨w₁, hrun₁, hsets₁⟩ := deleteAllTypes_sets hnames hw hq hn hdel
  have hw₁ := hsets₁.faults.trans hw
  have hq₁ := hsets₁.literal hq
  unfold File.modifyContent restored Inode.stored
  unfold Inode.Real at hreal
  obtain hreg | hlnk := hfmt
  · rw [hreg] at hreal
    obtain ⟨bs, hbs, _⟩ := hreal
    obtain ⟨w₂, hrun₂, hsets₂⟩ :=
      createFile_sets hnames hw₁ hq₁ hsets₁.self hf hbs f.perm f.uid f.gid
    refine ⟨w₂, by simp [hreg, hrun₁, hrun₂], ?_⟩
    simpa [hreg, hbs] using hsets₁.trans hsets₂ id
  · rw [hlnk] at hreal
    obtain ⟨⟨t, ht, htne, hnul⟩, hperm⟩ := hreal
    obtain ⟨w₂, hrun₂, hsets₂⟩ :=
      createLink_sets hnames hw₁ hq₁ hsets₁.self hf ht htne hnul f.uid f.gid
    refine ⟨w₂, by simp [hlnk, hrun₁, hrun₂], ?_⟩
    simpa [hlnk, ht, hperm] using hsets₁.trans hsets₂ id

/-- What `modifyAllTypes` makes of the file it finds. -/
def modified (st : Status) (f : Inode) (n : Node) : Node :=
  let n := if st.content then restored f else n
  let n := if st.permissions then n.chmod f.perm else n
  if st.user || st.group then n.chown f.uid f.gid else n

/-- `modifyAllTypes` leaves the inode that the status asks for; a new inode takes its place
exactly when the content differs. -/
theorem modifyAllTypes_sets (hnames : Names paths file p q) (hw : w.faults = [])
    (hq : Literal w.fs q) (hparent : q.dropLast ≠ []) (hn : w.fs.find q = some n)
    (hf : paths.pre.lookup p = some f) (hreal : f.Real)
    (hcontent : file.preToPostStatus.content = true →
      Deletable w.fs q n ∧ (f.fmt = .reg ∨ f.fmt = .lnk))
    (hperm : file.preToPostStatus.permissions = true → f.fmt ≠ .lnk ∧ n.fmt ≠ .lnk) :
    ∃ w', (file.modifyAllTypes paths).run w = (true, w') ∧
      Sets q (some (modified file.preToPostStatus f n)) (!file.preToPostStatus.content) w w' := by
  have hlstat := lstatPre_eq hnames hw hf
  have hparents := createParentDirectories_of_literal hw hq hparent
  unfold File.modifyAllTypes modified
  rw [hnames.system]
  simp only [Cmd.run_bind, hlstat, hparents, Bool.not_true, Bool.false_eq_true, if_false]
  -- the three parts, each of them with or without its bit
  generalize hst : file.preToPostStatus = st at hcontent hperm ⊢
  obtain ⟨w₁, hrun₁, hsets₁⟩ : ∃ w₁,
      (Cmd.when st.content (file.modifyContent paths f) true).run w = (true, w₁) ∧
      Sets q (some (if st.content then restored f else n)) (!st.content) w w₁ := by
    cases hc : st.content with
    | true =>
      obtain ⟨hdel, hfmt'⟩ := hcontent hc
      exact modifyContent_sets hnames hw hq hn hdel hf hreal hfmt'
    | false => exact ⟨w, rfl, Sets.refl hn⟩
  have hw₁ := hsets₁.faults.trans hw
  have hq₁ := hsets₁.literal hq
  generalize hn₁ : (if st.content then restored f else n) = n₁ at hsets₁ ⊢
  have hfmt₁ : st.permissions = true → n₁.fmt ≠ .lnk := by
    intro hp
    obtain ⟨hf', hn'⟩ := hperm hp
    rw [← hn₁]
    split
    · exact hf'
    · exact hn'
  obtain ⟨w₂, hrun₂, hsets₂⟩ : ∃ w₂,
      (Cmd.when st.permissions (chmod (pathName q) f.perm) (.ok ())).run w₁ = (.ok (), w₂) ∧
      Sets q (some (if st.permissions then n₁.chmod f.perm else n₁)) true w₁ w₂ := by
    cases hp : st.permissions with
    | true => exact chmod_literal hw₁ hq₁ hsets₁.self (hfmt₁ hp) f.perm
    | false => exact ⟨w₁, rfl, Sets.refl hsets₁.self⟩
  have hw₂ := hsets₂.faults.trans hw₁
  generalize (if st.permissions then n₁.chmod f.perm else n₁) = n₂ at hsets₂ ⊢
  obtain ⟨w₃, hrun₃, hsets₃⟩ : ∃ w₃,
      (Cmd.when (st.user || st.group) (lchown (pathName q) f.uid f.gid) (.ok ())).run w₂ =
        (.ok (), w₃) ∧
      Sets q (some (if st.user || st.group then n₂.chown f.uid f.gid else n₂)) true w₂ w₃ := by
    cases ho : st.user || st.group with
    | true => exact lchown_literal hw₂ (hsets₂.literal hq₁) hsets₂.self f.uid f.gid
    | false => exact ⟨w₂, rfl, Sets.refl hsets₂.self⟩
  refine ⟨w₃, ?_, (hsets₁.trans hsets₂ fun _ => rfl).trans hsets₃ fun _ => rfl⟩
  simp only [hrun₁, Bool.not_true, Bool.false_eq_true, if_false, Cmd.run_bind, hrun₂, failed,
    hrun₃, Cmd.run_pure]

/-! ## Undoing -/

/-- Undoing a creation removes the inode. -/
theorem doUndo_created (hnames : Names paths file p q) (hw : w.faults = [])
    (hq : Literal w.fs q) (hn : w.fs.find q = some n) (hdel : Deletable w.fs q n)
    (hst : file.preToPostStatus = .CREATED) :
    ∃ w', (file.doUndo paths).run w = (true, w') ∧ Sets q none false w w' := by
  obtain ⟨w', hrun, hsets⟩ := deleteAllTypes_sets hnames hw hq hn hdel
  refine ⟨w', ?_, hsets⟩
  unfold File.doUndo
  simp [hst, Status.CREATED, Status.modified, hrun]

/-- Undoing a deletion brings back the inode of the pre-snapshot with its mode and owner. -/
theorem doUndo_deleted (hnames : Names paths file p q) (hw : w.faults = [])
    (hq : Literal w.fs q) (hparent : q.dropLast ≠ []) (hn : w.fs.find q = none)
    (hf : paths.pre.lookup p = some f) (hreal : f.Real) (hord : f.fmt.Ordinary)
    (hst : file.preToPostStatus = .DELETED) :
    ∃ w', (file.doUndo paths).run w = (true, w') ∧
      Sets q (some (restored f)) false w w' := by
  obtain ⟨w', hrun, hsets⟩ := createAllTypes_sets hnames hw hq hparent hn hf hreal hord
  refine ⟨w', ?_, hsets⟩
  unfold File.doUndo
  simp [hst, Status.DELETED, Status.modified, hrun]

/-- What is found of the file before it is modified. -/
def replaced (st : Status) (f : Inode) (n : Node) : Node := if st.type then restored f else n

/-- The first two phases of a change. -/
private theorem replace_sets (hnames : Names paths file p q) (hw : w.faults = [])
    (hq : Literal w.fs q) (hparent : q.dropLast ≠ []) (hn : w.fs.find q = some n)
    (hf : paths.pre.lookup p = some f) (hreal : f.Real) {st : Status}
    (htype : st.type = true → Deletable w.fs q n ∧ f.fmt.Ordinary) :
    ∃ w₁ w₂, (Cmd.when st.type (file.deleteAllTypes paths) true).run w = (true, w₁) ∧
      (Cmd.when st.type (file.createAllTypes paths) true).run w₁ = (true, w₂) ∧
      Sets q (some (replaced st f n)) (!st.type) w w₂ ∧ (st.type = false → w₂ = w) := by
  unfold replaced
  cases hcase : st.type with
  | true =>
    obtain ⟨hdel, hord⟩ := htype hcase
    obtain ⟨w₁, hrun₁, hsets₁⟩ := deleteAllTypes_sets hnames hw hq hn hdel
    obtain ⟨w₂, hrun₂, hsets₂⟩ := createAllTypes_sets hnames (hsets₁.faults.trans hw)
      (hsets₁.literal hq) hparent hsets₁.self hf hreal hord
    exact ⟨w₁, w₂, hrun₁, hrun₂, hsets₁.trans hsets₂ id, nofun⟩
  | false => exact ⟨w, w, rfl, rfl, Sets.refl hn, fun _ => rfl⟩

/-- The undo of an entry with this status changes the file in place, at all of its names. -/
def Status.inPlace (st : Status) : Bool := !(st.created || st.deleted || st.type || st.content)

theorem Status.Both.inPlace_eq {st : Status} (h : st.Both) :
    st.inPlace = !(st.type || st.content) := by
  rw [Status.inPlace, h.not_created, h.not_deleted, Bool.false_or, Bool.false_or]

/-- A change that does not set the mode of a symlink. -/
theorem doUndo_changed (hnames : Names paths file p q) (hw : w.faults = [])
    (hq : Literal w.fs q) (hparent : q.dropLast ≠ []) (hn : w.fs.find q = some n)
    (hf : paths.pre.lookup p = some f) (hreal : f.Real) (hboth : file.preToPostStatus.Both)
    (htype : file.preToPostStatus.type = true → Deletable w.fs q n ∧ f.fmt.Ordinary)
    (hfmt : file.preToPostStatus.type = false → n.fmt = f.fmt)
    (hcontent : file.preToPostStatus.content = true →
      Deletable w.fs q n ∧ (f.fmt = .reg ∨ f.fmt = .lnk))
    (hperm : file.preToPostStatus.permissions = true → f.fmt ≠ .lnk) :
    ∃ w', (file.doUndo paths).run w = (true, w') ∧
      Sets q (some (modified file.preToPostStatus f (replaced file.preToPostStatus f n)))
        file.preToPostStatus.inPlace w w' := by
  obtain ⟨w₁, w₂, hrun₁, hrun₂, hsets, hsame⟩ := replace_sets hnames hw hq hparent hn hf hreal htype
  have hfmt₂ : (replaced file.preToPostStatus f n).fmt = f.fmt := by
    unfold replaced
    split
    · rfl
    · next h => exact hfmt (by simpa using h)
  unfold File.doUndo
  simp only [hboth.not_created, hboth.not_deleted, Bool.false_or, Cmd.run_bind, hrun₁, hrun₂]
  cases hmod : file.preToPostStatus.modified with
  | false =>
    refine ⟨w₂, rfl, ?_⟩
    have hnone : modified file.preToPostStatus f (replaced file.preToPostStatus f n) =
        replaced file.preToPostStatus f n := by
      simp only [Status.modified, Bool.or_eq_false_iff] at hmod
      simp [modified, hmod]
    simp only [Status.modified, Bool.or_eq_false_iff] at hmod
    rw [hnone, hboth.inPlace_eq, hmod.1.1.1, Bool.or_false]
    exact hsets
  | true =>
    -- with a changed type the content is not compared, so nothing is deleted twice
    have hcontent₂ : file.preToPostStatus.content = true →
        Deletable w₂.fs q (replaced file.preToPostStatus f n) ∧
          (f.fmt = .reg ∨ f.fmt = .lnk) := by
      intro hc
      have htype' : file.preToPostStatus.type = false := by
        cases ht : file.preToPostStatus.type with
        | false => rfl
        | true =>
          rw [hboth.not_type_content ht] at hc
          cases hc
      obtain ⟨_, hor⟩ := hcontent hc
      refine ⟨⟨?_, ?_⟩, hor⟩
      · rw [hfmt₂]
        exact Or.inr hor
      · intro hdir
        rw [hfmt₂] at hdir
        rw [hdir] at hor
        cases hor <;> contradiction
    obtain ⟨w₃, hrun₃, hsets₃⟩ := modifyAllTypes_sets hnames (hsets.faults.trans hw)
      (hsets.literal hq) hparent hsets.self hf hreal hcontent₂
      fun hp => ⟨hperm hp, hfmt₂ ▸ hperm hp⟩
    refine ⟨w₃, by simp [hrun₃], ?_⟩
    rw [hboth.inPlace_eq]
    cases htype' : file.preToPostStatus.type with
    | true =>
      rw [htype'] at hsets
      exact hsets.trans hsets₃ nofun
    | false =>
      -- what is modified is the file itself
      rw [hsame htype'] at hsets₃
      exact hsets₃

/-! ## The mode of a symlink -/

/-- The effect of a `chmod`: it changes the mode of the file the path leads to, if any. -/
theorem chmod_cases (hw : w.faults = []) (path : Str) (mode : BitVec 12) :
    (∃ loc m, resolve w.fs true path = .ok loc ∧ w.fs.find loc = some m ∧
      ∃ w', (chmod path mode).run w = (.ok (), w') ∧ Sets loc (some (m.chmod mode)) true w w') ∨
    ((∀ loc, resolve w.fs true path = .ok loc → w.fs.find loc = none) ∧
      ∃ e, (chmod path mode).run w = (.error e, w)) := by
  -- chmod goes where the path leads, through a symlink too
  cases hres : resolve w.fs true path with
  | error e =>
    right
    refine ⟨fun loc h => (by cases h), e, ?_⟩
    apply syscall_error hw
    simp [Fs.change, hres, bind, Except.bind]
    rfl
  | ok loc =>
    cases hfind : w.fs.find loc with
    | none =>
      right
      refine ⟨fun loc' h => (by cases h; exact hfind), .enoent, ?_⟩
      apply syscall_error hw
      simp [Fs.change, hres, hfind, bind, Except.bind]
      rfl
    | some m =>
      left
      refine ⟨loc, m, rfl, hfind, _, ?_, (Fs.sets_modify (Node.chmod_fmt mode) hfind).world⟩
      apply syscall_ok hw
      simp [Fs.change, hres, hfind, bind, Except.bind]
      rfl

/-- The mode bits of a symlink have nothing that a change of the owner clears. -/
theorem chown_restored_link (hreal : f.Real) (hlnk : f.fmt = .lnk) :
    (restored f).chown f.uid f.gid = restored f := by
  have hperm : f.perm = S_IRWXUGO := by
    rw [Inode.Real, hlnk] at hreal
    exact hreal.2
  have hclear : clearIds S_IRWXUGO = S_IRWXUGO := by decide
  simp [restored, Node.chown, hlnk, hperm, hclear]

/-- A change of a mode leaves the path literal. -/
theorem Sets.literal_chmod {loc : Path} {m : Node} {mode : BitVec 12} {w' : World}
    (h : Sets loc (some (m.chmod mode)) true w w') (hm : w.fs.find loc = some m)
    (hq : Literal w.fs q) : Literal w'.fs q where
  ne_nil := hq.ne_nil
  valid := hq.valid
  dirs := by
    intro r hr hne
    have hdir := hq.dirs r hr hne
    by_cases hloc : r = loc
    · obtain ⟨d, hd, hfmt⟩ := Fs.isDir_iff.mp hdir
      rw [hloc, hm] at hd
      cases hd
      rw [hloc]
      exact Fs.isDir_iff.mpr ⟨m.chmod mode, h.self, hfmt⟩
    · exact h.isDir hloc hdir

/-- A restored symlink with a changed mode: the mode goes to the file it leads to. -/
theorem doUndo_link_mode (hnames : Names paths file p q) (hw : w.faults = [])
    (hq : Literal w.fs q) (hparent : q.dropLast ≠ []) (hn : w.fs.find q = some n)
    (hf : paths.pre.lookup p = some f) (hreal : f.Real) (hlnk : f.fmt = .lnk)
    (hboth : file.preToPostStatus.Both) (htype : file.preToPostStatus.type = true)
    (hdel : Deletable w.fs q n) (hperm : file.preToPostStatus.permissions = true) :
    ∃ b w₁ w', Sets q (some (restored f)) false w w₁ ∧ (file.doUndo paths).run w = (b, w') ∧
      ((∃ loc m, resolve w₁.fs true (pathName q) = .ok loc ∧ w₁.fs.find loc = some m ∧
          Sets loc (some (m.chmod f.perm)) true w₁ w') ∨
        ((∀ loc, resolve w₁.fs true (pathName q) = .ok loc → w₁.fs.find loc = none) ∧
          Sets q (some (restored f)) false w w')) := by
  obtain ⟨w₁, w₂, hrun₁, hrun₂, hsets, -⟩ := replace_sets hnames hw hq hparent hn hf hreal
    fun _ : file.preToPostStatus.type = true => ⟨hdel, by rw [hlnk]; decide⟩
  rw [replaced, if_pos htype, htype] at hsets
  have hw₂ := hsets.faults.trans hw
  have hq₂ := hsets.literal hq
  have hmod : file.preToPostStatus.modified = true := by simp [Status.modified, hperm]
  have hlstat := lstatPre_eq hnames hw₂ hf
  have hparents := createParentDirectories_of_literal hw₂ hq₂ hparent
  -- what is left of `doUndo` is the `chmod` and the `lchown` after it
  have hrun : ∀ b w', (file.modifyAllTypes paths).run w₂ = (b, w') →
      (file.doUndo paths).run w = (b, w') := by
    intro b w' hmodify
    unfold File.doUndo
    simp only [hboth.not_created, hboth.not_deleted, Bool.false_or, Cmd.run_bind, hrun₁, hrun₂,
      hmod, Cmd.when_true, hmodify, Bool.true_and, Cmd.run_pure]
  have hmodify : (file.modifyAllTypes paths).run w₂ = (do
      if failed (← chmod (pathName q) f.perm) then return false
      let r ← Cmd.when (file.preToPostStatus.user || file.preToPostStatus.group)
        (lchown (pathName q) f.uid f.gid) (.ok ())
      if failed r then return false
      return true : Cmd World Bool).run w₂ := by
    unfold File.modifyAllTypes
    rw [hnames.system]
    simp only [Cmd.run_bind, hlstat, hparents, Bool.not_true, Bool.false_eq_true, if_false,
      hboth.not_type_content htype, Cmd.when_false, Cmd.run_pure, hperm, Cmd.when_true]
  obtain ⟨loc, m, hres, hm, w₃, hrun₃, hsets₃⟩ | ⟨hnone, e, hrun₃⟩ :=
    chmod_cases hw₂ (pathName q) f.perm
  · have hloc : q ≠ loc := by
      intro hloc
      have hnot := resolve_follow hres
      rw [← hloc] at hnot
      simp [Fs.isLnk, hsets.self, restored, hlnk] at hnot
    have hself₃ : w₃.fs.find q = some (restored f) := by
      -- the restored symlink has no other name
      rw [hsets₃.other hloc fun hlinked =>
        Bool.false_ne_true ((hsets.shared hloc.symm).mp hlinked.2.symm).1]
      exact hsets.self
    -- the link already has the owner that `lchown` gives it
    obtain ⟨w₄, hrun₄, hsets₄⟩ : ∃ w₄,
        (Cmd.when (file.preToPostStatus.user || file.preToPostStatus.group)
          (lchown (pathName q) f.uid f.gid) (.ok ())).run w₃ = (.ok (), w₄) ∧
        Sets q (some (restored f)) true w₃ w₄ := by
      cases file.preToPostStatus.user || file.preToPostStatus.group with
      | true =>
        obtain ⟨w₄, hrun₄, hsets₄⟩ := lchown_literal (hsets₃.faults.trans hw₂)
          (hsets₃.literal_chmod hm hq₂) hself₃ f.uid f.gid
        rw [chown_restored_link hreal hlnk] at hsets₄
        exact ⟨w₄, hrun₄, hsets₄⟩
      | false => exact ⟨w₃, rfl, Sets.refl hself₃⟩
    refine ⟨true, w₂, w₄, hsets, hrun _ _ ?_, Or.inl ⟨loc, m, hres, hm, ?_⟩⟩
    · rw [hmodify]
      simp only [Cmd.run_bind, hrun₃, failed, Bool.false_eq_true, if_false, hrun₄, Cmd.run_pure]
    · rw [← hself₃] at hsets₄
      exact ⟨hsets₃.toSets.trans_unchanged hsets₄.toSets, hsets₄.faults.trans hsets₃.faults,
        hsets₄.canClone.trans hsets₃.canClone, hsets₄.umask.trans hsets₃.umask⟩
  · refine ⟨false, w₂, w₂, hsets, hrun _ _ ?_, Or.inr ⟨hnone, hsets⟩⟩
    rw [hmodify]
    simp only [Cmd.run_bind, hrun₃, failed, if_true, Cmd.run_pure]

end Step

end Snapper
