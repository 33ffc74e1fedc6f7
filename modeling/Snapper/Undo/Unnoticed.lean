import Snapper.Undo.Mounted
import Snapper.Undo.Sure

/-!
# Steps that fail unnoticed

Where `Sure` does not hold there is a running system on which a step reports success over
a file that is not restored.  So it is the exact condition (`doUndo_restores_iff`).

## What goes unnoticed

- a fifo, a socket or a device is neither deleted nor created
- a fifo or a device in the way of a regular file is opened and written to
- a directory that cannot be made for no known reason is taken to be there
- a content that differs under equal times, or beyond what is read of a symlink
-/

namespace Snapper

open General Cmd

/-! ## What goes unnoticed -/

section Unnoticed

variable {paths : FilePaths} {file : File} {p q : Path} {f : Inode} {n : Node} {w : World}

/-- The step reports success and the file is not restored. -/
def Unnoticed (paths : FilePaths) (file : File) (q : Path) (f? : Option Inode) (w : World) : Prop :=
  ((file.doUndo paths).run w).1 = true ∧
    ¬Restored (pathName q) f? ((file.doUndo paths).run w).2.fs

theorem has_literal (hq : Literal w.fs q) {s : FileType × Str} :
    w.fs.Has (pathName q) s ↔ w.fs.shape q = some s := by
  rw [Fs.has_iff, resolve_literal hq]
  simp

/-- A path that is reached without following a link is absent exactly when no inode is there. -/
theorem absent_literal (hq : Literal w.fs q) :
    w.fs.Absent (pathName q) ↔ w.fs.find q = none := by
  refine ⟨fun h => h.find (resolve_literal hq), fun hn m hm => ?_⟩
  obtain ⟨r, hres, hr⟩ := Fs.stat_ok hm
  rw [resolve_literal hq] at hres
  cases hres
  rw [hn] at hr
  cases hr

/-- A file that is not restored when another type is there, or nothing. -/
theorem unnoticed_of_sets {node : Option Node} {kept : Bool} {w' : World} (hq : Literal w.fs q)
    (hrun : (file.doUndo paths).run w = (true, w')) (hsets : Sets q node kept w w')
    (hnode : ∀ m, node = some m → m.fmt ≠ f.fmt) : Unnoticed paths file q (some f) w := by
  unfold Unnoticed
  rw [hrun]
  refine ⟨rfl, fun ⟨s, hhas, hfmt, _⟩ => ?_⟩
  rw [has_literal (hsets.literal hq), Fs.shape, hsets.self] at hhas
  obtain ⟨m, hm, rfl⟩ := Option.map_eq_some_iff.mp hhas
  exact hnode m hm hfmt

/-- A step of a changed type from its phases. -/
theorem doUndo_type_run (htype : file.preToPostStatus.type = true) {w₁ w₂ w₃ : World}
    (hdelete : (file.deleteAllTypes paths).run w = (true, w₁))
    (hcreate : (file.createAllTypes paths).run w₁ = (true, w₂))
    (hmodify : (Cmd.when file.preToPostStatus.modified (file.modifyAllTypes paths) true).run w₂ =
      (true, w₃)) : (file.doUndo paths).run w = (true, w₃) := by
  unfold File.doUndo
  simp only [htype, Bool.or_true, Cmd.when_true, Cmd.run_bind, hdelete, hcreate, hmodify,
    Cmd.run_pure, Bool.and_self]

/-- The last phase, on a file of whatever type, when the content is not concerned. -/
theorem modify_run (hnames : Names paths file p q) (hw : w.faults = []) (hq : Literal w.fs q)
    (hparent : q.dropLast ≠ []) (hn : w.fs.find q = some n) (hf : paths.pre.lookup p = some f)
    (hreal : f.Real) (hcontent : file.preToPostStatus.content = false)
    (hperm : file.preToPostStatus.permissions = true → f.fmt ≠ .lnk ∧ n.fmt ≠ .lnk) :
    ∃ w' m, (Cmd.when file.preToPostStatus.modified (file.modifyAllTypes paths) true).run w =
      (true, w') ∧ Sets q (some m) true w w' ∧ m.shape = n.shape := by
  cases hmod : file.preToPostStatus.modified with
  | false => exact ⟨w, n, rfl, Sets.refl hn, rfl⟩
  | true =>
    obtain ⟨w', hrun, hsets⟩ := modifyAllTypes_sets hnames hw hq hparent hn hf hreal
      (fun hc => by rw [hcontent] at hc; cases hc) hperm
    rw [hcontent] at hsets
    refine ⟨w', _, hrun, hsets, ?_⟩
    -- neither mode nor owner count for the shape
    have hchmod : ∀ m : Node, (m.chmod f.perm).shape = m.shape := fun _ => rfl
    have hchown : ∀ m : Node, (m.chown f.uid f.gid).shape = m.shape := fun _ => rfl
    unfold modified
    rw [hcontent]
    cases file.preToPostStatus.permissions <;>
      cases file.preToPostStatus.user || file.preToPostStatus.group <;>
      simp only [if_true, Bool.false_eq_true, if_false, hchmod, hchown]

/-- A fifo, a socket or a device is not created. -/
theorem createAllTypes_skips (hnames : Names paths file p q) (hw : w.faults = [])
    (hq : Literal w.fs q) (hparent : q.dropLast ≠ []) (hf : paths.pre.lookup p = some f)
    (hord : ¬f.fmt.Ordinary) : (file.createAllTypes paths).run w = (true, w) := by
  have hlstat := lstatPre_eq hnames hw hf
  have hparents := createParentDirectories_of_literal hw hq hparent
  unfold File.createAllTypes
  rw [hnames.system]
  simp only [Cmd.run_bind, hlstat, hparents, Bool.not_true, Bool.false_eq_true, if_false]
  unfold FileType.Ordinary at hord
  cases hfmt : f.fmt <;> simp_all

/-- Writing to a device or a fifo succeeds and changes no inode. -/
theorem copyfile_swallowed (src : Str) (hw : w.faults = []) (hn : w.fs.find q = some n)
    (hfmt : n.fmt ≠ .reg) :
    ∃ w', (copyfile src q).run w = (true, w') ∧ Sets q (some n) true w w' := by
  -- one round sends the first block, the induction hypothesis the rest
  induction src using copyfile.induct generalizing w with
  | case1 src ih =>
    obtain ⟨w', hrun, hsets⟩ := sendfile_special hw hn hfmt src 0xffff
    rw [copyfile, Cmd.run_bind, hrun]
    by_cases hsrc : src = []
    · exact ⟨w', by simp [hsrc], hsets⟩
    · obtain ⟨w'', hrest, hsets'⟩ := ih hsrc (hsets.faults.trans hw) hsets.self
      exact ⟨w'', by simp [hsrc, hrest], hsets.trans hsets' id⟩

/-- A fifo or a device is opened in place of the regular file and takes what is written. -/
theorem createFile_swallowed (hnames : Names paths file p q) (hw : w.faults = [])
    (hq : Literal w.fs q) (hn : w.fs.find q = some n)
    (hfmt : n.fmt = .fifo ∨ n.fmt = .blk ∨ n.fmt = .chr)
    (hf : paths.pre.lookup p = some f) {bs : Str} (hbs : f.data = some bs) (mode : BitVec 12)
    (owner group : Nat) :
    ∃ w' m, (file.createFile paths mode owner group).run w = (true, w') ∧
      Sets q (some m) true w w' ∧ m.fmt = n.fmt := by
  have hnot : n.fmt ≠ .reg := by
    obtain h | h | h := hfmt <;> rw [h] <;> decide
  -- the calls on the open file succeed one after the other, and the type stays
  have hopen := openTrunc_special hw hq hn hfmt mode
  obtain ⟨w₁, hrun₁, hsets₁⟩ := fchmod_sets hw hn mode
  have hw₁ := hsets₁.faults.trans hw
  obtain ⟨w₂, hrun₂, hsets₂⟩ := fchown_sets hw₁ hsets₁.self owner group
  have hw₂ := hsets₂.faults.trans hw₁
  have hnot₂ : ((n.chmod mode).chown owner group).fmt ≠ .reg := hnot
  have hclone := ioctlClone_special hw₂ hsets₂.self hnot₂ bs
  obtain ⟨w₃, hcopy, hsets₃⟩ := copyfile_swallowed bs hw₂ hsets₂.self hnot₂
  refine ⟨w₃, _, ?_, (hsets₁.trans hsets₂ id).trans hsets₃ id, rfl⟩
  unfold File.createFile File.openPre
  rw [hnames.system, Cmd.run_bind, readPre_eq hnames hw hf hbs]
  simp only [Cmd.run_bind, hopen, hrun₁, hrun₂, failed, Bool.false_eq_true, if_false, clonefile,
    hclone, Bool.not_true, Cmd.run_pure, hcopy]

/-- The step for a created inode of another type than file, directory and link succeeds and leaves
it. -/
theorem unnoticed_created (hnames : Names paths file p q) (hw : w.faults = [])
    (hq : Literal w.fs q) (hn : w.fs.find q = some n) (hord : ¬n.fmt.Ordinary)
    (hst : file.preToPostStatus = .CREATED) : Unnoticed paths file q none w := by
  have hdelete := deleteAllTypes_special hnames hw hq hn hord
  have hrun : (file.doUndo paths).run w = (true, w) := by
    unfold File.doUndo
    simp [hst, Status.CREATED, Status.modified, hdelete]
  unfold Unnoticed
  rw [hrun]
  refine ⟨rfl, fun habsent => ?_⟩
  rw [(absent_literal hq).mp habsent] at hn
  cases hn

/-- The step for a deleted inode of another type than file, directory and link succeeds without
bringing it back. -/
theorem unnoticed_deleted (hnames : Names paths file p q) (hw : w.faults = [])
    (hq : Literal w.fs q) (hparent : q.dropLast ≠ []) (hn : w.fs.find q = none)
    (hf : paths.pre.lookup p = some f) (hord : ¬f.fmt.Ordinary)
    (hst : file.preToPostStatus = .DELETED) : Unnoticed paths file q (some f) w := by
  have hcreate := createAllTypes_skips hnames hw hq hparent hf hord
  have hrun : (file.doUndo paths).run w = (true, w) := by
    unfold File.doUndo
    simp [hst, Status.DELETED, Status.modified, hcreate]
  exact unnoticed_of_sets hq hrun (Sets.refl hn) fun m hm => by cases hm

section ChangedType

variable (hnames : Names paths file p q) (hw : w.faults = []) (hq : Literal w.fs q)
  (hparent : q.dropLast ≠ []) (hn : w.fs.find q = some n) (hf : paths.pre.lookup p = some f)
  (hreal : f.Real) (hboth : file.preToPostStatus.Both)
  (htype : file.preToPostStatus.type = true) (hfmt : f.fmt ≠ n.fmt)

include hnames hw hq hparent hn hf htype

/-- The old file is deleted, the new one not created. -/
theorem unnoticed_special (hf' : ¬f.fmt.Ordinary) (hdel : Deletable w.fs q n)
    (hmod : file.preToPostStatus.modified = false) : Unnoticed paths file q (some f) w := by
  obtain ⟨w₁, hdelete, hsets⟩ := deleteAllTypes_sets hnames hw hq hn hdel
  have hcreate := createAllTypes_skips hnames (hsets.faults.trans hw) (hsets.literal hq) hparent
    hf hf'
  have hrun := doUndo_type_run htype hdelete hcreate (by rw [hmod]; rfl)
  exact unnoticed_of_sets hq hrun hsets fun m hm => by cases hm

include hreal hboth hfmt

/-- The old file is not deleted, the new one not created. -/
theorem unnoticed_specials (hf' : ¬f.fmt.Ordinary) (hn' : ¬n.fmt.Ordinary) :
    Unnoticed paths file q (some f) w := by
  have hdelete := deleteAllTypes_special hnames hw hq hn hn'
  have hcreate := createAllTypes_skips hnames hw hq hparent hf hf'
  obtain ⟨w', m, hmodify, hsets, hshape⟩ := modify_run hnames hw hq hparent hn hf hreal
    (hboth.not_type_content htype)
    fun _ => ⟨fun h => hf' (Or.inr (Or.inr h)), fun h => hn' (Or.inr (Or.inr h))⟩
  refine unnoticed_of_sets hq (doUndo_type_run htype hdelete hcreate hmodify) hsets ?_
  intro m' hm
  cases hm
  exact fun h => hfmt (h.symm.trans (congrArg Prod.fst hshape))

/-- The regular file is written to the fifo or device that is in its place. -/
theorem unnoticed_swallowed (hreg : f.fmt = .reg)
    (hn' : n.fmt = .fifo ∨ n.fmt = .blk ∨ n.fmt = .chr) : Unnoticed paths file q (some f) w := by
  have hord : ¬n.fmt.Ordinary := by
    obtain h | h | h := hn' <;> rw [h] <;> decide
  -- nothing deletes a file of this type
  have hdelete := deleteAllTypes_special hnames hw hq hn hord
  have hdata : ∃ bs, f.data = some bs := by
    rw [Inode.Real, hreg] at hreal
    obtain ⟨bs, hbs, _⟩ := hreal
    exact ⟨bs, hbs⟩
  obtain ⟨bs, hbs⟩ := hdata
  obtain ⟨w₁, m, hfile, hsets, hm⟩ :=
    createFile_swallowed hnames hw hq hn hn' hf hbs f.perm f.uid f.gid
  have hcreate : (file.createAllTypes paths).run w = (true, w₁) := by
    have hlstat := lstatPre_eq hnames hw hf
    have hparents := createParentDirectories_of_literal hw hq hparent
    unfold File.createAllTypes
    rw [hnames.system]
    simp only [Cmd.run_bind, hlstat, hparents, Bool.not_true, Bool.false_eq_true, if_false, hreg,
      hfile]
  obtain ⟨w', m', hmodify, hsets', hshape⟩ := modify_run hnames (hsets.faults.trans hw)
    (hsets.literal hq) hparent hsets.self hf hreal (hboth.not_type_content htype) fun _ =>
      ⟨by rw [hreg]; decide, fun h => hord (Or.inr (Or.inr (hm.symm.trans h)))⟩
  refine unnoticed_of_sets hq (doUndo_type_run htype hdelete hcreate hmodify)
    (hsets.trans hsets' id) fun m'' hm'' => ?_
  cases hm''
  have hkept : m'.fmt = m.fmt := congrArg Prod.fst hshape
  exact fun h => hfmt (h.symm.trans (hkept.trans hm))

end ChangedType

/-- The state after a call that changes nothing. -/
def World.next (w : World) : World := { w with faults := w.faults.tail }

theorem lstat_next (hw : w.faults.head? ≠ some true) (hq : Literal w.fs q)
    (hn : w.fs.find q = some n) : (lstat (pathName q)).run w = (.ok n, w.next) :=
  syscall_of_not_fault hw (f := fun w => (w.fs.stat false (pathName q)).map fun n => (n, w.fs))
    (Fs.lstat_literal hq hn)

theorem lstatPre_next (hnames : Names paths file p q) (hw : w.faults.head? ≠ some true)
    (hf : paths.pre.lookup p = some f) : (file.lstatPre paths).run w = (.ok f, w.next) := by
  unfold File.lstatPre
  rw [syscall_of_not_fault hw]
  · rfl
  · rw [hnames.components, hf]

/-- One call of stat is enough where the directory is there. -/
theorem createParentDirectories_next (hw : w.faults.head? ≠ some true) (hq : Literal w.fs q)
    (hparent : q.dropLast ≠ []) :
    (createParentDirectories (pathName q)).run w = (true, w.next) := by
  have hslash := (hq.valid _ (List.getLast_mem hq.ne_nil)).no_slash
  have hleading := leadingPath_concat q.dropLast hslash
  rw [List.dropLast_append_getLast hq.ne_nil] at hleading
  obtain ⟨d, hd, hdir⟩ := Fs.isDir_iff.mp hq.isDir_dropLast
  have hstat : (stat (pathName q.dropLast)).run w = (.ok d, w.next) := by
    refine syscall_of_not_fault hw
      (f := fun w => (w.fs.stat true (pathName q.dropLast)).map fun n => (n, w.fs)) ?_
    have hres : resolve w.fs true (pathName q.dropLast) = .ok q.dropLast := by
      have hlit := literal_of_find hparent
        (fun n hn => hq.valid n (List.dropLast_subset q hn)) hd
      exact resolve_literal_follow hlit (not_isLnk_of_isDir hq.isDir_dropLast)
    simp [Fs.stat_eq_ok.mpr ⟨_, hres, hd⟩, Except.map]
  rw [createParentDirectories]
  split
  · next h =>
    rw [hleading] at h
    cases h
  · next leading h =>
    rw [hleading] at h
    cases h
    simp [hstat, hdir]

/-- A directory that cannot be made, for a reason other than the file that is there, is
taken to be there. -/
theorem unnoticed_dir (hnames : Names paths file p q)
    (hw : w.faults = [false, false, false, true]) (hq : Literal w.fs q)
    (hparent : q.dropLast ≠ []) (hn : w.fs.find q = some n) (hf : paths.pre.lookup p = some f)
    (hreal : f.Real) (hboth : file.preToPostStatus.Both)
    (htype : file.preToPostStatus.type = true) (hdir : f.fmt = .dir) (hord : ¬n.fmt.Ordinary) :
    Unnoticed paths file q (some f) w := by
  have hlnk : n.fmt ≠ .lnk := fun h => hord (Or.inr (Or.inr h))
  -- `lstat`, `lstat` of the snapshot and `stat` pass, `mkdir` fails
  have hdelete : (file.deleteAllTypes paths).run w = (true, w.next) := by
    have hlstat := lstat_next (by simp [hw]) hq hn
    unfold File.deleteAllTypes
    rw [hnames.system]
    unfold FileType.Ordinary at hord
    cases hcase : n.fmt <;> simp_all
  have hlstat := lstatPre_next (w := w.next) hnames (by simp [World.next, hw]) hf
  have hparents := createParentDirectories_next (w := w.next.next) (by simp [World.next, hw]) hq
    hparent
  have hmkdir : (mkdir (pathName q) 0).run w.next.next.next =
      (.error .eio, w.next.next.next.next) := by
    unfold mkdir syscall
    simp [World.next, hw]
  have hw₄ : w.next.next.next.next.faults = [] := by simp [World.next, hw]
  obtain ⟨w₅, hchmod, hsets₅⟩ := chmod_literal (w := w.next.next.next.next) hw₄ hq hn hlnk f.perm
  have hw₅ := hsets₅.faults.trans hw₄
  obtain ⟨w₆, hchown, hsets₆⟩ :=
    chown_literal hw₅ (hsets₅.literal hq) hsets₅.self hlnk f.uid f.gid
  have hcreate : (file.createAllTypes paths).run w.next = (true, w₆) := by
    unfold File.createAllTypes File.createDirectory
    rw [hnames.system]
    simp only [Cmd.run_bind, hlstat, hparents, Bool.not_true, Bool.false_eq_true, if_false, hdir,
      hmkdir, Except.error.injEq, reduceCtorEq, decide_false, Cmd.when_false, Cmd.run_pure, hchmod,
      hchown, failed]
  have hsets := hsets₅.trans hsets₆ id
  obtain ⟨w', m, hmodify, hsets', hshape⟩ := modify_run hnames (hsets₆.faults.trans hw₅)
    (hsets.literal hq) hparent hsets.self hf hreal (hboth.not_type_content htype)
    fun _ => ⟨by rw [hdir]; decide, hlnk⟩
  have hrun := doUndo_type_run htype hdelete hcreate hmodify
  unfold Unnoticed
  rw [hrun]
  refine ⟨rfl, fun hundone => ?_⟩
  obtain ⟨s, hhas, hfmt, -⟩ := hundone
  rw [has_literal (hsets'.literal (hsets.literal hq)), Fs.shape, hsets'.self] at hhas
  have hm : m.fmt = f.fmt := (congrArg Prod.fst (Option.some.inj hhas)).trans hfmt
  have hm' : m.fmt = n.fmt := congrArg Prod.fst hshape
  exact hord (Or.inl (hm'.symm.trans (hm.trans hdir)))

/-- A change of the content that the comparison did not see stays. -/
theorem unnoticed_content (hnames : Names paths file p q) (hw : w.faults = [])
    (hq : Literal w.fs q) (hparent : q.dropLast ≠ []) (hn : w.fs.find q = some n)
    (hf : paths.pre.lookup p = some f) (hreal : f.Real) (hboth : file.preToPostStatus.Both)
    (htype : file.preToPostStatus.type = false) (hcontent : file.preToPostStatus.content = false)
    (hperm : file.preToPostStatus.permissions = true → f.fmt ≠ .lnk ∧ n.fmt ≠ .lnk)
    (hkind : f.fmt = .reg ∨ (f.fmt = .lnk ∧ f.stored.length ≤ 1024)) (hdiff : n.data ≠ f.stored) :
    Unnoticed paths file q (some f) w := by
  obtain ⟨w', m, hmodify, hsets, hshape⟩ := modify_run hnames hw hq hparent hn hf hreal hcontent
    hperm
  -- without TYPE and CONTENT only the last phase has something to do
  have hrun : (file.doUndo paths).run w = (true, w') := by
    unfold File.doUndo
    simp only [hboth.not_created, hboth.not_deleted, htype, Bool.or_self, Cmd.when_false,
      Cmd.run_bind, Cmd.run_pure, hmodify, Bool.and_self]
  unfold Unnoticed
  rw [hrun]
  refine ⟨rfl, fun ⟨s, hhas, _, hreg, hlnk⟩ => hdiff ?_⟩
  rw [has_literal (hsets.literal hq), Fs.shape, hsets.self] at hhas
  have hdata : s.2 = n.data := by
    have hm : m.shape = s := Option.some.inj hhas
    rw [← hm, hshape]
    rfl
  rw [← hdata]
  obtain h | ⟨h, hshort⟩ := hkind
  · exact hreg h
  · exact hlnk h hshort

end Unnoticed

/-! ## A system with one file -/

/-- A directory with at most one file in it. -/
def oneFileTree (c : Name) (hc : ValidName c) (i : Option Inode) : DirTree where
  root := .node (plainDir 0) (i.toList.map fun g => (c, .node g []))
  wf := by
    cases i with
    | none => exact .node ⟨by simp, by simp, fun _ => rfl⟩ (by simp)
    | some g =>
      refine .node ⟨by simpa using hc, by simp, fun _ => rfl⟩ ?_
      refine List.forall_mem_singleton.mpr (.node ⟨by simp, by simp, ?_⟩ (by simp))
      exact fun h => absurd rfl h
  isDir := rfl

/-- A system with nothing but the file at `q`, if any, and the directories above it. -/
def oneFile (q : Path) (hne : q ≠ []) (hq : ∀ n ∈ q, ValidName n) (i : Option Inode) : Fs :=
  mounted q.dropLast (fun n hn => hq n (List.dropLast_subset q hn))
    (oneFileTree (q.getLast hne) (hq _ (List.getLast_mem hne)) i)

section OneFile

variable {q : Path} {hne : q ≠ []} {hq : ∀ n ∈ q, ValidName n} {i : Option Inode}

theorem oneFile_systemAt : SystemAt (oneFile q hne hq i) q.dropLast
    (oneFileTree (q.getLast hne) (hq _ (List.getLast_mem hne)) i).root :=
  mounted_systemAt _ _ _

theorem oneFile_find : (oneFile q hne hq i).find q = i.map Inode.node := by
  have hfind := (@oneFile_systemAt q hne hq i).files [q.getLast hne]
  rw [List.dropLast_append_getLast] at hfind
  rw [hfind, Tree.lookup, Tree.find_cons]
  cases i <;> simp [oneFileTree]

/-- In the file system of one file the path of the file is reached without following a link. -/
theorem oneFile_literal : Literal (oneFile q hne hq i) q where
  ne_nil := hne
  valid := hq
  dirs := by
    intro r hr hrq
    refine oneFile_systemAt.above r ?_
    have hlen : r.length < q.length :=
      lt_of_le_of_ne hr.length_le fun h => hrq (hr.eq_of_length h)
    refine List.prefix_of_prefix_length_le hr (List.dropLast_prefix q) ?_
    rw [List.length_dropLast]
    omega

/-- In the file system of one file nothing is below the path of the file. -/
theorem oneFile_empty : (oneFile q hne hq i).hasChild q = false := by
  apply Fs.hasChild_eq_false_iff.mpr
  intro c
  have hfind := (@oneFile_systemAt q hne hq i).files [q.getLast hne, c]
  have hpath : q.dropLast ++ [q.getLast hne, c] = q ++ [c] := by
    rw [← List.singleton_append, ← List.append_assoc, List.dropLast_append_getLast]
  rw [← hpath, hfind, Tree.lookup, Tree.find_cons]
  cases i <;> simp [oneFileTree, Tree.find_cons]

end OneFile

/-! ## The exact condition -/

/-- A step on the entry that reports success has restored the file, on every system that
has there what the post tree has. -/
def StepRestores (mayFail : Bool) (pre post : Tree) (p : Path) (st : Status) : Prop :=
  ∀ (sub : Path) (w : World), (∀ n ∈ sub, ValidName n) → (mayFail = false → w.faults = []) →
    let paths := undoPaths pre sub
    let file : File := { name := pathName p, preToPostStatus := st }
    AsIn (file.systemPath paths) (post.lookup p) w.fs →
      ((file.doUndo paths).run w).1 = true →
        Restored (file.systemPath paths) (pre.lookup p) ((file.doUndo paths).run w).2.fs

theorem asIn_oneFile {q : Path} {hne : q ≠ []} {hq : ∀ n ∈ q, ValidName n} (i : Option Inode)
    {w : World} (hw : w.fs = oneFile q hne hq i) : AsIn (pathName q) i w.fs := by
  have hlit : Literal w.fs q := hw ▸ oneFile_literal
  have hfind : w.fs.find q = i.map Inode.node := hw ▸ oneFile_find
  cases i with
  | none => exact (absent_literal hlit).mpr hfind
  | some g => exact Fs.stat_eq_ok.mpr ⟨q, resolve_literal hlit, hfind⟩

/-- Where success is not to be trusted there is a system on which it must not be. -/
theorem exists_unnoticed {mayFail : Bool} {paths : FilePaths} {file : File} {p q : Path}
    {st : Status} {f? g? : Option Inode} (hnames : Names paths file p q) (hne : q ≠ [])
    (hq : ∀ n ∈ q, ValidName n) (hparent : q.dropLast ≠ []) (hf : paths.pre.lookup p = f?)
    (hreal : ∀ f, f? = some f → f.Real) (hreal' : ∀ g, g? = some g → g.Real)
    (hst : file.preToPostStatus = st) (hdiff : diffStatus f? g? = some st)
    (hnot : ¬Sure mayFail f? g?) :
    ∃ w : World, w.fs = oneFile q hne hq g? ∧ (mayFail = false → w.faults = []) ∧
      Unnoticed paths file q f? w := by
  -- a file system with nothing but the one file, and no fault unless one is needed
  let w : World := { fs := oneFile q hne hq g?, faults := [], canClone := false, umask := 0 }
  have hlit : Literal w.fs q := @oneFile_literal q hne hq g?
  have hfind : w.fs.find q = g?.map Inode.node := @oneFile_find q hne hq g?
  cases f? with
  | none =>
    cases g? with
    | none => cases hdiff
    | some g =>
      have hst : file.preToPostStatus = .CREATED := hst.trans (Option.some.inj hdiff).symm
      exact ⟨w, rfl, fun _ => rfl, unnoticed_created hnames rfl hlit hfind hnot hst⟩
  | some f =>
    have hf' := hreal f rfl
    cases g? with
    | none =>
      have hst : file.preToPostStatus = .DELETED := hst.trans (Option.some.inj hdiff).symm
      exact ⟨w, rfl, fun _ => rfl,
        unnoticed_deleted hnames rfl hlit hparent hfind hf hnot hst⟩
    | some g =>
      have hg' := hreal' g rfl
      rw [diffStatus] at hdiff
      split_ifs at hdiff
      have hst : file.preToPostStatus = cmpFiles f g := hst.trans (Option.some.inj hdiff).symm
      have hboth : file.preToPostStatus.Both := hst ▸ cmpFiles_both f g
      by_cases hfmt : f.fmt = g.fmt
      · -- a difference of the content that is not in the status
        simp only [Sure, if_pos hfmt, not_or, not_forall] at hnot
        obtain ⟨hcontent, hkind, hstored⟩ := hnot
        have htype : file.preToPostStatus.type = false := by
          rw [hst, Bool.eq_false_iff]
          exact fun h => cmpFiles_type.mp h hfmt
        refine ⟨w, rfl, fun _ => rfl, unnoticed_content hnames rfl hlit hparent hfind hf hf' hboth
          htype (hst ▸ Bool.eq_false_iff.mpr hcontent) ?_ hkind fun h => hstored h.symm⟩
        intro hperm
        have hnolink : f.fmt ≠ .lnk := by
          intro hlnk
          have ht := type_of_link_mode hf' hg' hlnk (hst ▸ hperm)
          rw [← hst, htype] at ht
          cases ht
        exact ⟨hnolink, fun h => hnolink (hfmt.trans h)⟩
      · have htype : file.preToPostStatus.type = true := hst ▸ cmpFiles_type.mpr hfmt
        simp only [Sure, if_neg hfmt] at hnot
        by_cases hord : f.fmt.Ordinary
        · -- a special file stays where a directory or a regular file should be
          simp only [if_pos hord, not_or] at hnot
          obtain ⟨hspecial, hlnk, hdir, hreg⟩ := hnot
          obtain hcase | hcase | hcase := hord
          · have hmay : mayFail = true := by
              cases hm : mayFail with
              | true => rfl
              | false => exact absurd ⟨hcase, hm⟩ hdir
            -- the `mkdir` of the directory fails, which `mayFail` allows
            refine ⟨{ w with faults := [false, false, false, true] }, rfl, ?_, ?_⟩
            · rw [hmay]
              exact fun h => by cases h
            · exact unnoticed_dir hnames rfl hlit hparent hfind hf hf' hboth htype hcase hspecial
          · have hkind : g.fmt = .fifo ∨ g.fmt = .blk ∨ g.fmt = .chr := by
              unfold FileType.Ordinary at hspecial
              cases hg : g.fmt <;> simp_all
            exact ⟨w, rfl, fun _ => rfl, unnoticed_swallowed hnames rfl hlit hparent hfind hf hf'
              hboth htype hfmt hcase hkind⟩
          · exact absurd hcase hlnk
        · simp only [if_neg hord, not_and] at hnot
          by_cases hg : g.fmt.Ordinary
          · have hmod : file.preToPostStatus.modified = false := by
              rw [hst]
              exact Bool.eq_false_iff.mpr (hnot hg)
            exact ⟨w, rfl, fun _ => rfl, unnoticed_special hnames rfl hlit hparent hfind hf htype
              hord ⟨hg, fun _ => @oneFile_empty q hne hq (some g)⟩ hmod⟩
          · exact ⟨w, rfl, fun _ => rfl, unnoticed_specials hnames rfl hlit hparent hfind hf hf'
              hboth htype hfmt hord hg⟩

/-- A step on a reported entry that reports success has restored the file, for every system
that has there what the post tree has, exactly between files where that is to be trusted. -/
theorem doUndo_restores_iff (mayFail : Bool) (pre post : RealTree) (p : Path) (st : Status)
    (hdiff : Differs pre.root post.root p st) :
    StepRestores mayFail pre.root post.root p st ↔
      Sure mayFail (pre.root.lookup p) (post.root.lookup p) := by
  have hreal : ∀ (t : RealTree) i, t.root.lookup p = some i → i.Real := by
    intro t i hi
    exact all_lookup t.real hi
  have hp : ∀ n ∈ p, ValidName n := @Differs.valid pre.toSnapshotTree post.toSnapshotTree _ _ hdiff
  have hnames : ∀ sub, (∀ n ∈ sub, ValidName n) → Names (undoPaths pre.root sub)
      { name := pathName p, preToPostStatus := st } p (sub ++ p) :=
    fun sub hsub => names_of_subvolume hsub rfl rfl hp
  constructor
  · intro h
    by_contra hnot
    -- a subvolume of one name is enough to show the step that goes unnoticed
    have hs : ∀ n ∈ [str "s"], ValidName n := by decide
    have hq : ∀ n ∈ [str "s"] ++ p, ValidName n := by
      intro n hn
      exact (List.mem_append.mp hn).elim (hs n) (hp n)
    have hparent : ([str "s"] ++ p).dropLast ≠ [] := by
      intro hnil
      have hlen := congrArg List.length hnil
      have hpos := List.length_pos_iff.mpr hdiff.1
      rw [List.length_dropLast, List.length_append, List.length_singleton,
        List.length_nil] at hlen
      omega
    obtain ⟨w, hw, hfaults, hok, hbad⟩ := exists_unnoticed (hnames _ hs) (by simp) hq hparent rfl
      (hreal pre) (hreal post) rfl hdiff.2.2 hnot
    have hstep := h [str "s"] w hs hfaults
    simp only [(hnames _ hs).system] at hstep
    exact hbad (hstep (asIn_oneFile _ hw) hok)
  · intro hsure sub w hsub hfaults paths file hasIn hok
    have hq : ∀ n ∈ sub ++ p, ValidName n := by
      intro n hn
      exact (List.mem_append.mp hn).elim (hsub n) (hp n)
    have hsystem : file.systemPath paths = pathName (sub ++ p) := (hnames sub hsub).system
    rw [hsystem] at hasIn ⊢
    exact doUndo_sure (hnames sub hsub) hq rfl (hreal pre) rfl hdiff.2.2 hsure w
      ⟨hasIn, hfaults⟩ hok

/-- An empty directory … -/
private def emptyTree : RealTree where
  root := .node (plainDir 1) []
  wf := by decide
  isDir := rfl
  oneDev := by decide
  real := by decide

/-- … one with a file … -/
private def fileTree : RealTree where
  root := .node (plainDir 2) [(str "a", .node (plainFile 2 (str "x")) [])]
  wf := by decide
  isDir := rfl
  oneDev := by decide
  real := by decide

/-- … and one with a fifo. -/
private def fifoTree : RealTree where
  root := .node (plainDir 3) [(str "a", .node { plainDir 3 with fmt := .fifo } [])]
  wf := by decide
  isDir := rfl
  oneDev := by decide
  real := by decide

/-- The success of deleting a created file is to be trusted. -/
theorem doUndo_restores_iff_file :
    StepRestores true emptyTree.root fileTree.root [str "a"] .CREATED :=
  (doUndo_restores_iff true emptyTree fileTree [str "a"] .CREATED (by decide)).mpr (by decide)

/-- A created fifo is left where it is, and that is reported as success. -/
theorem doUndo_fifo_stays :
    ¬StepRestores false emptyTree.root fifoTree.root [str "a"] .CREATED := by
  intro h
  have hthere : (mounted [str "s"] (by decide) fifoTree.toDirTree).stat false (str "/s/a") =
      .ok { plainDir 3 with fmt := .fifo }.node := by decide +kernel
  have habsent := h [str "s"]
    { fs := mounted [str "s"] (by decide) fifoTree.toDirTree, faults := [], canClone := false,
      umask := 0o022 }
    (by decide) (fun _ => rfl) hthere (by decide +kernel)
  exact habsent { plainDir 3 with fmt := .fifo }.node (by decide +kernel)

end Snapper
