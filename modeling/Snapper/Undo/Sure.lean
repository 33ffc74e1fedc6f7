import Snapper.Undo.Success

/-!
# Where success is to be trusted

A step of an undo that reports success has restored its file for some pairs of old and new
file and not for others.  `Sure` says for which; here it is shown to be enough.
-/

namespace Snapper

open General Cmd

/-- A snapshot with files of all types. -/
structure RealTree extends SnapshotTree where
  real : root.All fun i _ => i.Real

/-- The file at the path is that of the tree. -/
def AsIn (path : Str) : Option Inode → Fs → Prop
  | none, fs => fs.Absent path
  | some g, fs => fs.stat false path = .ok g.node

/-- The file at the path has the type of the tree's, and its content or target. -/
def Restored (path : Str) : Option Inode → Fs → Prop
  | none, fs => fs.Absent path
  | some f, fs => ∃ s, fs.Has path s ∧ s.1 = f.fmt ∧ (f.fmt = .reg → s.2 = f.stored) ∧
      (f.fmt = .lnk → f.stored.length ≤ 1024 → s.2 = f.stored)

/-- The files between which a step that reports success is to be trusted.  `mayFail` says
whether system calls may also fail for reasons that are not in the directory tree. -/
def Sure (mayFail : Bool) : Option Inode → Option Inode → Prop
  | none, none => True
  | none, some g => g.fmt.Ordinary
  | some f, none => f.fmt.Ordinary
  | some f, some g =>
    if f.fmt = g.fmt then
      (cmpFiles f g).content = true ∨
        (f.fmt = .reg ∨ (f.fmt = .lnk ∧ f.stored.length ≤ 1024) → f.stored = g.stored)
    else if f.fmt.Ordinary then
      g.fmt.Ordinary ∨ f.fmt = .lnk ∨ (f.fmt = .dir ∧ mayFail = false) ∨
        (f.fmt = .reg ∧ g.fmt = .sock)
    else g.fmt.Ordinary ∧ (cmpFiles f g).modified = true

instance (mayFail : Bool) (f? g? : Option Inode) : Decidable (Sure mayFail f? g?) := by
  unfold Sure
  split <;> infer_instance

/-! ## Where success is to be trusted -/

section Sure

variable {paths : FilePaths} {file : File} {p q : Path} {f g : Inode}

theorem has_of_asIn {path : Str} {fs : Fs} (h : AsIn path (some g) fs) :
    fs.Has path g.shape :=
  ⟨g.node, h, rfl⟩

theorem restored_of_has {path : Str} {fs : Fs} (h : fs.Has path (restored f).shape) :
    Restored path (some f) fs := by
  refine ⟨_, h, rfl, fun hreg => ?_, fun hlnk hshort => ?_⟩
  · simp [restored_shape_eq, hreg]
  · simp [restored_shape_eq, hlnk, List.take_of_length_le hshort]

/-- A step between files of both trees, without a change of the type. -/
theorem doUndo_sure_same (hnames : Names paths file p q) (hvalid : ∀ n ∈ q, ValidName n)
    (hf : paths.pre.lookup p = some f) (hreal : f.Real) (hfmt : f.fmt = g.fmt)
    (hst : file.preToPostStatus = cmpFiles f g)
    (hsure : (cmpFiles f g).content = true ∨
      (f.fmt = .reg ∨ (f.fmt = .lnk ∧ f.stored.length ≤ 1024) → f.stored = g.stored)) :
    Succeeds (fun w => w.fs.Has (pathName q) g.shape) (file.doUndo paths)
      fun w => Restored (pathName q) (some f) w.fs := by
  have hboth : file.preToPostStatus.Both := hst ▸ cmpFiles_both f g
  have htype : file.preToPostStatus.type = false := by
    cases ht : file.preToPostStatus.type with
    | false => rfl
    | true =>
      rw [hst] at ht
      exact absurd hfmt (cmpFiles_type.mp ht)
  refine doUndo_same_succeeds hboth htype ?_
  -- the content is written again, or the files have the same already
  cases hcontent : file.preToPostStatus.content with
  | true =>
    obtain ⟨_, hkind⟩ := content_fmt (hst ▸ hcontent)
    have hmodify := modifyAllTypes_found (s := g.shape) hnames hvalid hf hreal hkind hfmt.symm
      hcontent
    refine Succeeds.when (fun _ => hmodify.post fun b w h hb => restored_of_has (h hb)) ?_
    intro hmodified
    simp [Status.modified, hcontent] at hmodified
  | false =>
    have hsame := hsure.resolve_left (by rw [← hst, hcontent]; decide)
    have hdone : ∀ w : World, w.fs.Has (pathName q) g.shape →
        Restored (pathName q) (some f) w.fs := fun w h =>
      ⟨g.shape, h, hfmt.symm, fun hreg => (hsame (Or.inl hreg)).symm,
        fun hlnk hshort => (hsame (Or.inr ⟨hlnk, hshort⟩)).symm⟩
    refine Succeeds.when (fun _ => ?_) fun _ w h => hdone w h
    exact (modifyAllTypes_has hnames hvalid hcontent).post fun b w h _ => hdone w h

/-- A step between files of different types. -/
theorem doUndo_sure_type {mayFail : Bool} (hnames : Names paths file p q)
    (hvalid : ∀ n ∈ q, ValidName n)
    (hf : paths.pre.lookup p = some f) (hreal : f.Real) (hfmt : f.fmt ≠ g.fmt)
    (hst : file.preToPostStatus = cmpFiles f g)
    (hsure : if f.fmt.Ordinary then
        g.fmt.Ordinary ∨ f.fmt = .lnk ∨ (f.fmt = .dir ∧ mayFail = false) ∨
          (f.fmt = .reg ∧ g.fmt = .sock)
      else g.fmt.Ordinary ∧ (cmpFiles f g).modified = true) :
    Succeeds (fun w => w.fs.Has (pathName q) g.shape ∧ (mayFail = false → w.faults = []))
      (file.doUndo paths) fun w => Restored (pathName q) (some f) w.fs := by
  have hboth : file.preToPostStatus.Both := hst ▸ cmpFiles_both f g
  have htype : file.preToPostStatus.type = true := by
    rw [hst]
    exact cmpFiles_type.mpr hfmt
  have hcontent := hboth.not_type_content htype
  have hnever : Succeeds (fun _ => False) (Cmd.when file.preToPostStatus.modified
      (file.modifyAllTypes paths) true) fun w => Restored (pathName q) (some f) w.fs :=
    fun w h => h.elim
  by_cases hg : g.fmt.Ordinary
  · -- the old file is deleted
    have hdelete : Succeeds
        (fun w => w.fs.Has (pathName q) g.shape ∧ (mayFail = false → w.faults = []))
        (file.deleteAllTypes paths) fun w => w.fs.Absent (pathName q) :=
      (deleteAllTypes_found (s := g.shape) hnames hg).pre _ fun w h => h.1
    by_cases hf' : f.fmt.Ordinary
    · have hmodify : Succeeds (fun w => w.fs.Has (pathName q) (restored f).shape)
          (Cmd.when file.preToPostStatus.modified (file.modifyAllTypes paths) true)
          fun w => Restored (pathName q) (some f) w.fs := by
        refine Succeeds.when (fun _ => ?_) fun _ w h => restored_of_has h
        exact (modifyAllTypes_has hnames hvalid hcontent).post fun b w h _ => restored_of_has h
      exact doUndo_type_succeeds htype hdelete
        (createAllTypes_found hnames hvalid hf hreal hf') hmodify
    · -- nothing is made, and what has no mode to set is noticed
      rw [if_neg hf'] at hsure
      have hcreate : Succeeds (fun w => w.fs.Absent (pathName q)) (file.createAllTypes paths)
          fun w => w.fs.Absent (pathName q) :=
        (createAllTypes_special hnames hvalid hf hf').post fun _ _ h _ => h
      refine doUndo_type_succeeds htype hdelete hcreate (Succeeds.when (fun _ => ?_) ?_)
      · intro w h hb
        exact (modifyAllTypes_absent hnames hvalid hcontent (hst ▸ hsure.2) w h hb).elim
      · intro hmodified
        rw [hst, hsure.2] at hmodified
        cases hmodified
  · -- the old file is left where it is
    have hstays := deleteAllTypes_stays (s := g.shape) hnames hg
    have hdelete : Succeeds
        (fun w => w.fs.Has (pathName q) g.shape ∧ (mayFail = false → w.faults = []))
        (file.deleteAllTypes paths) fun w => w.fs.Has (pathName q) g.shape :=
      fun w h _ => hstays w h.1
    by_cases hf' : f.fmt.Ordinary
    · rw [if_pos hf'] at hsure
      obtain hlnk | ⟨hdir, hmay⟩ | hreg := hsure.resolve_left hg
      · exact doUndo_type_succeeds htype hdelete
          (createAllTypes_blocked hnames hvalid hf (Or.inl hlnk)) hnever
      · have hdelete' : Succeeds
            (fun w => w.fs.Has (pathName q) g.shape ∧ (mayFail = false → w.faults = []))
            (file.deleteAllTypes paths)
            fun w => w.fs.Has (pathName q) g.shape ∧ w.faults = [] :=
          fun w h _ => (hstays.and_keeps deleteAllTypes_faults) w ⟨h.1, h.2 hmay⟩
        exact doUndo_type_succeeds htype hdelete'
          (createAllTypes_blocked_dir hnames hvalid hf hdir hg) hnever
      · exact doUndo_type_succeeds htype hdelete
          (createAllTypes_blocked hnames hvalid hf (Or.inr hreg)) hnever
    · rw [if_neg hf'] at hsure
      exact absurd hsure.1 hg

/-- Where success is to be trusted it means that the file is restored. -/
theorem doUndo_sure {mayFail : Bool} {st : Status} {f? g? : Option Inode}
    (hnames : Names paths file p q) (hvalid : ∀ n ∈ q, ValidName n)
    (hf : paths.pre.lookup p = f?) (hreal : ∀ f, f? = some f → f.Real)
    (hst : file.preToPostStatus = st) (hdiff : diffStatus f? g? = some st)
    (hsure : Sure mayFail f? g?) :
    Succeeds (fun w => AsIn (pathName q) g? w.fs ∧ (mayFail = false → w.faults = []))
      (file.doUndo paths) fun w => Restored (pathName q) f? w.fs := by
  cases f? with
  | none =>
    cases g? with
    | none => cases hdiff
    | some g =>
      have hst : file.preToPostStatus = .CREATED := hst.trans (Option.some.inj hdiff).symm
      refine doUndo_created_succeeds hst ?_
      exact (deleteAllTypes_found (s := g.shape) hnames hsure).pre _
        fun w h => has_of_asIn h.1
  | some f =>
    -- a file that is only in one of the trees has a status of its own
    cases g? with
    | none =>
      have hst : file.preToPostStatus = .DELETED := hst.trans (Option.some.inj hdiff).symm
      refine doUndo_deleted_succeeds hst ?_
      have hcreate := createAllTypes_found hnames hvalid hf (hreal f rfl) hsure
      exact fun w h hb => restored_of_has (hcreate w h.1 hb)
    | some g =>
      rw [diffStatus] at hdiff
      split_ifs at hdiff
      have hst : file.preToPostStatus = cmpFiles f g := hst.trans (Option.some.inj hdiff).symm
      by_cases hfmt : f.fmt = g.fmt
      · simp only [Sure, if_pos hfmt] at hsure
        exact (doUndo_sure_same hnames hvalid hf (hreal f rfl) hfmt hst hsure).pre _
          fun w h => has_of_asIn h.1
      · simp only [Sure, if_neg hfmt] at hsure
        exact (doUndo_sure_type hnames hvalid hf (hreal f rfl) hfmt hst hsure).pre _
          fun w h => ⟨has_of_asIn h.1, h.2⟩

end Sure

end Snapper
