import Snapper.Undo.Plain

/-!
# The effect of one step

What a step of a complete undo does to the running system, file by file: the file of the
step becomes a known file, and everything else stays, but for the other names of a file that is
changed in place and for the mode of the file that a restored symlink leads to.
-/

namespace Snapper

open General

/-- What a step makes of the file it finds, from the file of the pre tree. -/
def outcome (st : Status) : Option Inode → Option Node → Option Node
  | none, _ => none
  | some f, none => some (restored f)
  | some f, some n => some (modified st f (replaced st f n))

/-- With the symlink `link` in place at `q` its path leads to the file at `loc`. -/
def LeadsTo (fs : Fs) (q : Path) (link : Node) (loc : Path) : Prop :=
  ∃ fs' : Fs, fs'.find = Function.update fs.find q (some link) ∧
    resolve fs' true (pathName q) = .ok loc ∧ (fs'.find loc).isSome

/-- The step sets the file at `q`, in place or anew, and the mode of the file that a restored
symlink with a changed mode leads to. -/
inductive StepEffect (pre : Tree) (p q : Path) (st : Status) (w w' : World) : Prop where
  | sets (hsets : Sets q (outcome st (pre.lookup p) (w.fs.find q)) st.inPlace w w')
      (hmode : ∀ f loc, pre.lookup p = some f → f.fmt = .lnk → st.permissions = true →
        ¬LeadsTo w.fs q (restored f) loc)
  | through {f : Inode} {loc : Path} {m : Node} {w₁ : World} (hf : pre.lookup p = some f)
      (hlnk : f.fmt = .lnk) (hperm : st.permissions = true) (hplace : st.inPlace = false)
      (hsets : Sets q (outcome st (pre.lookup p) (w.fs.find q)) false w w₁)
      (hlead : LeadsTo w.fs q (restored f) loc) (hm : w₁.fs.find loc = some m)
      (hset : Sets loc (some (m.chmod f.perm)) true w₁ w')

/-- The place a symlink leads to is one. -/
theorem LeadsTo.resolve {fs fs' : Fs} {q loc : Path} {link : Node} (h : LeadsTo fs q link loc)
    (hfind : fs'.find = Function.update fs.find q (some link)) :
    Snapper.resolve fs' true (pathName q) = .ok loc ∧ (fs'.find loc).isSome := by
  obtain ⟨fs'', hfind', hres, hsome⟩ := h
  have hsame : fs'.find = fs''.find := hfind.trans hfind'.symm
  have hext : Extends fs'' fs' := by
    intro r n hn
    exact ⟨n, by rw [hsame, hn], rfl, fun _ => rfl⟩
  exact ⟨resolve_mono hext (Or.inr hsome) hres, by rw [hsame]; exact hsome⟩

theorem LeadsTo.unique {fs : Fs} {q loc loc' : Path} {link : Node} (h : LeadsTo fs q link loc)
    (h' : LeadsTo fs q link loc') : loc = loc' := by
  obtain ⟨fs', hfind, hres, _⟩ := h
  have hres' := (h'.resolve hfind).1
  rw [hres] at hres'
  exact Except.ok.inj hres'

/-- A symlink does not lead to itself. -/
theorem LeadsTo.ne {fs : Fs} {q loc : Path} {link : Node} (h : LeadsTo fs q link loc)
    (hlnk : link.fmt = .lnk) : loc ≠ q := by
  obtain ⟨fs', hfind, hres, _⟩ := h
  intro hloc
  have hnot := resolve_follow hres
  simp [Fs.isLnk, hloc, hfind, hlnk] at hnot

section Effect

variable {pre post : Tree} {p q : Path} {st : Status} {w w' : World}

theorem StepEffect.faults (h : StepEffect pre p q st w w') : w'.faults = w.faults := by
  cases h with
  | sets hsets _ => exact hsets.faults
  | through _ _ _ _ hsets _ _ hset => exact hset.faults.trans hsets.faults

/-- A step that changes a file in place finds it, and the pre tree has one there. -/
theorem exists_of_inPlace (hst : diffStatus (pre.lookup p) (post.lookup p) = some st) {fs : Fs}
    (hpost : fs.kind q = post.kind p) (hplace : st.inPlace = true) :
    ∃ f n, pre.lookup p = some f ∧ fs.find q = some n := by
  unfold Tree.kind at hpost
  -- a file of one tree only is created or deleted
  cases hf : pre.lookup p with
  | none =>
    rw [hf, diffStatus_none_left] at hst
    rw [hst.2] at hplace
    cases hplace
  | some f =>
    cases hg : post.lookup p with
    | none =>
      rw [hg, diffStatus_none_right] at hst
      rw [hst.2] at hplace
      cases hplace
    | some g =>
      rw [hg] at hpost
      obtain ⟨n, hn, _⟩ : ∃ n, fs.find q = some n ∧ n.fmt = g.fmt :=
        Option.map_eq_some_iff.mp hpost
      exact ⟨f, n, rfl, hn⟩

/-- A change in place leaves what has to do with neither modes nor owners. -/
theorem outcome_inPlace {β : Type} {g : Node → β} (hmode : ∀ n mode, g (n.chmod mode) = g n)
    (howner : ∀ n owner group, g (n.chown owner group) = g n) {f : Inode} {n : Node}
    (hplace : st.inPlace = true) :
    (outcome st (some f) (some n)).map g = some (g n) := by
  obtain ⟨⟨⟨-, -⟩, htype⟩, hcontent⟩ :
      ((st.created = false ∧ st.deleted = false) ∧ st.type = false) ∧ st.content = false := by
    simpa [Status.inPlace] using hplace
  refine congrArg some ?_
  unfold modified replaced
  rw [htype, hcontent]
  cases st.permissions <;> cases st.user || st.group <;> simp [hmode, howner]

/-- The effect of a step on anything but modes and owners. -/
theorem StepEffect.map {β : Type} (h : StepEffect pre p q st w w') {g : Node → β}
    (hmode : ∀ n mode, g (n.chmod mode) = g n)
    (howner : ∀ n owner group, g (n.chown owner group) = g n)
    (hst : diffStatus (pre.lookup p) (post.lookup p) = some st)
    (hpost : w.fs.kind q = post.kind p) (r : Path) :
    (w'.fs.find r).map g =
      if r = q then (outcome st (pre.lookup p) (w.fs.find q)).map g
      else (w.fs.find r).map g := by
  cases h with
  | sets hsets _ =>
    refine hsets.map (fun hplace => ?_) r
    obtain ⟨f, n, hf, hn⟩ := exists_of_inPlace hst hpost hplace
    rw [hf, hn]
    exact outcome_inPlace hmode howner hplace
  | @through f loc m w₁ _ _ _ _ hsets _ hm hset =>
    have hsame := hset.map (g := g) (fun _ => by rw [hm]; exact congrArg some (hmode m f.perm)) r
    rw [hsame, ← hsets.map (g := g) (fun hplace => by cases hplace) r]
    -- the file that the symlink leads to gets another mode, which does not count
    by_cases hr : r = loc
    · rw [if_pos hr, hr, hm]
      exact congrArg some (hmode m f.perm)
    · rw [if_neg hr]

/-- What a step leaves has the type of the file in the pre tree. -/
theorem outcome_kind (hst : diffStatus (pre.lookup p) (post.lookup p) = some st) {fs : Fs}
    (hpost : fs.kind q = post.kind p) :
    (outcome st (pre.lookup p) (fs.find q)).map (fun n => n.fmt) = pre.kind p := by
  unfold Tree.kind at hpost ⊢
  cases hf : pre.lookup p with
  | none => rfl
  | some f =>
    cases hg : post.lookup p with
    | none =>
      rw [hg] at hpost
      rw [Fs.kind_eq_none.mp hpost]
      rfl
    | some g =>
      -- in both trees: with TYPE the file is replaced, without it the types are equal
      rw [hf, hg, diffStatus] at hst
      split_ifs at hst
      rw [hg] at hpost
      obtain ⟨n, hn, hfmt⟩ : ∃ n, fs.find q = some n ∧ n.fmt = g.fmt :=
        Option.map_eq_some_iff.mp hpost
      rw [hn]
      refine congrArg some ?_
      have hreplaced : (replaced st f n).fmt = f.fmt := by
        unfold replaced
        cases htype : st.type with
        | true => rfl
        | false => exact hfmt.trans (fmt_eq_of_type (Option.some.inj hst).symm htype).symm
      unfold modified
      cases st.content <;> cases st.permissions <;> cases st.user || st.group <;>
        simp [restored, hreplaced]

end Effect

section Step

variable {pre post : PlainTree} {paths : FilePaths} {file : File} {p q : Path} {w : World}

/-- The modes of a restored symlink and of its file in the pre tree are all set. -/
theorem modified_link {st : Status} {f : Inode} (hreal : f.Real) (hlnk : f.fmt = .lnk) :
    modified st f (restored f) = restored f := by
  have hperm : f.perm = S_IRWXUGO := by
    rw [Inode.Real, hlnk] at hreal
    exact hreal.2
  have hclear : clearIds S_IRWXUGO = S_IRWXUGO := by decide
  have hchmod : (restored f).chmod f.perm = restored f := by
    simp [restored, Node.chmod, hlnk, hperm, hclear]
  unfold modified
  simp only [ite_self, hchmod, chown_restored_link hreal hlnk]

/-- What one `File::doUndo` sets at its path is the effect of the step: the inode there is the
outcome that the status asks for, and only the other names of a file that is kept change with it.
-/
theorem StepEffect.of_run {b kept : Bool} {w' : World} {node : Option Node}
    (hrun : (file.doUndo paths).run w = (b, w')) (hsets : Sets q node kept w w')
    (hplace : file.preToPostStatus.inPlace = kept)
    (hnode : outcome file.preToPostStatus (pre.root.lookup p) (w.fs.find q) = node)
    (hmode : ∀ f, pre.root.lookup p = some f → f.fmt = .lnk →
      file.preToPostStatus.permissions = false) :
    StepEffect pre.root p q file.preToPostStatus w (undoFile paths w file) := by
  refine .sets ?_ fun f loc hf hlnk hperm => ?_
  · rw [hnode, hplace, undoFile, hrun]
    exact hsets
  · rw [hmode f hf hlnk] at hperm
    cases hperm

/-- One step of an undo, on a file of the type it has in the post tree. -/
theorem undoFile_effect (hpaths : paths.pre = pre.root) (hnames : Names paths file p q)
    (hw : w.faults = []) (hq : Literal w.fs q) (hparent : q.dropLast ≠ [])
    (hdiff : Differs pre.root post.root p file.preToPostStatus)
    (hpost : w.fs.kind q = post.root.kind p)
    (hempty : (∀ f, pre.root.lookup p = some f → f.fmt ≠ .dir) → w.fs.hasChild q = false) :
    StepEffect pre.root p q file.preToPostStatus w (undoFile paths w file) := by
  obtain ⟨_, _, hst⟩ := hdiff
  cases hf : pre.root.lookup p with
  | none =>
    cases hg : post.root.lookup p with
    | none =>
      rw [hf, hg] at hst
      cases hst
    | some g =>
      -- a created file is deleted
      rw [hf, hg] at hst
      rw [Tree.kind, hg] at hpost
      obtain ⟨n, hn, hfmt⟩ : ∃ n, w.fs.find q = some n ∧ n.fmt = g.fmt :=
        Option.map_eq_some_iff.mp hpost
      have hdel : Deletable w.fs q n := by
        refine ⟨?_, fun _ => hempty (by simp [hf])⟩
        rw [hfmt]
        exact post.ordinary hg
      obtain ⟨w', hrun, hsets⟩ := doUndo_created hnames hw hq hn hdel (Option.some.inj hst).symm
      have hst : file.preToPostStatus = .CREATED := (Option.some.inj hst).symm
      refine StepEffect.of_run hrun hsets (by rw [hst]; rfl) (by rw [hf]; rfl) fun f hf' => ?_
      rw [hf] at hf'
      cases hf'
  | some f =>
    have hreal := pre.real hf
    have hord := pre.ordinary hf
    have hf' : paths.pre.lookup p = some f := hpaths ▸ hf
    cases hg : post.root.lookup p with
    | none =>
      -- a deleted file is created
      rw [hf, hg] at hst
      rw [Tree.kind, hg] at hpost
      have hn := Fs.kind_eq_none.mp hpost
      have hst : file.preToPostStatus = .DELETED := (Option.some.inj hst).symm
      obtain ⟨w', hrun, hsets⟩ := doUndo_deleted hnames hw hq hparent hn hf' hreal hord hst
      refine StepEffect.of_run hrun hsets (by rw [hst]; rfl) (by rw [hf, hn]; rfl) fun _ _ _ => ?_
      rw [hst]
      rfl
    | some g =>
      rw [hf, hg, diffStatus] at hst
      split_ifs at hst
      have hst : file.preToPostStatus = cmpFiles f g := (Option.some.inj hst).symm
      have hgreal := post.real hg
      rw [Tree.kind, hg] at hpost
      obtain ⟨n, hn, hfmt⟩ : ∃ n, w.fs.find q = some n ∧ n.fmt = g.fmt :=
        Option.map_eq_some_iff.mp hpost
      have hnord : n.fmt.Ordinary := hfmt ▸ post.ordinary hg
      have hboth : file.preToPostStatus.Both := hst ▸ cmpFiles_both f g
      have htype : file.preToPostStatus.type = true → Deletable w.fs q n := by
        intro ht
        rw [hst, cmpFiles_type] at ht
        refine ⟨hnord, fun hdir => hempty ?_⟩
        intro f' hf'' hdir'
        rw [hf] at hf''
        cases hf''
        exact ht (hdir'.trans (hdir.symm.trans hfmt))
      by_cases hlink : f.fmt = .lnk ∧ file.preToPostStatus.permissions = true
      · -- the mode of the restored symlink goes elsewhere
        obtain ⟨hlnk, hperm⟩ := hlink
        have ht : file.preToPostStatus.type = true := by
          rw [hst] at hperm ⊢
          exact type_of_link_mode hreal hgreal hlnk hperm
        obtain ⟨b, w₁, w', hsets₁, hrun, hchmod⟩ := doUndo_link_mode hnames hw hq hparent hn hf'
          hreal hlnk hboth ht (htype ht) hperm
        have hnode : outcome file.preToPostStatus (pre.root.lookup p) (w.fs.find q) =
            some (restored f) := by
          rw [hf, hn]
          simp only [outcome, replaced, if_pos ht, modified_link hreal hlnk]
        have hundo : undoFile paths w file = w' := by rw [undoFile, hrun]
        have hplace : file.preToPostStatus.inPlace = false := by
          rw [hboth.inPlace_eq, ht]
          rfl
        rw [hundo]
        obtain ⟨loc, m, hres, hm, hsets⟩ | ⟨hnone, hsets⟩ := hchmod
        · refine .through hf hlnk hperm hplace (hnode ▸ hsets₁) ⟨w₁.fs, hsets₁.find, hres,
            ?_⟩ hm hsets
          rw [hm]
          rfl
        · rw [← hnode, ← hplace] at hsets
          refine .sets hsets fun f' loc hf'' _ _ hlead => ?_
          rw [hf] at hf''
          cases hf''
          obtain ⟨hres, hsome⟩ := hlead.resolve hsets₁.find
          rw [hnone loc hres] at hsome
          cases hsome
      · have hcontent : file.preToPostStatus.content = true →
            Deletable w.fs q n ∧ (f.fmt = .reg ∨ f.fmt = .lnk) := by
          intro hc
          rw [hst] at hc
          obtain ⟨hfg, hor⟩ := content_fmt hc
          refine ⟨⟨hnord, fun hdir => ?_⟩, hor⟩
          rw [hfmt, ← hfg] at hdir
          rw [hdir] at hor
          cases hor <;> contradiction
        obtain ⟨w', hrun, hsets⟩ := doUndo_changed hnames hw hq hparent hn hf' hreal hboth
          (fun ht => ⟨htype ht, hord⟩)
          (fun ht => by rw [hfmt, ← fmt_eq_of_type hst ht])
          hcontent (fun hperm hlnk => hlink ⟨hlnk, hperm⟩)
        refine StepEffect.of_run hrun hsets rfl (by rw [hf, hn]; rfl) fun f' hf'' hlnk => ?_
        rw [hf] at hf''
        cases hf''
        exact Bool.eq_false_iff.mpr fun hperm => hlink ⟨hlnk, hperm⟩

end Step

end Snapper
