import Snapper.System.Found
import Snapper.Undo.Linked
import Snapper.Undo.Mounted

/-!
# Mode and ownership after a complete undo

Names of one file that are undone in place share what becomes of it, so that their modes and
owners are restored only where they agree in the pre tree; then the owners are.  The modes are
not, for two reasons: `createFile` sets the mode before the owner, and so does `modifyAllTypes`,
so that set-user-ID and set-group-ID of a regular file are cleared again; and the mode of a
restored symlink goes to the file the symlink leads to.

## Main results

- `KeepsModes`: the step does neither
- `undo_restores_rights_iff`: modes and owners are restored exactly by the runs of such steps on a
  system whose names agree
-/

namespace Snapper

open General

/-- `lstat` shows the mode and the owner of the pre tree for every reported path of it. -/
def RightsRestored (pre post : Tree) (sub : Path) (fs : Fs) : Prop :=
  ∀ p st f, Differs pre post p st → pre.lookup p = some f →
    (fs.stat false (pathName (sub ++ p))).map Node.rights = .ok f.rights

/-- The undo of an entry with this status sets the mode, whatever it was. -/
def Status.setsMode (st : Status) : Bool :=
  st.deleted || st.type || st.content || st.permissions

/-- The last call that sets the mode comes after the last one that clears bits of it. -/
def Status.modeLast (st : Status) : Bool := st.permissions && !(st.user || st.group)

/-- The undo of an entry with this status sets the owner, whatever it was. -/
def Status.setsOwner (st : Status) : Bool :=
  st.deleted || st.type || st.content || st.user || st.group

/-- The mode of the file survives the change of the owner. -/
def OwnMode (f : Inode) (st : Status) : Prop :=
  f.fmt = .reg → clearIds f.perm = f.perm ∨ st.modeLast = true

/-- The step of an entry comes after that of `file`, and it sets the mode of the file at `p`: the
entry is that of `p`, or the path of the entry is a name of the same file and it is undone in
place. -/
def SetLater (pre post : Tree) (sub : Path) (fs : Fs) (file : File) (p : Path) : Prop :=
  ∃ s st, Differs pre post s st ∧
    UndoBefore file { name := pathName s, preToPostStatus := st, undo := true } ∧
      (s = p ∧ st.setsMode = true ∨
        fs.Linked (sub ++ p) (sub ++ s) ∧ st.inPlace = true ∧ st.permissions = true)

/-- The condition on a step, in the state before it. -/
structure KeepsModes (pre post : Tree) (sub : Path) (w : World) (file : File) : Prop where
  /-- The mode of the file itself survives the change of the owner. -/
  own : ∀ f, pre.lookup (components file.name) = some f → OwnMode f file.preToPostStatus
  /-- The mode of a restored symlink lands on a file all of whose reported names have that mode in
  the pre tree, or get their own later. -/
  link : ∀ f loc p' st' f', pre.lookup (components file.name) = some f → f.fmt = .lnk →
    file.preToPostStatus.permissions = true →
    LeadsTo w.fs (sub ++ components file.name) (restored f) loc → w.fs.Linked loc (sub ++ p') →
    Differs pre post p' st' → pre.lookup p' = some f' →
      f'.perm = S_IRWXUGO ∨ SetLater pre post sub w.fs file p'

/-! ## The mode and owner a step leaves -/

/-- Clearing the setuid and setgid bits twice is clearing them once. -/
theorem clearIds_clearIds (mode : BitVec 12) : clearIds (clearIds mode) = clearIds mode := by
  -- clearing keeps the bit that decides what to clear
  have hkeep : ∀ mask : BitVec 12, mask &&& S_IXGRP = S_IXGRP →
      mode &&& mask &&& S_IXGRP = mode &&& S_IXGRP := by
    intro mask hmask
    rw [BitVec.and_assoc, hmask]
  unfold clearIds
  by_cases hexec : mode &&& S_IXGRP ≠ 0
  · rw [if_pos hexec, hkeep _ (by decide), if_pos hexec, BitVec.and_assoc, BitVec.and_self]
  · rw [if_neg hexec, hkeep _ (by decide), if_neg hexec, BitVec.and_assoc, BitVec.and_self]

theorem clearIds_IRWXUGO : clearIds S_IRWXUGO = S_IRWXUGO := by decide

section Outcome

variable {f g : Inode} {g? : Option Inode} {n? : Option Node} {m n : Node} {st : Status}

theorem clearIds_of_link (hreal : f.Real) (hlnk : f.fmt = .lnk) : clearIds f.perm = f.perm := by
  rw [Inode.Real, hlnk] at hreal
  rw [hreal.2]
  exact clearIds_IRWXUGO

/-- The mode that the last call that may clear bits of it finds. -/
def modeSet (st : Status) (f : Inode) (n : Node) : BitVec 12 :=
  if st.setsMode then f.perm else n.perm

/-- The mode after modifying a file. -/
theorem modified_perm (hboth : st.Both) (hne : st ≠ .zero)
    (hfmt : st.type = false → n.fmt = f.fmt) :
    (modified st f (replaced st f n)).perm =
      if f.fmt = .dir ∨ st.modeLast = true then modeSet st f n else clearIds (modeSet st f n) := by
  obtain ⟨c, d, t, k, p, u, g⟩ := st
  obtain ⟨hc, hd, _⟩ := hboth
  simp only at hc hd hfmt
  subst hc hd
  have hidem := clearIds_clearIds f.perm
  cases t <;> cases k <;> cases p <;> cases u <;> cases g <;> by_cases hdir : f.fmt = .dir <;>
    simp_all [modified, replaced, restored, Node.chmod, Node.chown, modeSet, Status.setsMode,
      Status.modeLast, Status.zero]

/-- The cases of a step on a file of the pre tree. -/
theorem outcome_cases (hst : diffStatus (some f) g? = some st)
    (hkind : n?.map (fun n => n.fmt) = g?.map fun g => g.fmt) :
    n? = none ∧ st = .DELETED ∨
      ∃ g n, g? = some g ∧ n? = some n ∧ n.fmt = g.fmt ∧ st = cmpFiles f g ∧ st ≠ .zero := by
  cases g? with
  | none => exact Or.inl ⟨Option.map_eq_none_iff.mp hkind, (Option.some.inj hst).symm⟩
  | some g =>
    obtain ⟨n, hn, hfmt⟩ : ∃ n, n? = some n ∧ n.fmt = g.fmt := Option.map_eq_some_iff.mp hkind
    rw [diffStatus] at hst
    split_ifs at hst with hne
    have hst : st = cmpFiles f g := (Option.some.inj hst).symm
    exact Or.inr ⟨g, n, rfl, hn, hfmt, hst, hst ▸ hne⟩

/-- The mode after a step that sets it. -/
theorem outcome_perm (hst : diffStatus (some f) g? = some st)
    (hkind : n?.map (fun n => n.fmt) = g?.map fun g => g.fmt) (hsets : st.setsMode = true)
    (hm : outcome st (some f) n? = some m) :
    m.perm = if f.fmt = .dir ∨ st.modeLast = true then f.perm else clearIds f.perm := by
  obtain ⟨rfl, rfl⟩ | ⟨g, n, rfl, rfl, hfmt, rfl, hne⟩ := outcome_cases hst hkind
  · obtain rfl := Option.some.inj hm
    simp [restored, Status.modeLast, Status.DELETED]
  · obtain rfl := Option.some.inj hm
    have hperm := modified_perm (cmpFiles_both f g) hne fun ht =>
      hfmt.trans (fmt_eq_of_type rfl ht).symm
    rwa [modeSet, if_pos hsets] at hperm

/-- The mode after a step that does not set it. -/
theorem outcome_perm_of_not_sets (hst : diffStatus (some f) g? = some st)
    (hkind : n?.map (fun n => n.fmt) = g?.map fun g => g.fmt) (hsets : st.setsMode = false)
    (hm : outcome st (some f) n? = some m) :
    ∃ n, n? = some n ∧ m.perm = if f.fmt = .dir then n.perm else clearIds n.perm := by
  obtain ⟨rfl, rfl⟩ | ⟨g, n, rfl, rfl, hfmt, rfl, hne⟩ := outcome_cases hst hkind
  · cases hsets
  · obtain rfl := Option.some.inj hm
    have hperm := modified_perm (cmpFiles_both f g) hne fun ht =>
      hfmt.trans (fmt_eq_of_type rfl ht).symm
    have hlast : (cmpFiles f g).modeLast = false := by
      simp only [Status.setsMode, Bool.or_eq_false_iff] at hsets
      simp [Status.modeLast, hsets.2]
    refine ⟨n, rfl, ?_⟩
    simpa [modeSet, hsets, hlast] using hperm

/-- After a modification the owner is the one of the pre-snapshot: `chown` sets it when user or
group differ or the inode is new, and otherwise it was the same before. -/
theorem modified_owner
    (hsame : (st.type || st.content || st.user || st.group) = false →
      n.uid = f.uid ∧ n.gid = f.gid) :
    (modified st f (replaced st f n)).uid = f.uid ∧
      (modified st f (replaced st f n)).gid = f.gid := by
  unfold modified replaced
  cases howner : st.user || st.group with
  | true => exact ⟨rfl, rfl⟩
  | false =>
    rw [Bool.or_assoc, howner, Bool.or_false] at hsame
    revert hsame
    -- what has been created has its owner
    cases st.type <;> cases st.content <;> cases st.permissions <;> intro hsame <;>
      first
        | exact hsame rfl
        | exact ⟨rfl, rfl⟩

/-- The owner after a step. -/
theorem outcome_owner (hst : diffStatus (some f) g? = some st)
    (hkind : n?.map (fun n => n.fmt) = g?.map fun g => g.fmt)
    (hsame : st.setsOwner = false → ∀ n, n? = some n → n.uid = f.uid ∧ n.gid = f.gid)
    (hm : outcome st (some f) n? = some m) : m.uid = f.uid ∧ m.gid = f.gid := by
  obtain ⟨rfl, rfl⟩ | ⟨g, n, rfl, rfl, hfmt, rfl, hne⟩ := outcome_cases hst hkind
  · obtain rfl := Option.some.inj hm
    exact ⟨rfl, rfl⟩
  · obtain rfl := Option.some.inj hm
    refine modified_owner fun hnone => hsame ?_ n rfl
    rw [Status.setsOwner, (cmpFiles_both f g).not_deleted, Bool.false_or]
    exact hnone

end Outcome

/-! ## A point of a complete undo -/

/-- A point of a complete undo of a system whose names agree. -/
structure AgreeingPoint (pre post : PlainTree) (sub : Path) (fs₀ : Fs) (done : List File)
    (w : World) : Prop where
  system : SystemAt fs₀ sub post.root
  agree : NamesAgree pre.root post.root sub fs₀
  halfway : Halfway pre post sub done w
  links : HalfwayLinks pre post sub fs₀ done w

/-- The own step of an entry does not set its mode any more. -/
def Past (done : List File) (p : Path) (st : Status) : Prop :=
  pathName p ∈ done.map File.name ∨ st.setsMode = false

/-- No step for another name of the file sets its mode any more. -/
def NamesPast (pre post : PlainTree) (sub : Path) (fs : Fs) (done : List File) (p : Path) : Prop :=
  ∀ s st, Differs pre.root post.root s st → fs.Linked (sub ++ p) (sub ++ s) → st.inPlace = true →
    st.permissions = true → pathName s ∈ done.map File.name

/-- What a step on the entry of `p'` makes of the mode of a file whose own step does not set it any
more: `n` is what it leaves of the file at `p`, which is `f` in the pre tree. -/
inductive ModeStep (pre : PlainTree) (sub : Path) (done : List File) (file : File) (p' p : Path)
    (st : Status) (f : Inode) (w : World) (n : Node) : Prop where
  | sets (hname : p = p' ∨ st.inPlace = true ∧ w.fs.Linked (sub ++ p) (sub ++ p'))
      (hst : st = file.preToPostStatus) (hsets : st.setsMode = true)
      (hown : (∀ f', pre.root.lookup p' = some f' → OwnMode f' st) → OwnMode f st)
      (hn : n.perm = if f.fmt = .dir ∨ st.modeLast = true then f.perm else clearIds f.perm)
  | clears {m : Node} (hst : st = file.preToPostStatus) (hsets : st.setsMode = false)
      (hown : (∀ f', pre.root.lookup p' = some f' → OwnMode f' st) → OwnMode f st)
      (hm : w.fs.find (sub ++ p) = some m)
      (hn : n.perm = if f.fmt = .dir then m.perm else clearIds m.perm)
  | stays (hp : p ≠ p')
      (hnot : ¬(file.preToPostStatus.inPlace = true ∧ w.fs.Linked (sub ++ p') (sub ++ p)))
      (hm : w.fs.find (sub ++ p) = some n)
  | lands {f' : Inode} {loc : Path} (hp : p ≠ p') (hn : n.perm = S_IRWXUGO)
      (hf' : pre.root.lookup p' = some f') (hlnk : f'.fmt = .lnk)
      (hperm : file.preToPostStatus.permissions = true)
      (hlead : LeadsTo w.fs (sub ++ p') (restored f') loc) (hlinked : w.fs.Linked loc (sub ++ p))

section Run

variable {pre post : PlainTree} {sub : Path} {done rest : List File} {file : File} {w : World}
  {fs₀ : Fs} {p p' : Path} {st st' : Status} {f f' : Inode} {n : Node}

theorem inPlace_of_not_setsMode (hdiff : Differs pre.root post.root p st)
    (hf : pre.root.lookup p = some f) (hsets : st.setsMode = false) : st.inPlace = true := by
  by_contra hplace
  have hnew := new_of_not_inPlace hdiff hf (Bool.eq_false_iff.mpr hplace)
  rw [Status.setsMode, hnew] at hsets
  cases hsets

theorem inPlace_of_not_setsOwner (hdiff : Differs pre.root post.root p st)
    (hf : pre.root.lookup p = some f) (howner : st.setsOwner = false) : st.inPlace = true := by
  by_contra hplace
  have hnew := new_of_not_inPlace hdiff hf (Bool.eq_false_iff.mpr hplace)
  rw [Status.setsOwner, hnew] at howner
  cases howner

/-- An entry that sets the mode in place has a changed mode. -/
theorem permissions_of_inPlace (hplace : st.inPlace = true) (hsets : st.setsMode = true) :
    st.permissions = true := by
  simp only [Status.inPlace, Bool.not_eq_true', Bool.or_eq_false_iff] at hplace
  simpa [Status.setsMode, hplace] using hsets

theorem setsMode_of_permissions (hperm : st.permissions = true) : st.setsMode = true := by
  simp [Status.setsMode, hperm]

/-- Another name of a file that is undone in place has the same status, unless it has got a file of
its own. -/
theorem AgreeingPoint.partner (h : AgreeingPoint pre post sub fs₀ done w)
    (hdiff : Differs pre.root post.root p st) (hf : pre.root.lookup p = some f)
    (hpast : pathName p ∈ done.map File.name ∨ st.inPlace = true)
    (hdiff' : Differs pre.root post.root p' st') (hf' : pre.root.lookup p' = some f')
    (hplace' : st'.inPlace = true) (hne : p ≠ p')
    (hlinked : w.fs.Linked (sub ++ p) (sub ++ p')) :
    st.inPlace = true ∧ st = st' ∧ f.rights = f'.rights ∧ f.fmt = f'.fmt := by
  have hne' : sub ++ p ≠ sub ++ p' := fun heq => hne (List.append_cancel_left heq)
  have hplace : st.inPlace = true := by
    by_contra hplace
    have hdone := hpast.resolve_right hplace
    exact h.links.alone hdiff (Bool.eq_false_iff.mpr hplace) hdone hne'.symm hlinked
  exact ⟨hplace,
    h.agree.same h.system hdiff hdiff' hplace hplace' (h.links.old hne' hlinked) hf hf'⟩

/-! ## Owners -/

/-- What is done has the owner of the pre tree, and so has what no step sets the owner of. -/
def HalfwayOwner (pre post : PlainTree) (sub : Path) (done : List File) (w : World) : Prop :=
  ∀ p st f n, Differs pre.root post.root p st → pre.root.lookup p = some f →
    w.fs.find (sub ++ p) = some n → (pathName p ∈ done.map File.name ∨ st.setsOwner = false) →
      n.uid = f.uid ∧ n.gid = f.gid

/-- A step keeps the invariant of the owners: a path whose step is past, or whose status does not
set the owner, has the owner of the pre tree. -/
theorem owner_step (hsub : sub ≠ []) (hvalid : ∀ n ∈ sub, ValidName n)
    (horder : undoOrder (allMarked pre post) = done ++ file :: rest)
    (h : AgreeingPoint pre post sub fs₀ done w) (howner : HalfwayOwner pre post sub done w) :
    HalfwayOwner pre post sub (done ++ [file]) (undoFile (undoPaths pre.root sub) w file) := by
  intro p st f n hdiff hf hn hpast
  obtain ⟨p₁, hname, hdiff₁⟩ := exists_differs_of_mem (mem_allMarked horder)
  have hkind := h.halfway.kind_post horder hname
  have hbefore : p ≠ p₁ → pathName p ∈ done.map File.name ∨ st.setsOwner = false := by
    intro hne
    refine hpast.imp_left fun hdone => ?_
    exact ((mem_done_step_iff hname hdiff₁ hdiff.valid).mp hdone).resolve_right hne
  obtain ⟨hset, hpath | ⟨hne, hplace, hlinked⟩⟩ | ⟨hsame, hne, _⟩ |
      ⟨f', loc, m, _, _, _, hne, _, _, hm, hlands⟩ :=
    (h.halfway.effect hsub hvalid horder hname hdiff₁).find_cases (sub ++ p)
  · -- the file of the step
    obtain rfl := List.append_cancel_left hpath
    obtain rfl := status_unique hdiff hdiff₁
    have hst := hdiff.2.2
    rw [hf] at hst hset
    refine outcome_owner hst hkind (fun hsets n hn => ?_) (hset.symm.trans hn)
    exact howner p _ f n hdiff hf hn (Or.inr hsets)
  · -- another name of the file of the step
    have hne' : p ≠ p₁ := fun heq => hne (by rw [heq])
    obtain ⟨f₁, n₁, hf₁, hn₁⟩ := exists_of_inPlace hdiff₁.2.2 hkind hplace
    obtain ⟨_, hst, hrights, _⟩ := h.partner hdiff hf
      ((hbefore hne').imp_right (inPlace_of_not_setsOwner hdiff hf)) hdiff₁ hf₁ hplace hne'
      hlinked.symm
    obtain ⟨_, huid, hgid⟩ : f.perm = f₁.perm ∧ f.uid = f₁.uid ∧ f.gid = f₁.gid := by
      simpa [Inode.rights] using hrights
    have hst₁ := hdiff₁.2.2
    rw [hf₁] at hst₁ hset
    rw [huid, hgid]
    refine outcome_owner hst₁ hkind (fun hsets n hn => ?_) (hset.symm.trans hn)
    rw [← huid, ← hgid]
    rw [← hlinked.find] at hn
    exact howner p _ f n hdiff hf hn (Or.inr (hst ▸ hsets))
  · exact howner p st f n hdiff hf (hsame ▸ hn) (hbefore fun heq => hne (by rw [heq]))
  · have hold := howner p st f m hdiff hf hm (hbefore fun heq => hne (by rw [heq]))
    rw [hn] at hlands
    rw [Option.some.inj hlands]
    exact hold

/-! ## Modes -/

/-- The four ways in which a step can change the mode at a path, of its own file or of another
one. -/
theorem modeStep (hsub : sub ≠ []) (hvalid : ∀ n ∈ sub, ValidName n)
    (horder : undoOrder (allMarked pre post) = done ++ file :: rest)
    (h : AgreeingPoint pre post sub fs₀ done w) (hname : file.name = pathName p')
    (hdiff' : Differs pre.root post.root p' file.preToPostStatus)
    (hdiff : Differs pre.root post.root p st) (hf : pre.root.lookup p = some f)
    (hn : (undoFile (undoPaths pre.root sub) w file).fs.find (sub ++ p) = some n)
    (hpast : Past (done ++ [file]) p st) : ModeStep pre sub done file p' p st f w n := by
  have hkind := h.halfway.kind_post horder hname
  have hbefore : p ≠ p' → Past done p st := by
    intro hne
    refine hpast.imp_left fun hdone => ?_
    exact ((mem_done_step_iff hname hdiff' hdiff.valid).mp hdone).resolve_right hne
  obtain ⟨hset, hpath | ⟨hne, hplace, hlinked⟩⟩ | ⟨hsame, hne, hnot⟩ |
      ⟨f', loc, m, hf', hlnk, hperm, hne, hlead, hlinked, _, hlands⟩ :=
    (h.halfway.effect hsub hvalid horder hname hdiff').find_cases (sub ++ p)
  · -- the file of the step
    obtain rfl := List.append_cancel_left hpath
    obtain rfl := status_unique hdiff hdiff'
    have hst := hdiff.2.2
    rw [hf] at hst hset
    have hown : (∀ f', pre.root.lookup p = some f' → OwnMode f' file.preToPostStatus) →
        OwnMode f file.preToPostStatus := fun h => h f hf
    cases hsets : file.preToPostStatus.setsMode with
    | true =>
      exact .sets (Or.inl rfl) rfl hsets hown (outcome_perm hst hkind hsets (hset.symm.trans hn))
    | false =>
      obtain ⟨m, hm, hperm⟩ := outcome_perm_of_not_sets hst hkind hsets (hset.symm.trans hn)
      exact .clears rfl hsets hown hm hperm
  · -- another name of the file of the step, which has the same mode in the pre tree
    have hne' : p ≠ p' := fun heq => hne (by rw [heq])
    obtain ⟨f₁, n₁, hf₁, hn₁⟩ := exists_of_inPlace hdiff'.2.2 hkind hplace
    obtain ⟨hplace', rfl, hrights, hfmt⟩ := h.partner hdiff hf
      ((hbefore hne').imp_right (inPlace_of_not_setsMode hdiff hf)) hdiff' hf₁ hplace hne'
      hlinked.symm
    have hperm : f.perm = f₁.perm := congrArg Prod.fst hrights
    have hst := hdiff'.2.2
    rw [hf₁] at hst hset
    have hown : (∀ f', pre.root.lookup p' = some f' → OwnMode f' file.preToPostStatus) →
        OwnMode f file.preToPostStatus := by
      intro h hreg
      rw [hperm]
      exact h f₁ hf₁ (hfmt ▸ hreg)
    cases hsets : file.preToPostStatus.setsMode with
    | true =>
      refine .sets (Or.inr ⟨hplace, hlinked.symm⟩) rfl hsets hown ?_
      rw [hperm, hfmt]
      exact outcome_perm hst hkind hsets (hset.symm.trans hn)
    | false =>
      obtain ⟨m, hm, hmperm⟩ := outcome_perm_of_not_sets hst hkind hsets (hset.symm.trans hn)
      refine .clears rfl hsets hown (hlinked.find.trans hm) ?_
      rw [hfmt]
      exact hmperm
  · exact .stays (fun heq => hne (by rw [heq])) hnot (hsame ▸ hn)
  · have hreal := pre.real hf'
    rw [Inode.Real, hlnk] at hreal
    rw [hn] at hlands
    refine .lands (fun heq => hne (by rw [heq])) ?_ hf' hlnk hperm hlead hlinked
    rw [Option.some.inj hlands]
    exact hreal.2

/-- A step comes after the last one done. -/
theorem not_before_of_done (horder : undoOrder (allMarked pre post) = done ++ file :: rest)
    (hname : file.name = pathName p') (hdiff' : Differs pre.root post.root p' file.preToPostStatus)
    (hdiff : Differs pre.root post.root p st)
    (hlater : UndoBefore file { name := pathName p, preToPostStatus := st, undo := true }) :
    pathName p ∉ (done ++ [file]).map File.name := by
  intro hdone
  obtain hdone | rfl := (mem_done_step_iff hname hdiff' hdiff.valid).mp hdone
  · exact hlater.asymm (before_of_differs horder hdiff hdone)
  · obtain rfl := status_unique hdiff hdiff'
    have hself : UndoBefore file file := by
      unfold UndoBefore at hlater ⊢
      simpa only [hname] using hlater
    exact hself.asymm hself

/-- The names of a file that a step leaves alone are those it has afterwards. -/
theorem AgreeingPoint.linked_of_before (hsub : sub ≠ []) (hvalid : ∀ n ∈ sub, ValidName n)
    (horder : undoOrder (allMarked pre post) = done ++ file :: rest)
    (h : AgreeingPoint pre post sub fs₀ done w) (hname : file.name = pathName p')
    (hdiff' : Differs pre.root post.root p' file.preToPostStatus) {s : Path}
    (hn : (undoFile (undoPaths pre.root sub) w file).fs.find (sub ++ p) = some n)
    (hp : p ≠ p') (hs : s ≠ p') (hlinked : w.fs.Linked (sub ++ p) (sub ++ s)) :
    (undoFile (undoPaths pre.root sub) w file).fs.Linked (sub ++ p) (sub ++ s) := by
  by_cases hps : p = s
  · rw [← hps]
    exact Fs.linked_self hn
  · have heffect := h.halfway.effect hsub hvalid horder hname hdiff'
    refine (heffect.linked_iff (fun heq => hps (List.append_cancel_left heq)) ?_).mpr hlinked
    rintro (heq | heq)
    · exact absurd (List.append_cancel_left heq) hp
    · exact absurd (List.append_cancel_left heq) hs

/-! ## Runs that keep the modes -/

/-- Files whose mode no step sets any more, under none of their names, have the mode of the pre
tree. -/
def HalfwayMode (pre post : PlainTree) (sub : Path) (done : List File) (w : World) : Prop :=
  ∀ p st f n, Differs pre.root post.root p st → pre.root.lookup p = some f →
    w.fs.find (sub ++ p) = some n → Past done p st → NamesPast pre post sub w.fs done p →
      n.perm = f.perm

/-- The invariant of the modes is kept by a step that meets `KeepsModes`. The entry itself gets
the mode of the pre-snapshot, and a done entry that shares its inode is only written with the same
mode. -/
theorem mode_step (hsub : sub ≠ []) (hvalid : ∀ n ∈ sub, ValidName n)
    (horder : undoOrder (allMarked pre post) = done ++ file :: rest)
    (h : AgreeingPoint pre post sub fs₀ done w) (hmode : HalfwayMode pre post sub done w)
    (hkeeps : KeepsModes pre.root post.root sub w file) :
    HalfwayMode pre post sub (done ++ [file]) (undoFile (undoPaths pre.root sub) w file) := by
  intro p st f n hdiff hf hn hpast hnames
  obtain ⟨p', hname, hdiff'⟩ := exists_differs_of_mem (mem_allMarked horder)
  have hpath : components file.name = p' := by rw [hname, hdiff'.components]
  -- a change of the owner leaves the mode of a file alone
  have hkept : st = file.preToPostStatus →
      ((∀ f', pre.root.lookup p' = some f' → OwnMode f' st) → OwnMode f st) → f.fmt ≠ .dir →
      clearIds f.perm = f.perm ∨ st.modeLast = true := by
    intro hst hown hdir
    obtain hd | hreg | hlnk := pre.ordinary hf
    · exact absurd hd hdir
    · refine hown (fun f' hf' => ?_) hreg
      rw [hst]
      exact hkeeps.own f' (by rw [hpath, hf'])
    · exact Or.inl (clearIds_of_link (pre.real hf) hlnk)
  cases modeStep hsub hvalid horder h hname hdiff' hdiff hf hn hpast with
  | sets _ hst _ hown hn =>
    rw [hn]
    split
    · rfl
    · next hnot =>
      rw [not_or] at hnot
      exact (hkept hst hown hnot.1).resolve_right hnot.2
  | @clears m hst hsets hown hm hn =>
    -- no other name of the file has a changed mode either
    have hbefore : NamesPast pre post sub w.fs done p := by
      intro s st' hdiff'' hlinked hplace hperm
      exfalso
      obtain ⟨f₁, g, hf₁, _⟩ := inPlace_files hdiff'' hplace
      have hplace' := inPlace_of_not_setsMode hdiff hf hsets
      have hsame : st = st' := by
        by_cases hps : p = s
        · subst hps
          exact status_unique hdiff hdiff''
        · exact (h.partner hdiff hf (Or.inr hplace') hdiff'' hf₁ hplace hps hlinked).2.1
      rw [hsame, setsMode_of_permissions hperm] at hsets
      cases hsets
    have hm := hmode p st f m hdiff hf hm (Or.inr hsets) hbefore
    rw [hn, hm]
    split
    · rfl
    · next hdir =>
      refine (hkept hst hown hdir).resolve_right ?_
      simp only [Status.setsMode, Bool.or_eq_false_iff] at hsets
      simp [Status.modeLast, hsets.2]
  | stays hp hnot hm =>
    refine hmode p st f n hdiff hf hm ?_ ?_
    · refine hpast.imp_left fun hdone => ?_
      exact ((mem_done_step_iff hname hdiff' hdiff.valid).mp hdone).resolve_right hp
    · intro s st' hdiff'' hlinked hplace hperm
      by_cases hs : s = p'
      · subst hs
        obtain rfl := status_unique hdiff'' hdiff'
        exact absurd ⟨hplace, hlinked.symm⟩ hnot
      · have hlinked' := h.linked_of_before hsub hvalid horder hname hdiff' hn hp hs hlinked
        have hdone := hnames s st' hdiff'' hlinked' hplace hperm
        exact ((mem_done_step_iff hname hdiff' hdiff''.valid).mp hdone).resolve_right hs
  | @lands f' loc hp hn' hf' hlnk hperm hlead hlinked =>
    subst hpath
    obtain hmode' | ⟨s, st', hdiff'', hlater, hsets⟩ :=
      hkeeps.link f' loc p st f hf' hlnk hperm hlead hlinked hdiff hf
    · rw [hn', hmode']
    · -- a step that sets the mode would still come
      exfalso
      have hnotdone := not_before_of_done horder hname hdiff' hdiff'' hlater
      obtain ⟨rfl, hsets⟩ | ⟨hlinked', hplace, hpermissions⟩ := hsets
      · obtain rfl := status_unique hdiff hdiff''
        obtain hdone | hnot := hpast
        · exact hnotdone hdone
        · rw [hsets] at hnot
          cases hnot
      · have hs : s ≠ components file.name := by
          rintro rfl
          exact hnotdone (by rw [← hname]; simp)
        exact hnotdone (hnames s st' hdiff''
          (h.linked_of_before hsub hvalid horder hname hdiff' hn hp hs hlinked') hplace
          hpermissions)

/-! ## Steps that spoil a mode -/

/-- A mode that no step sets can only have lost bits or come from a symlink. -/
def HalfwaySpoilt (pre post : PlainTree) (sub : Path) (w : World) : Prop :=
  ∀ p st f n, Differs pre.root post.root p st → pre.root.lookup p = some f →
    w.fs.find (sub ++ p) = some n → st.setsMode = false →
      n.perm = f.perm ∨ n.perm = clearIds f.perm ∨ n.perm = S_IRWXUGO

/-- The mode of the file at `p` is wrong, and no step will set it to what it was: there is none, or
its bits are cleared again. -/
structure Spoilt (pre post : PlainTree) (sub p : Path) (st : Status) (f : Inode)
    (done : List File) (w : World) : Prop where
  past : Past done p st
  names : NamesPast pre post sub w.fs done p ∨ ¬OwnMode f st
  mode : ∀ n, w.fs.find (sub ++ p) = some n →
    n.perm ≠ f.perm ∧ (n.perm = clearIds f.perm ∨ n.perm = S_IRWXUGO)

/-- A step keeps it that a mode which the own step of an entry does not set is the one of the
pre-snapshot, that one without the setuid and setgid bits, or `S_IRWXUGO`. -/
theorem spoilt_run_step (hsub : sub ≠ []) (hvalid : ∀ n ∈ sub, ValidName n)
    (horder : undoOrder (allMarked pre post) = done ++ file :: rest)
    (h : AgreeingPoint pre post sub fs₀ done w) (hspoilt : HalfwaySpoilt pre post sub w) :
    HalfwaySpoilt pre post sub (undoFile (undoPaths pre.root sub) w file) := by
  intro p st f n hdiff hf hn hsets
  obtain ⟨p', hname, hdiff'⟩ := exists_differs_of_mem (mem_allMarked horder)
  cases modeStep hsub hvalid horder h hname hdiff' hdiff hf hn (Or.inr hsets) with
  | sets _ _ hsets' _ => rw [hsets] at hsets'; cases hsets'
  | @clears m _ _ _ hm hn =>
    have hm := hspoilt p st f m hdiff hf hm hsets
    rw [hn]
    split
    · exact hm
    · obtain hm | hm | hm := hm
      · exact Or.inr (Or.inl (congrArg clearIds hm))
      · exact Or.inr (Or.inl (by rw [hm, clearIds_clearIds]))
      · exact Or.inr (Or.inr (by rw [hm, clearIds_IRWXUGO]))
  | stays _ _ hm => exact hspoilt p st f n hdiff hf hm hsets
  | lands _ hn => exact Or.inr (Or.inr hn)

/-- A wrong mode stays wrong. -/
theorem Spoilt.step (hsub : sub ≠ []) (hvalid : ∀ n ∈ sub, ValidName n)
    (horder : undoOrder (allMarked pre post) = done ++ file :: rest)
    (h : AgreeingPoint pre post sub fs₀ done w) (hdiff : Differs pre.root post.root p st)
    (hf : pre.root.lookup p = some f) (hperm : f.perm ≠ S_IRWXUGO)
    (hspoilt : Spoilt pre post sub p st f done w) :
    Spoilt pre post sub p st f (done ++ [file]) (undoFile (undoPaths pre.root sub) w file) := by
  obtain ⟨p', hname, hdiff'⟩ := exists_differs_of_mem (mem_allMarked horder)
  have hmono : ∀ {name}, name ∈ done.map File.name → name ∈ (done ++ [file]).map File.name := by
    intro name hdone
    rw [List.map_append]
    exact List.mem_append_left _ hdone
  have hpast : Past (done ++ [file]) p st := hspoilt.past.imp_left hmono
  have hnotdone : pathName p' ∉ done.map File.name := by
    rw [← hname]
    exact name_not_mem_done namesAscend_allMarked horder
  refine ⟨hpast, ?_, fun n hn => ?_⟩
  · refine hspoilt.names.imp_left fun hnames s st' hdiff'' hlinked hplace hpermissions => ?_
    by_cases hps : p = s
    · subst hps
      obtain rfl := status_unique hdiff hdiff''
      refine hpast.resolve_right fun hsets => ?_
      rw [setsMode_of_permissions hpermissions] at hsets
      cases hsets
    · have heffect := h.halfway.effect hsub hvalid horder hname hdiff'
      have hold := heffect.linked_of_linked (fun heq => hps (List.append_cancel_left heq)) hlinked
      exact hmono (hnames s st' hdiff'' hold hplace hpermissions)
  · cases modeStep hsub hvalid horder h hname hdiff' hdiff hf hn hpast with
    | sets hsame hst hsets _ hn =>
      obtain rfl | ⟨hplace, hlinked⟩ := hsame
      · -- the own step is past
        exfalso
        obtain hdone | hnot := hspoilt.past
        · exact hnotdone hdone
        · rw [hsets] at hnot
          cases hnot
      · -- the step for another name, which clears the same bits
        have hown : ¬OwnMode f st := by
          refine hspoilt.names.resolve_left fun hnames => hnotdone ?_
          subst hst
          exact hnames p' _ hdiff' hlinked hplace (permissions_of_inPlace hplace hsets)
        simp only [OwnMode, not_forall, not_or] at hown
        obtain ⟨hreg, hclear, hlast⟩ := hown
        rw [if_neg (by simp [hreg, hlast])] at hn
        rw [hn]
        exact ⟨hclear, Or.inl rfl⟩
    | @clears m _ _ _ hm hn =>
      obtain ⟨hne, hm⟩ := hspoilt.mode m hm
      have hclear : clearIds m.perm = m.perm := by
        obtain hm | hm := hm
        · rw [hm, clearIds_clearIds]
        · rw [hm, clearIds_IRWXUGO]
      rw [hn, hclear, ite_self]
      exact ⟨hne, hm⟩
    | stays _ _ hm => exact hspoilt.mode n hm
    | lands _ hn =>
      rw [hn]
      exact ⟨hperm.symm, Or.inr rfl⟩

/-- A step that does not keep the modes spoils one. -/
theorem exists_spoilt (hsub : sub ≠ []) (hvalid : ∀ n ∈ sub, ValidName n)
    (horder : undoOrder (allMarked pre post) = done ++ file :: rest)
    (h : AgreeingPoint pre post sub fs₀ done w) (hspoilt : HalfwaySpoilt pre post sub w)
    (hnot : ¬KeepsModes pre.root post.root sub w file) :
    ∃ p st f, Differs pre.root post.root p st ∧ pre.root.lookup p = some f ∧
      f.perm ≠ S_IRWXUGO ∧
      Spoilt pre post sub p st f (done ++ [file]) (undoFile (undoPaths pre.root sub) w file) := by
  obtain ⟨p', hname, hdiff'⟩ := exists_differs_of_mem (mem_allMarked horder)
  have hpath : components file.name = p' := by rw [hname, hdiff'.components]
  have hdone : pathName p' ∈ (done ++ [file]).map File.name := by simp [hname]
  by_contra hnone
  push Not at hnone
  refine hnot ⟨?_, ?_⟩
  · -- the mode of the file itself
    rw [hpath]
    intro f hf
    by_contra hown
    have hlost := hown
    simp only [OwnMode, not_forall, not_or] at hlost
    obtain ⟨hreg, hclear, hlast⟩ := hlost
    have hperm : f.perm ≠ S_IRWXUGO := by
      intro hperm
      rw [hperm, clearIds_IRWXUGO] at hclear
      exact hclear rfl
    refine hnone p' _ f hdiff' hf hperm ⟨Or.inl hdone, Or.inr hown, fun n hn => ?_⟩
    have hmode : n.perm = clearIds f.perm ∨ n.perm = S_IRWXUGO := by
      cases modeStep hsub hvalid horder h hname hdiff' hdiff' hf hn (Or.inl hdone) with
      | sets _ _ _ _ hn =>
        rw [if_neg (by simp [hreg, hlast])] at hn
        exact Or.inl hn
      | @clears m _ hsets _ hm hn =>
        rw [hn, if_neg (by simp [hreg])]
        obtain hm | hm | hm := hspoilt p' _ f m hdiff' hf hm hsets
        · exact Or.inl (by rw [hm])
        · exact Or.inl (by rw [hm, clearIds_clearIds])
        · exact Or.inr (by rw [hm, clearIds_IRWXUGO])
      | stays hp => exact absurd rfl hp
      | lands hp => exact absurd rfl hp
    refine ⟨fun heq => ?_, hmode⟩
    obtain hn | hn := hmode
    · exact hclear (hn.symm.trans heq)
    · exact hperm (heq.symm.trans hn)
  · -- the mode of a file that a symlink leads to
    rw [hpath]
    intro f loc p st f' hf hlnk hpermissions hlead hlinked hdiff hf'
    by_contra hlost
    rw [not_or] at hlost
    obtain ⟨hperm, hlater⟩ := hlost
    have hreal := pre.real hf
    rw [Inode.Real, hlnk] at hreal
    -- the symlink itself has every mode bit
    have hp : p ≠ p' := by
      rintro rfl
      obtain rfl := Option.some.inj (hf.symm.trans hf')
      exact hperm hreal.2
    have heffect := h.halfway.effect hsub hvalid horder hname hdiff'
    obtain ⟨m, hm⟩ := heffect.find_lead hf hlnk hpermissions hlead
      (fun heq => hp (List.append_cancel_left heq)) hlinked
    refine hnone p st f' hdiff hf' hperm ⟨?_, Or.inl ?_, fun n hn => ?_⟩
    · -- its own step is done or does not set the mode
      by_contra hpast
      rw [Past, not_or, Bool.not_eq_false] at hpast
      exact hlater ⟨p, st, hdiff, before_of_not_mem_done horder hdiff hpast.1,
        Or.inl ⟨rfl, hpast.2⟩⟩
    · -- and so are the steps for its other names
      intro s st' hdiff'' hlinked' hplace hpermissions'
      by_contra hnotdone
      refine hlater ⟨s, st', hdiff'', before_of_not_mem_done horder hdiff'' hnotdone,
        Or.inr ⟨?_, hplace, hpermissions'⟩⟩
      by_cases hps : p = s
      · rw [← hps]
        exact hlinked.symm.trans hlinked
      · exact heffect.linked_of_linked (fun heq => hps (List.append_cancel_left heq)) hlinked'
    · rw [hm] at hn
      obtain rfl := Option.some.inj hn
      show f.perm ≠ f'.perm ∧ _
      rw [hreal.2]
      exact ⟨Ne.symm hperm, Or.inr rfl⟩

end Run

/-! ## The exact condition -/

section Undo

variable {pre post : PlainTree} {sub : Path} {done rest : List File} {w : World}

/-- At every point of the undo the names of an inode agree as they did at the beginning, and the
tree is half done. -/
theorem agreeingPoint_run (hsub : sub ≠ []) (hvalid : ∀ n ∈ sub, ValidName n) (hw : w.faults = [])
    (hsys : SystemAt w.fs sub post.root) (hagree : NamesAgree pre.root post.root sub w.fs)
    (hpoint : undoOrder (allMarked pre post) = done ++ rest) :
    AgreeingPoint pre post sub w.fs done (done.foldl (undoFile (undoPaths pre.root sub)) w) where
  system := hsys
  agree := hagree
  halfway := halfway_run hsub hvalid hw hsys hpoint
  links := links_run hsub hvalid hw hsys hpoint

/-- Where no step sets the owner, the post tree has that of the pre tree. -/
theorem owner_of_systemAt (hsys : SystemAt w.fs sub post.root) {p : Path} {st : Status} {f : Inode}
    {n : Node} (hdiff : Differs pre.root post.root p st) (hf : pre.root.lookup p = some f)
    (hn : w.fs.find (sub ++ p) = some n) (howner : st.setsOwner = false) :
    n.uid = f.uid ∧ n.gid = f.gid := by
  obtain ⟨f₁, g, hf₁, hg, hst, _⟩ := inPlace_files hdiff (inPlace_of_not_setsOwner hdiff hf howner)
  obtain rfl := Option.some.inj (hf.symm.trans hf₁)
  rw [hsys.files, hg] at hn
  obtain rfl := Option.some.inj hn
  rw [hst] at howner
  simp only [Status.setsOwner, Bool.or_eq_false_iff] at howner
  have huser : f.uid = g.uid := by simpa [cmpFiles] using howner.1.2
  have hgroup : f.gid = g.gid := by simpa [cmpFiles] using howner.2
  exact ⟨huser.symm, hgroup.symm⟩

/-- At every point of the undo the entries that are done have the owner of the pre-snapshot. -/
theorem owner_run (hsub : sub ≠ []) (hvalid : ∀ n ∈ sub, ValidName n) (hw : w.faults = [])
    (hsys : SystemAt w.fs sub post.root) (hagree : NamesAgree pre.root post.root sub w.fs)
    (hpoint : undoOrder (allMarked pre post) = done ++ rest) :
    HalfwayOwner pre post sub done (done.foldl (undoFile (undoPaths pre.root sub)) w) := by
  refine foldl_induction (P := HalfwayOwner pre post sub) ?_ ?_ hpoint
  · intro p st f n hdiff hf hn hpast
    exact owner_of_systemAt hsys hdiff hf hn (hpast.resolve_left (by simp))
  · intro done file rest horder howner
    exact owner_step hsub hvalid horder (agreeingPoint_run hsub hvalid hw hsys hagree horder) howner

/-- Where no step sets the mode, the post tree has that of the pre tree. -/
theorem perm_of_systemAt (hsys : SystemAt w.fs sub post.root) {p : Path} {st : Status} {f : Inode}
    {n : Node} (hdiff : Differs pre.root post.root p st) (hf : pre.root.lookup p = some f)
    (hn : w.fs.find (sub ++ p) = some n) (hsets : st.setsMode = false) : n.perm = f.perm := by
  rw [hsys.files] at hn
  obtain ⟨g, hg, rfl⟩ := Option.map_eq_some_iff.mp hn
  have hst := hdiff.2.2
  rw [hf, hg, diffStatus] at hst
  split_ifs at hst
  obtain rfl := Option.some.inj hst
  simp only [Status.setsMode, Bool.or_eq_false_iff] at hsets
  exact (not_not.mp fun hne => Bool.eq_false_iff.mp hsets.2 (cmpFiles_permissions.mpr hne)).symm

/-- When every step keeps the modes the whole undo leaves each entry with the mode of the
pre-snapshot. -/
theorem mode_run (hsub : sub ≠ []) (hvalid : ∀ n ∈ sub, ValidName n) (hw : w.faults = [])
    (hsys : SystemAt w.fs sub post.root) (hagree : NamesAgree pre.root post.root sub w.fs)
    (hrun : Along (KeepsModes pre.root post.root sub) (undoFile (undoPaths pre.root sub))
      (undoOrder (allMarked pre post)) w) :
    HalfwayMode pre post sub (undoOrder (allMarked pre post))
      ((undoOrder (allMarked pre post)).foldl (undoFile (undoPaths pre.root sub)) w) := by
  refine hrun.induction (P := HalfwayMode pre post sub) ?_ ?_ (List.append_nil _).symm
  · intro p st f n hdiff hf hn hpast _
    exact perm_of_systemAt hsys hdiff hf hn (hpast.resolve_left (by simp))
  · intro done file rest horder hmode hkeeps
    exact mode_step hsub hvalid horder (agreeingPoint_run hsub hvalid hw hsys hagree horder) hmode
      hkeeps

/-- At every point of the undo a mode which the own step of an entry does not set has one of the
three values. -/
theorem halfwaySpoilt_run (hsub : sub ≠ []) (hvalid : ∀ n ∈ sub, ValidName n) (hw : w.faults = [])
    (hsys : SystemAt w.fs sub post.root) (hagree : NamesAgree pre.root post.root sub w.fs)
    (hpoint : undoOrder (allMarked pre post) = done ++ rest) :
    HalfwaySpoilt pre post sub (done.foldl (undoFile (undoPaths pre.root sub)) w) := by
  refine foldl_induction (P := fun _ => HalfwaySpoilt pre post sub) ?_ ?_ hpoint
  · intro p st f n hdiff hf hn hsets
    exact Or.inl (perm_of_systemAt hsys hdiff hf hn hsets)
  · intro done file rest horder hspoilt
    exact spoilt_run_step hsub hvalid horder (agreeingPoint_run hsub hvalid hw hsys hagree horder)
      hspoilt

/-- Reported paths of the pre tree are all done in the end. -/
theorem name_mem_undoOrder {p : Path} {st : Status} (hdiff : Differs pre.root post.root p st) :
    pathName p ∈ (undoOrder (allMarked pre post)).map File.name := by
  refine List.mem_map.mpr ⟨{ name := pathName p, preToPostStatus := st, undo := true }, ?_, rfl⟩
  exact mem_undoOrder.mpr ⟨mem_mark_compareTrees.mpr ⟨p, st, hdiff, rfl⟩, rfl⟩

/-- In the end `lstat` finds what is at a reported path of the pre tree. -/
theorem stat_done (hsub : sub ≠ []) (hvalid : ∀ n ∈ sub, ValidName n)
    (h : Halfway pre post sub (undoOrder (allMarked pre post)) w) {p : Path} {st : Status}
    {f : Inode} (hdiff : Differs pre.root post.root p st) (hf : pre.root.lookup p = some f) :
    ∃ n, w.fs.find (sub ++ p) = some n ∧ w.fs.stat false (pathName (sub ++ p)) = .ok n := by
  have hkind := h.kind p
  rw [if_pos (name_mem_undoOrder hdiff), Tree.kind, hf] at hkind
  obtain ⟨n, hn, _⟩ : ∃ n, w.fs.find (sub ++ p) = some n ∧ n.fmt = f.fmt :=
    Option.map_eq_some_iff.mp hkind
  have hlit : Literal w.fs (sub ++ p) := by
    refine literal_of_find (by simp [hsub]) (fun c hc => ?_) hn
    exact (List.mem_append.mp hc).elim (hvalid c) (hdiff.valid c)
  exact ⟨n, hn, Fs.stat_eq_ok.mpr ⟨_, resolve_literal hlit, hn⟩⟩

end Undo

/-- Names that stay those of one file have the same rights in the end. -/
theorem namesAgree_of_restored (hsub : sub ≠ []) (hvalid : ∀ n ∈ sub, ValidName n)
    (hw : w.faults = []) (hsys : SystemAt w.fs sub post.root)
    (hrestored : RightsRestored pre.root post.root sub
      ((undoOrder (allMarked pre post)).foldl (undoFile (undoPaths pre.root sub)) w).fs) :
    NamesAgree pre.root post.root sub w.fs := by
  intro p p' st st' f f' hdiff hdiff' hplace hplace' hf hf' hlinked
  have hend : undoOrder (allMarked pre post) = _ ++ [] := (List.append_nil _).symm
  have hhalf := halfway_run hsub hvalid hw hsys hend
  by_cases hne : p = p'
  · subst hne
    rw [Option.some.inj (hf.symm.trans hf')]
  -- they are still one file in the end, and so have one mode and one owner
  · have hkept := (links_run hsub hvalid hw hsys hend).kept hdiff hdiff' hplace hplace' hne hlinked
    obtain ⟨n, hn, hstat⟩ := stat_done hsub hvalid hhalf hdiff hf
    obtain ⟨n', hn', hstat'⟩ := stat_done hsub hvalid hhalf hdiff' hf'
    have hright := hrestored p st f hdiff hf
    have hright' := hrestored p' st' f' hdiff' hf'
    rw [hstat] at hright
    rw [hstat'] at hright'
    rw [hkept.find, hn] at hn'
    obtain rfl := Option.some.inj hn'
    exact (Except.ok.inj hright).symm.trans (Except.ok.inj hright')

/-- A complete undo restores modes and owners exactly when names of one file agree and every step
keeps the modes. -/
theorem undo_restores_rights_iff (pre post : PlainTree) (sub : Path) (hsub : sub ≠ [])
    (hvalid : ∀ n ∈ sub, ValidName n) (w : World) (hw : w.faults = [])
    (hsys : SystemAt w.fs sub post.root) :
    RightsRestored pre.root post.root sub
      (undoComparison (undoPaths pre.root sub) (allMarked pre post) w).fs ↔
        NamesAgree pre.root post.root sub w.fs ∧
          Along (KeepsModes pre.root post.root sub) (undoFile (undoPaths pre.root sub))
            (undoOrder (allMarked pre post)) w := by
  rw [undoComparison_eq namesAscend_allMarked]
  have hpoint := (List.append_nil (undoOrder (allMarked pre post))).symm
  have hend := halfway_run hsub hvalid hw hsys hpoint
  constructor
  · intro hrestored
    have hagree := namesAgree_of_restored hsub hvalid hw hsys hrestored
    refine ⟨hagree, ?_⟩
    by_contra hnot
    simp only [along_iff, not_forall] at hnot
    obtain ⟨done, file, rest, horder, hbad⟩ := hnot
    -- from the bad step on some mode is wrong
    obtain ⟨p, st, f, hdiff, hf, hperm, hspoilt⟩ := exists_spoilt hsub hvalid horder
      (agreeingPoint_run hsub hvalid hw hsys hagree horder)
      (halfwaySpoilt_run hsub hvalid hw hsys hagree horder) hbad
    have hlast := @foldl_induction_from World File (undoFile (undoPaths pre.root sub))
      (Spoilt pre post sub p st f) (undoOrder (allMarked pre post)) _ [] w (done ++ [file])
      (by rw [List.foldl_append]; exact hspoilt)
      (fun done file rest horder _ hspoilt =>
        hspoilt.step hsub hvalid horder (agreeingPoint_run hsub hvalid hw hsys hagree horder)
          hdiff hf hperm)
      (List.append_nil _).symm ⟨rest, by rw [horder]; simp⟩
    obtain ⟨n, hn, hstat⟩ := stat_done hsub hvalid hend hdiff hf
    have hright := hrestored p st f hdiff hf
    rw [hstat] at hright
    exact (hlast.mode n hn).1 (congrArg Prod.fst (Except.ok.inj hright))
  · intro ⟨hagree, hrun⟩ p st f hdiff hf
    obtain ⟨n, hn, hstat⟩ := stat_done hsub hvalid hend hdiff hf
    have hdone := name_mem_undoOrder hdiff
    have hmode := mode_run hsub hvalid hw hsys hagree hrun p st f n hdiff hf hn (Or.inl hdone)
      fun s st' hdiff' _ _ _ => name_mem_undoOrder hdiff'
    obtain ⟨huid, hgid⟩ := owner_run hsub hvalid hw hsys hagree hpoint p st f n hdiff hf hn
      (Or.inl hdone)
    rw [hstat]
    exact congrArg Except.ok (Prod.ext hmode (Prod.ext huid hgid))

/-- A file with set-user-ID … -/
private def suidTree : PlainTree where
  root := .node (plainDir 1) [(str "f", .node { plainFile 1 (str "x") with perm := 0o4755 } [])]
  wf := by decide
  isDir := rfl
  oneDev := by decide
  plain := by decide

/-- … and two … -/
private def suidPair : PlainTree where
  root := pairRoot 0o4755 0o4755
  wf := by decide
  isDir := rfl
  oneDev := by decide
  plain := by decide

/-- … two of other modes … -/
private def oddPair : PlainTree where
  root := pairRoot 0o600 0o644
  wf := by decide
  isDir := rfl
  oneDev := by decide
  plain := by decide

/-- … or none. -/
private def bareTree : PlainTree where
  root := .node (plainDir 2) []
  wf := by decide
  isDir := rfl
  oneDev := by decide
  plain := by decide

private def rightsWorld (fs : Fs) : World :=
  { fs := fs, faults := [], canClone := false, umask := 0o022 }

/-- Two names of one file get the set-user-ID bit back that both have had. -/
theorem undo_restores_rights_suid :
    RightsRestored suidPair.root modePair.root [str "s"]
      (undoComparison (undoPaths suidPair.root [str "s"]) (allMarked suidPair modePair)
        (rightsWorld linkedFs)).fs := by
  have hlookup : ∀ p f, suidPair.root.lookup p = some f → p ≠ [] →
      f = { plainFile 1 (str "x") with perm := 0o4755 } := by
    intro p f hf hp
    cases p with
    | nil => exact absurd rfl hp
    | cons c rest =>
      -- only the two files are below the root
      by_cases hc : c = str "f" ∨ c = str "g"
      · have hone : suidPair.root.lookup (c :: rest) =
            (Tree.node { plainFile 1 (str "x") with perm := 0o4755 } []).lookup rest := by
          obtain rfl | rfl := hc <;> rfl
        rw [hone] at hf
        cases rest with
        | nil => exact (Option.some.inj hf).symm
        | cons d rest => cases hf
      · rw [not_or] at hc
        have hf' : (c == str "f") = false := beq_false_of_ne hc.1
        have hg : (c == str "g") = false := beq_false_of_ne hc.2
        simp [Tree.lookup, Tree.find_cons, suidPair, pairRoot, List.lookup_cons, hf', hg] at hf
  have hsteps : undoOrder (allMarked suidPair modePair) =
      [{ name := str "/f", preToPostStatus := { permissions := true }, undo := true },
        { name := str "/g", preToPostStatus := { permissions := true }, undo := true }] := by
    decide +kernel
  refine (undo_restores_rights_iff _ _ [str "s"] (by decide) (by decide) (rightsWorld linkedFs) rfl
    linkedFs_systemAt).mpr ⟨?_, ?_⟩
  · intro p p' st st' f f' hdiff hdiff' _ _ hf hf' _
    rw [hlookup p f hf hdiff.1, hlookup p' f' hf' hdiff'.1]
  · have hkeeps : ∀ w name, components name ≠ [] →
        KeepsModes suidPair.root modePair.root [str "s"] w
          { name := name, preToPostStatus := { permissions := true }, undo := true } := by
      intro w name hname
      refine ⟨fun _ _ _ => Or.inr rfl, ?_⟩
      intro f _ _ _ _ hf hlnk
      rw [hlookup _ f hf hname] at hlnk
      cases hlnk
    rw [hsteps]
    exact ⟨hkeeps _ _ (by decide), hkeeps _ _ (by decide), trivial⟩

/-- Two names of one file that have had different modes cannot both get theirs back. -/
theorem undo_joins_rights :
    ¬RightsRestored oddPair.root modePair.root [str "s"]
      (undoComparison (undoPaths oddPair.root [str "s"]) (allMarked oddPair modePair)
        (rightsWorld linkedFs)).fs := by
  intro h
  have hf := h [str "f"] { permissions := true } { plainFile 1 (str "x") with perm := 0o600 }
    (by decide +kernel) (by decide)
  revert hf
  decide +kernel

/-- A deleted file comes back without its set-user-ID bit. -/
theorem undo_clears_suid : ¬RightsRestored suidTree.root bareTree.root [str "s"]
    (undoComparison (undoPaths suidTree.root [str "s"]) (allMarked suidTree bareTree)
      (rightsWorld (mounted [str "s"] (by decide) bareTree.toDirTree))).fs := by
  intro h
  have hf := h [str "f"] .DELETED { plainFile 1 (str "x") with perm := 0o4755 } (by decide)
    (by decide)
  revert hf
  decide +kernel

end Snapper
