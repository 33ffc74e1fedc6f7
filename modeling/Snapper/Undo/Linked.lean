import Snapper.Undo.Halfway

/-!
# Hard links in a complete undo

A step either gives its path a file of its own or changes the file in place, so that the change
shows at the other names of the file.  No step makes a hard link, and files that are only changed
in place stay one file to the end.

## Main results

- `StepEffect.find_cases`: the paths that a step changes
- `HalfwayLinks`: which paths are names of one file at a point of a complete undo
- `NamesAgree`: the paths that stay names of one file have the same rights in the pre tree
-/

namespace Snapper

open General

/-- The permission bits and the owner of a file. -/
def Node.rights (n : Node) : BitVec 12 × Nat × Nat := (n.perm, n.uid, n.gid)

/-- Mode and owner. -/
def Inode.rights (i : Inode) : BitVec 12 × Nat × Nat := (i.perm, i.uid, i.gid)

/-- Names of one file whose entries are undone in place have the same rights in the pre tree.  The
undo leaves them names of one file, which has one mode and one owner. -/
def NamesAgree (pre post : Tree) (sub : Path) (fs : Fs) : Prop :=
  ∀ p p' st st' f f', Differs pre post p st → Differs pre post p' st' →
    st.inPlace = true → st'.inPlace = true → pre.lookup p = some f → pre.lookup p' = some f' →
      fs.Linked (sub ++ p) (sub ++ p') → f.rights = f'.rights

/-! ## One step -/

section Effect

variable {pre : Tree} {p q r s : Path} {st : Status} {w w' : World}

/-- No step makes a hard link. -/
theorem StepEffect.linked_of_linked (h : StepEffect pre p q st w w') (hne : r ≠ s)
    (hlinked : w'.fs.Linked r s) : w.fs.Linked r s := by
  cases h with
  | sets hsets _ => exact hsets.linked_of_linked hne hlinked
  | through _ _ _ _ hsets _ _ hset =>
    exact hsets.linked_of_linked hne (hset.linked_of_linked hne hlinked)

/-- A step neither makes nor breaks a hard link between two other paths, nor one of its own path
when the status leaves the inode in place. -/
theorem StepEffect.linked_iff (h : StepEffect pre p q st w w') (hne : r ≠ s)
    (hplace : r = q ∨ s = q → st.inPlace = true) : w'.fs.Linked r s ↔ w.fs.Linked r s := by
  cases h with
  | sets hsets _ => exact hsets.linked_iff_of_ne hne hplace
  | through _ _ _ hnot hsets _ _ hset =>
    rw [hset.linked_iff_of_ne hne fun _ => rfl]
    refine hsets.linked_iff_of_ne hne fun hname => ?_
    rw [hplace hname] at hnot
    cases hnot

/-- A file that is not changed in place has one name. -/
theorem StepEffect.alone (h : StepEffect pre p q st w w') (hplace : st.inPlace = false)
    (hr : r ≠ q) : ¬w'.fs.Linked q r := by
  intro hlinked
  cases h with
  | sets hsets _ =>
    rw [hsets.shared hr, hplace] at hlinked
    cases hlinked.1
  | through _ _ _ _ hsets _ _ hset =>
    have hold := hset.linked_of_linked hr.symm hlinked
    rw [hsets.shared hr] at hold
    cases hold.1

/-- The file at a path after a step: that of the step, if the path is its own or another name of a
file that is changed in place, or a name of the one that a restored symlink leads to, or what it
was. -/
theorem StepEffect.find_cases (h : StepEffect pre p q st w w') (r : Path) :
    (w'.fs.find r = outcome st (pre.lookup p) (w.fs.find q) ∧
        (r = q ∨ r ≠ q ∧ st.inPlace = true ∧ w.fs.Linked q r)) ∨
      (w'.fs.find r = w.fs.find r ∧ r ≠ q ∧ ¬(st.inPlace = true ∧ w.fs.Linked q r)) ∨
      ∃ f loc m, pre.lookup p = some f ∧ f.fmt = .lnk ∧ st.permissions = true ∧ r ≠ q ∧
        LeadsTo w.fs q (restored f) loc ∧ w.fs.Linked loc r ∧ w.fs.find r = some m ∧
        w'.fs.find r = some (m.chmod f.perm) := by
  cases h with
  | sets hsets _ =>
    obtain ⟨hset, hname⟩ | ⟨hsame, hr, hnot⟩ := hsets.find_cases r
    · refine Or.inl ⟨hset, ?_⟩
      by_cases hr : r = q
      · exact Or.inl hr
      · exact Or.inr ⟨hr, hname.resolve_left hr⟩
    · exact Or.inr (Or.inl ⟨hsame, hr, hnot⟩)
  | @through f loc m w₁ hf hlnk hperm hplace hsets hlead hm hset =>
    have hloc : loc ≠ q := hlead.ne hlnk
    have hnot : ¬(st.inPlace = true ∧ w.fs.Linked q r) := by
      rw [hplace]
      exact fun hkept => Bool.false_ne_true hkept.1
    by_cases hr : r = q
    · -- the symlink is not a name of the file that it leads to
      refine Or.inl ⟨?_, Or.inl hr⟩
      rw [hr, hset.other hloc.symm fun hkept => ?_]
      · exact hsets.self
      · exact Bool.false_ne_true ((hsets.shared hloc).mp hkept.2.symm).1
    · have hbefore : w₁.fs.find r = w.fs.find r := hsets.other hr fun hkept => by cases hkept.1
      obtain ⟨hset', hname⟩ | ⟨hsame, _, _⟩ := hset.find_cases r
      · have hlinked : w₁.fs.Linked loc r := by
          obtain rfl | ⟨-, hlinked⟩ := hname
          · exact Fs.linked_self hm
          · exact hlinked
        refine Or.inr (Or.inr ⟨f, loc, m, hf, hlnk, hperm, hr, hlead, ?_, ?_, hset'⟩)
        · exact (hsets.linked hloc hr).mp hlinked
        · rw [← hbefore, hlinked.find, hm]
      · exact Or.inr (Or.inl ⟨hsame.trans hbefore, hr, hnot⟩)

/-- The mode of a restored symlink goes to the file it leads to, under all of its names. -/
theorem StepEffect.find_lead (h : StepEffect pre p q st w w') {f : Inode}
    (hf : pre.lookup p = some f) (hlnk : f.fmt = .lnk) (hperm : st.permissions = true) {loc : Path}
    (hlead : LeadsTo w.fs q (restored f) loc) (hr : r ≠ q) (hlinked : w.fs.Linked loc r) :
    ∃ m : Node, w'.fs.find r = some (m.chmod f.perm) := by
  cases h with
  | sets _ hmode => exact absurd hlead (hmode f loc hf hlnk hperm)
  | @through f' loc' m w₁ hf' _ _ _ hsets hlead' hm hset =>
    obtain rfl := Option.some.inj (hf.symm.trans hf')
    obtain rfl := hlead.unique hlead'
    exact ⟨m, hset.names ((hsets.linked (hlead.ne hlnk) hr).mpr hlinked)⟩

end Effect

/-! ## The whole undo -/

/-- The names of one file at a point of a complete undo that started at `fs₀`. -/
structure HalfwayLinks (pre post : PlainTree) (sub : Path) (fs₀ : Fs) (done : List File)
    (w : World) : Prop where
  /-- They were names of one file before. -/
  old : ∀ {r s}, r ≠ s → w.fs.Linked r s → fs₀.Linked r s
  /-- What has got a file of its own has no other name. -/
  alone : ∀ {p st}, Differs pre.root post.root p st → st.inPlace = false →
    pathName p ∈ done.map File.name → ∀ {r}, r ≠ sub ++ p → ¬w.fs.Linked (sub ++ p) r
  /-- What is only changed in place still has the other names that are. -/
  kept : ∀ {p p' st st'}, Differs pre.root post.root p st → Differs pre.root post.root p' st' →
    st.inPlace = true → st'.inPlace = true → p ≠ p' → fs₀.Linked (sub ++ p) (sub ++ p') →
      w.fs.Linked (sub ++ p) (sub ++ p')

section Run

variable {pre post : PlainTree} {sub : Path} {done rest : List File} {file : File} {w : World}
  {fs₀ : Fs} {p p' : Path} {st st' : Status} {f f' : Inode}

theorem status_unique (h : Differs pre.root post.root p st)
    (h' : Differs pre.root post.root p st') :
    st = st' := Option.some.inj (h.2.2.symm.trans h'.2.2)

/-- The invariant of the links is kept by a step: links among the paths that are not done or were
changed in place are those of the beginning. -/
theorem links_step (hsub : sub ≠ []) (hvalid : ∀ n ∈ sub, ValidName n)
    (horder : undoOrder (allMarked pre post) = done ++ file :: rest)
    (h : Halfway pre post sub done w) (hlinks : HalfwayLinks pre post sub fs₀ done w) :
    HalfwayLinks pre post sub fs₀ (done ++ [file])
      (undoFile (undoPaths pre.root sub) w file) := by
  obtain ⟨p₁, hname, hdiff₁⟩ := exists_differs_of_mem (mem_allMarked horder)
  have heffect := h.effect hsub hvalid horder hname hdiff₁
  -- an entry at the path of the step is that of the step
  have hstatus : ∀ {p st}, Differs pre.root post.root p st → sub ++ p = sub ++ p₁ →
      st = file.preToPostStatus := by
    intro p st hdiff heq
    obtain rfl := List.append_cancel_left heq
    exact status_unique hdiff hdiff₁
  refine ⟨fun hne hlinked => hlinks.old hne (heffect.linked_of_linked hne hlinked), ?_, ?_⟩
  · intro p st hdiff hplace hdone r hr hlinked
    obtain hdone | rfl := (mem_done_step_iff hname hdiff₁ hdiff.valid).mp hdone
    · exact hlinks.alone hdiff hplace hdone hr (heffect.linked_of_linked hr.symm hlinked)
    · obtain rfl := hstatus hdiff rfl
      exact heffect.alone hplace hr hlinked
  · intro p p' st st' hdiff hdiff' hplace hplace' hne hlinked
    have hne' : sub ++ p ≠ sub ++ p' := fun heq => hne (List.append_cancel_left heq)
    refine (heffect.linked_iff hne' ?_).mpr (hlinks.kept hdiff hdiff' hplace hplace' hne hlinked)
    rintro (heq | heq)
    · rw [← hstatus hdiff heq, hplace]
    · rw [← hstatus hdiff' heq, hplace']

/-- At every point of the undo the links among paths that keep their inode are those of the
beginning. -/
theorem links_run (hsub : sub ≠ []) (hvalid : ∀ n ∈ sub, ValidName n) (hw : w.faults = [])
    (hsys : SystemAt w.fs sub post.root)
    (hpoint : undoOrder (allMarked pre post) = done ++ rest) :
    HalfwayLinks pre post sub w.fs done (done.foldl (undoFile (undoPaths pre.root sub)) w) := by
  refine foldl_induction (P := HalfwayLinks pre post sub w.fs) ?_ ?_ hpoint
  · refine ⟨fun _ hlinked => hlinked, fun _ _ hdone => by simp at hdone, ?_⟩
    exact fun _ _ _ _ _ hlinked => hlinked
  · intro done file rest horder hlinks
    exact links_step hsub hvalid horder (halfway_run hsub hvalid hw hsys horder) hlinks

/-- An entry of the pre tree that is not undone in place gets a new file. -/
theorem new_of_not_inPlace (hdiff : Differs pre.root post.root p st)
    (hf : pre.root.lookup p = some f) (hplace : st.inPlace = false) :
    (st.deleted || st.type || st.content) = true := by
  have hst := hdiff.2.2
  rw [hf] at hst
  have hcreated : st.created = false := by
    cases hg : post.root.lookup p with
    | none =>
      rw [hg] at hst
      rw [← Option.some.inj hst]
      rfl
    | some g =>
      rw [hg, diffStatus] at hst
      split_ifs at hst
      rw [← Option.some.inj hst]
      rfl
  rwa [Status.inPlace, hcreated, Bool.false_or, Bool.not_eq_false'] at hplace

/-- An entry that is undone in place is a file of both trees, of one type. -/
theorem inPlace_files (hdiff : Differs pre.root post.root p st) (hplace : st.inPlace = true) :
    ∃ f g, pre.root.lookup p = some f ∧ post.root.lookup p = some g ∧ st = cmpFiles f g ∧
      f.fmt = g.fmt := by
  have hst := hdiff.2.2
  -- a file of one tree only is created or deleted, and one of another type is replaced
  cases hf : pre.root.lookup p with
  | none =>
    rw [hf, diffStatus_none_left] at hst
    rw [hst.2] at hplace
    cases hplace
  | some f =>
    cases hg : post.root.lookup p with
    | none =>
      rw [hg, diffStatus_none_right] at hst
      rw [hst.2] at hplace
      cases hplace
    | some g =>
      rw [hf, hg, diffStatus] at hst
      split_ifs at hst
      have hst : st = cmpFiles f g := (Option.some.inj hst).symm
      have htype : st.type = false := by
        rw [Status.inPlace, Bool.not_eq_true', Bool.or_eq_false_iff, Bool.or_eq_false_iff] at hplace
        exact hplace.1.2
      exact ⟨f, g, rfl, rfl, hst, fmt_eq_of_type hst htype⟩

/-- Where the rights agree, names of one file that are undone in place have one status and, but for
their contents, one file in the pre tree. -/
theorem NamesAgree.same (hagree : NamesAgree pre.root post.root sub fs₀)
    (hsys : SystemAt fs₀ sub post.root) (hdiff : Differs pre.root post.root p st)
    (hdiff' : Differs pre.root post.root p' st') (hplace : st.inPlace = true)
    (hplace' : st'.inPlace = true) (hlinked : fs₀.Linked (sub ++ p) (sub ++ p'))
    (hf : pre.root.lookup p = some f) (hf' : pre.root.lookup p' = some f') :
    st = st' ∧ f.rights = f'.rights ∧ f.fmt = f'.fmt := by
  have hrights := hagree p p' st st' f f' hdiff hdiff' hplace hplace' hf hf' hlinked
  obtain ⟨f₁, g, hf₁, hg, hst, hfmt⟩ := inPlace_files hdiff hplace
  obtain rfl := Option.some.inj (hf.symm.trans hf₁)
  obtain ⟨f₁', g', hf₁', hg', hst', hfmt'⟩ := inPlace_files hdiff' hplace'
  obtain rfl := Option.some.inj (hf'.symm.trans hf₁')
  -- the post tree has the same there, as the system has
  have hnode : g'.node = g.node := by
    have hfind := hlinked.find
    rw [hsys.files, hsys.files, hg, hg'] at hfind
    exact Option.some.inj hfind
  have hgfmt : g'.fmt = g.fmt := congrArg Node.fmt hnode
  have hgperm : g'.perm = g.perm := congrArg Node.perm hnode
  have hguid : g'.uid = g.uid := congrArg Node.uid hnode
  have hggid : g'.gid = g.gid := congrArg Node.gid hnode
  obtain ⟨hperm, huid, hgid⟩ : f.perm = f'.perm ∧ f.uid = f'.uid ∧ f.gid = f'.gid := by
    simpa [Inode.rights] using hrights
  refine ⟨?_, hrights, by rw [hfmt, hfmt', hgfmt]⟩
  have hcontent : st.content = false ∧ st'.content = false := by
    simp only [Status.inPlace, Bool.not_eq_true', Bool.or_eq_false_iff] at hplace hplace'
    exact ⟨hplace.2, hplace'.2⟩
  have hsplit : ∀ s t : Status, s.created = t.created → s.deleted = t.deleted → s.type = t.type →
      s.content = t.content → s.permissions = t.permissions → s.user = t.user →
        s.group = t.group → s = t := by
    rintro ⟨_, _, _, _, _, _, _⟩ ⟨_, _, _, _, _, _, _⟩ rfl rfl rfl rfl rfl rfl rfl
    rfl
  refine hsplit st st' ?_ ?_ ?_ (hcontent.1.trans hcontent.2.symm) ?_ ?_ ?_
  all_goals rw [hst, hst']
  all_goals simp [cmpFiles, hfmt, hfmt', hgperm, hguid, hggid, hperm, huid, hgid]

end Run

end Snapper
