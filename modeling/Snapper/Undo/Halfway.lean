import Snapper.Undo.Effect

/-!
# Halfway through a complete undo

At every point of a complete undo the files whose steps are done have the types of the pre
tree and the others those of the post tree.  From this and the order of the steps each
step finds directories above its file, and nothing in a directory it removes, so that
`undoFile_effect` says what it does.

## Main results

- `Halfway`: the invariant
- `halfway_run`: it holds at every point of a complete undo
- `Halfway.effect`: the effect of the next step
-/

namespace Snapper

open General

/-- All entries of the comparison, marked for undo. -/
def allMarked (pre post : PlainTree) : List File :=
  mark (fun _ => true) (compareTrees pre.root post.root)

/-- In the middle of a complete undo: what is done is as before, the rest as after. -/
structure Halfway (pre post : PlainTree) (sub : Path) (done : List File) (w : World) : Prop where
  faults : w.faults = []
  above : ∀ r, r <+: sub → w.fs.isDir r = true
  kind : ∀ p, w.fs.kind (sub ++ p) =
    if pathName p ∈ done.map File.name then pre.root.kind p else post.root.kind p

section Entries

variable {pre post : PlainTree} {done rest : List File} {file : File} {p p' : Path} {st : Status}

theorem namesAscend_allMarked : NamesAscend (allMarked pre post) :=
  namesAscend_mark (namesAscend_compareTrees _ _) _

theorem mem_allMarked (horder : undoOrder (allMarked pre post) = done ++ file :: rest) :
    file ∈ allMarked pre post := by
  have hmem : file ∈ undoOrder (allMarked pre post) := by
    rw [horder]
    simp
  exact (mem_undoOrder.mp hmem).1

/-- An entry that comes before a step is done before it. -/
theorem mem_done_of_before (horder : undoOrder (allMarked pre post) = done ++ file :: rest)
    (h : Differs pre.root post.root p st)
    (hbefore : UndoBefore { name := pathName p, preToPostStatus := st, undo := true } file) :
    pathName p ∈ done.map File.name := by
  refine List.mem_map.mpr ⟨_, (mem_done_iff namesAscend_allMarked horder).mpr ⟨⟨?_, rfl⟩, hbefore⟩,
    rfl⟩
  exact mem_mark_compareTrees.mpr ⟨p, st, h, rfl⟩

/-- What is done before a step is an entry that comes before it. -/
theorem before_of_mem_done (horder : undoOrder (allMarked pre post) = done ++ file :: rest)
    (h : pathName p ∈ done.map File.name) :
    ∃ other, other.name = pathName p ∧ UndoBefore other file := by
  obtain ⟨other, hdone, hname⟩ := List.mem_map.mp h
  exact ⟨other, hname, ((mem_done_iff namesAscend_allMarked horder).mp hdone).2⟩

/-- A marked entry whose name is among those done comes before the entry that is to be done. -/
theorem before_of_differs (horder : undoOrder (allMarked pre post) = done ++ file :: rest)
    (hdiff : Differs pre.root post.root p st) (h : pathName p ∈ done.map File.name) :
    UndoBefore { name := pathName p, preToPostStatus := st, undo := true } file := by
  obtain ⟨other, hdone, hname⟩ := List.mem_map.mp h
  obtain ⟨⟨hmem, _⟩, hbefore⟩ := (mem_done_iff namesAscend_allMarked horder).mp hdone
  obtain ⟨p', st', hdiff', rfl⟩ := mem_mark_compareTrees.mp hmem
  obtain rfl := pathName_eq_of_differs hdiff hdiff'.valid hname
  obtain rfl := Option.some.inj (hdiff.2.2.symm.trans hdiff'.2.2)
  exact hbefore

/-- What is not done with a step comes after it. -/
theorem before_of_not_mem_done (horder : undoOrder (allMarked pre post) = done ++ file :: rest)
    (hdiff : Differs pre.root post.root p st)
    (h : pathName p ∉ (done ++ [file]).map File.name) :
    UndoBefore file { name := pathName p, preToPostStatus := st, undo := true } := by
  have hmem : { name := pathName p, preToPostStatus := st, undo := true } ∈
      undoOrder (allMarked pre post) :=
    mem_undoOrder.mpr ⟨mem_mark_compareTrees.mpr ⟨p, st, hdiff, rfl⟩, rfl⟩
  have hpairs := pairwise_undoOrder (@namesAscend_allMarked pre post)
  rw [horder] at hmem hpairs
  rw [List.map_append, List.mem_append, not_or] at h
  have hrest := (List.mem_append.mp hmem).resolve_left fun hdone =>
    h.1 (List.mem_map_of_mem (f := File.name) hdone)
  obtain rfl | hrest := List.mem_cons.mp hrest
  · exact absurd (List.mem_singleton.mpr rfl) h.2
  · exact List.rel_of_pairwise_cons (List.pairwise_append.mp hpairs).2.1 hrest

/-- Where the trees do not differ both have no file, or both have one and the comparison sees no
change. -/
theorem lookup_of_not_differs (hp : p ≠ []) (hign : ¬Ignored p)
    (h : ∀ st, ¬Differs pre.root post.root p st) :
    (pre.root.lookup p = none ∧ post.root.lookup p = none) ∨
      ∃ f g, pre.root.lookup p = some f ∧ post.root.lookup p = some g ∧ cmpFiles f g = .zero := by
  have hdiff : ∀ st, diffStatus (pre.root.lookup p) (post.root.lookup p) ≠ some st :=
    fun st hst => h st ⟨hp, hign, hst⟩
  cases hf : pre.root.lookup p with
  | none =>
    cases hg : post.root.lookup p with
    | none => exact Or.inl ⟨rfl, rfl⟩
    | some g => exact absurd (by rw [hf, hg]; rfl) (hdiff .CREATED)
  | some f =>
    cases hg : post.root.lookup p with
    | none => exact absurd (by rw [hf, hg]; rfl) (hdiff .DELETED)
    | some g =>
      refine Or.inr ⟨f, g, rfl, rfl, ?_⟩
      by_contra hne
      exact hdiff (cmpFiles f g) (by rw [hf, hg, diffStatus, if_neg hne])

/-- Where the trees do not differ they have the same types. -/
theorem kind_eq_of_not_differs (hp : p ≠ []) (hign : ¬Ignored p)
    (h : ∀ st, ¬Differs pre.root post.root p st) : pre.root.kind p = post.root.kind p := by
  unfold Tree.kind
  obtain ⟨hf, hg⟩ | ⟨f, g, hf, hg, hzero⟩ := lookup_of_not_differs hp hign h
  · rw [hf, hg]
  · have hfmt : f.fmt = g.fmt := fmt_eq_of_type hzero.symm rfl
    simp [hf, hg, hfmt]

/-- A name with a slash in it is in no tree. -/
theorem lookup_of_invalid (t : PlainTree) (h : ¬∀ n ∈ p, ValidName n) :
    t.root.lookup p = none := by
  cases hi : t.root.lookup p with
  | none => rfl
  | some i => exact absurd (DirTree.valid hi) h

/-- What is done with a step is what was done before and its file. -/
theorem mem_done_step_iff (hname : file.name = pathName p)
    (hdiff : Differs pre.root post.root p st) (hvalid : ∀ n ∈ p', ValidName n) :
    pathName p' ∈ (done ++ [file]).map File.name ↔
      pathName p' ∈ done.map File.name ∨ p' = p := by
  rw [List.map_append, List.mem_append, List.map_singleton, List.mem_singleton, hname]
  refine or_congr_right ⟨fun heq => pathName_eq_of_differs hdiff hvalid heq, ?_⟩
  intro heq
  rw [heq]

end Entries

theorem prefix_append_cases {r sub p : Path} (h : r <+: sub ++ p) :
    r <+: sub ∨ ∃ p', r = sub ++ p' ∧ p' <+: p := by
  obtain hle | hle := Nat.le_total r.length sub.length
  · exact Or.inl (List.prefix_of_prefix_length_le h (List.prefix_append sub p) hle)
  · obtain ⟨p', rfl⟩ := List.prefix_of_prefix_length_le (List.prefix_append sub p) h hle
    exact Or.inr ⟨p', rfl, (List.prefix_append_right_inj sub).mp h⟩

theorem not_ignored_prefix {p p' : Path} (h : ¬Ignored p) (hp' : p' <+: p) (hne : p' ≠ []) :
    ¬Ignored p' := by
  obtain ⟨s, rfl⟩ := hp'
  cases p' with
  | nil => exact absurd rfl hne
  | cons n p' => simpa [Ignored] using h

/-! ## The next step -/

section Halfway

variable {pre post : PlainTree} {sub : Path} {done rest : List File} {file : File} {w : World}
  {p : Path}

/-- Above the file of a step there are directories. -/
theorem Halfway.isDir_above (h : Halfway pre post sub done w)
    (horder : undoOrder (allMarked pre post) = done ++ file :: rest)
    (hname : file.name = pathName p)
    (hdiff : Differs pre.root post.root p file.preToPostStatus) {p' : Path} (hp' : p' <+: p)
    (hne : p' ≠ p) : w.fs.isDir (sub ++ p') = true := by
  by_cases hnil : p' = []
  · rw [hnil, List.append_nil]
    exact h.above sub (List.prefix_refl sub)
  have hign := not_ignored_prefix hdiff.2.1 hp' hnil
  obtain ⟨s, hs'⟩ := hp'
  have hsne : s ≠ [] := by
    intro hs
    exact hne (by simpa [hs] using hs')
  have hlt : pathName p' < pathName p := hs' ▸ pathName_lt_append p' hsne
  rw [Fs.isDir_iff_kind, h.kind p']
  by_cases hcreated : file.preToPostStatus = .CREATED
  · -- the directories above are of the post tree and not done yet
    have hnot : pathName p' ∉ done.map File.name := by
      intro hmem
      obtain ⟨other, hother, hbefore⟩ := before_of_mem_done horder hmem
      rw [UndoBefore, if_pos hcreated, hother, hname] at hbefore
      exact lt_asymm hlt hbefore.2
    have hpost : ∃ g, post.root.lookup p = some g := by
      obtain ⟨_, _, hst⟩ := hdiff
      cases hg : post.root.lookup p with
      | some g => exact ⟨g, rfl⟩
      | none =>
        rw [hg, diffStatus_none_right, hcreated] at hst
        exact absurd hst.2 (by decide)
    obtain ⟨g, hg⟩ := hpost
    rw [if_neg hnot]
    exact PlainTree.kind_above hg ⟨s, hs'⟩ hne
  · -- the directories above are of the pre tree, and done where the trees differ
    have hpre : ∃ f, pre.root.lookup p = some f := by
      obtain ⟨_, _, hst⟩ := hdiff
      cases hf : pre.root.lookup p with
      | some f => exact ⟨f, rfl⟩
      | none =>
        rw [hf, diffStatus_none_left] at hst
        exact absurd hst.2 hcreated
    obtain ⟨f, hf⟩ := hpre
    have hpreKind : pre.root.kind p' = some .dir := PlainTree.kind_above hf ⟨s, hs'⟩ hne
    split
    · exact hpreKind
    · next hnot =>
      have hsame : ∀ st, ¬Differs pre.root post.root p' st := by
        intro st hst
        refine hnot (mem_done_of_before horder hst ?_)
        rw [UndoBefore, if_neg hcreated, hname]
        exact Or.inr hlt
      rw [← kind_eq_of_not_differs hnil hign hsame]
      exact hpreKind

/-- The path of the entry that is next is reached without following a link: its ancestors are what
the pre-snapshot or the post-snapshot has there, and both have directories. -/
theorem Halfway.literal (h : Halfway pre post sub done w) (hvalid : ∀ n ∈ sub, ValidName n)
    (horder : undoOrder (allMarked pre post) = done ++ file :: rest)
    (hname : file.name = pathName p)
    (hdiff : Differs pre.root post.root p file.preToPostStatus) : Literal w.fs (sub ++ p) where
  ne_nil := by simp [hdiff.1]
  valid := by
    intro n hn
    obtain hn | hn := List.mem_append.mp hn
    · exact hvalid n hn
    · exact hdiff.valid n hn
  dirs := by
    intro r hr hne
    obtain hr | ⟨p', rfl, hp'⟩ := prefix_append_cases hr
    · exact h.above r hr
    · exact h.isDir_above horder hname hdiff hp' fun heq => hne (by rw [heq])

/-- The file of a step has the type it has in the post tree. -/
theorem Halfway.kind_post (h : Halfway pre post sub done w)
    (horder : undoOrder (allMarked pre post) = done ++ file :: rest)
    (hname : file.name = pathName p) : w.fs.kind (sub ++ p) = post.root.kind p := by
  rw [h.kind, if_neg]
  rw [← hname]
  exact name_not_mem_done namesAscend_allMarked horder

/-- A directory that the pre tree does not have is empty when its step comes. -/
theorem Halfway.empty (h : Halfway pre post sub done w)
    (horder : undoOrder (allMarked pre post) = done ++ file :: rest)
    (hname : file.name = pathName p)
    (hdiff : Differs pre.root post.root p file.preToPostStatus)
    (hpre : ∀ f, pre.root.lookup p = some f → f.fmt ≠ .dir) :
    w.fs.hasChild (sub ++ p) = false := by
  apply Fs.hasChild_eq_false_iff.mpr
  intro c
  apply Fs.kind_eq_none.mp
  have hnone : pre.root.lookup (p ++ [c]) = none := PlainTree.lookup_below hpre c
  rw [List.append_assoc, h.kind]
  split
  · simp [Tree.kind, hnone]
  · next hnot =>
    cases hg : post.root.lookup (p ++ [c]) with
    | none => simp [Tree.kind, hg]
    | some g =>
      -- the file below was created, so it comes before this step
      have hbelow : Differs pre.root post.root (p ++ [c]) .CREATED := by
        refine ⟨by simp, ?_, by rw [hnone, hg]; rfl⟩
        have hign := hdiff.2.1
        unfold Ignored at hign ⊢
        cases p with
        | nil => exact absurd rfl hdiff.1
        | cons n p => simpa using hign
      refine absurd (mem_done_of_before horder hbelow ?_) hnot
      unfold UndoBefore
      split
      · rw [hname]
        exact ⟨rfl, pathName_lt_append p (by simp)⟩
      · exact Or.inl rfl

/-- The effect of the next step. -/
theorem Halfway.effect (h : Halfway pre post sub done w) (hsub : sub ≠ [])
    (hvalid : ∀ n ∈ sub, ValidName n)
    (horder : undoOrder (allMarked pre post) = done ++ file :: rest)
    (hname : file.name = pathName p)
    (hdiff : Differs pre.root post.root p file.preToPostStatus) :
    StepEffect pre.root p (sub ++ p) file.preToPostStatus w
      (undoFile (undoPaths pre.root sub) w file) := by
  have hnames : Names (undoPaths pre.root sub) file p (sub ++ p) :=
    names_of_subvolume hvalid rfl hname hdiff.valid
  have hparent : (sub ++ p).dropLast ≠ [] := by
    intro hnil
    have hlen := congrArg List.length hnil
    have hpos := List.length_pos_iff.mpr hsub
    have hpos' := List.length_pos_iff.mpr hdiff.1
    rw [List.length_dropLast, List.length_append, List.length_nil] at hlen
    omega
  exact undoFile_effect rfl hnames h.faults (h.literal hvalid horder hname hdiff) hparent hdiff
    (h.kind_post horder hname) (h.empty horder hname hdiff)

/-- Anything about the files but their modes and owners, after the next step: what is done has
the value `a` and the rest the value `b`. -/
theorem Halfway.map_step {β : Type} {g : Node → β} {a b : Path → Option β}
    (h : Halfway pre post sub done w) (hsub : sub ≠ []) (hvalid : ∀ n ∈ sub, ValidName n)
    (horder : undoOrder (allMarked pre post) = done ++ file :: rest)
    (hmode : ∀ n mode, g (n.chmod mode) = g n)
    (howner : ∀ n owner group, g (n.chown owner group) = g n)
    (hinvalid : ∀ p, ¬(∀ n ∈ p, ValidName n) → a p = b p)
    (hstep : ∀ p, Differs pre.root post.root p file.preToPostStatus →
      w.fs.kind (sub ++ p) = post.root.kind p → (w.fs.find (sub ++ p)).map g = b p →
        (outcome file.preToPostStatus (pre.root.lookup p) (w.fs.find (sub ++ p))).map g = a p)
    (hinv : ∀ p, (w.fs.find (sub ++ p)).map g =
      if pathName p ∈ done.map File.name then a p else b p) (p' : Path) :
    ((undoFile (undoPaths pre.root sub) w file).fs.find (sub ++ p')).map g =
      if pathName p' ∈ (done ++ [file]).map File.name then a p' else b p' := by
  obtain ⟨p, hname, hdiff⟩ := exists_differs_of_mem (mem_allMarked horder)
  have hbefore := hinv p
  rw [← hname, if_neg (name_not_mem_done namesAscend_allMarked horder)] at hbefore
  have hmap := (h.effect hsub hvalid horder hname hdiff).map hmode howner hdiff.2.2
    (h.kind_post horder hname) (sub ++ p')
  rw [hstep p hdiff (h.kind_post horder hname) hbefore] at hmap
  refine hmap.trans ?_
  by_cases hvalid' : ∀ n ∈ p', ValidName n
  · have hdone := @mem_done_step_iff pre post done file p p' _ hname hdiff hvalid'
    -- the step changes its own path, and any other is as before it
    by_cases hp' : p' = p
    · rw [if_pos (by rw [hp']), if_pos (hdone.mpr (Or.inr hp')), hp']
    · rw [if_neg fun heq => hp' (List.append_cancel_left heq)]
      exact (hinv p').trans (if_congr (hdone.trans (or_iff_left hp')).symm rfl rfl)
  · -- a path with a slash in a name is in no tree
    have hne : sub ++ p' ≠ sub ++ p := fun heq =>
      hvalid' (List.append_cancel_left heq ▸ hdiff.valid)
    rw [if_neg hne]
    refine (hinv p').trans ?_
    simp [hinvalid p' hvalid']

/-- A step keeps the invariant. -/
theorem halfway_step (hsub : sub ≠ []) (hvalid : ∀ n ∈ sub, ValidName n)
    (horder : undoOrder (allMarked pre post) = done ++ file :: rest)
    (h : Halfway pre post sub done w) :
    Halfway pre post sub (done ++ [file]) (undoFile (undoPaths pre.root sub) w file) := by
  obtain ⟨p, hname, hdiff⟩ := exists_differs_of_mem (mem_allMarked horder)
  have heffect := h.effect hsub hvalid horder hname hdiff
  refine ⟨heffect.faults.trans h.faults, ?_, ?_⟩
  · intro r hr
    -- the subvolume and what is above it is not the path of a step
    have hne : r ≠ sub ++ p := by
      intro heq
      have hlen := hr.length_le
      have hpos := List.length_pos_iff.mpr hdiff.1
      rw [heq, List.length_append] at hlen
      omega
    have hmap := heffect.map (g := fun n => n.fmt) (fun _ _ => rfl) (fun _ _ _ => rfl) hdiff.2.2
      (h.kind_post horder hname) r
    rw [if_neg hne] at hmap
    rw [Fs.isDir_iff_kind]
    exact hmap.trans (Fs.isDir_iff_kind.mp (h.above r hr))
  -- inside it the types are those of the pre tree where the step is done
  · apply h.map_step hsub hvalid horder (fun _ _ => rfl) (fun _ _ _ => rfl)
    · intro p' hvalid'
      simp [Tree.kind, lookup_of_invalid _ hvalid']
    · intro p' hdiff' hpost _
      exact outcome_kind hdiff'.2.2 hpost
    · exact h.kind

end Halfway

/-- The invariant at every point of a complete undo. -/
theorem halfway_run {pre post : PlainTree} {sub : Path} (hsub : sub ≠ [])
    (hvalid : ∀ n ∈ sub, ValidName n) {w : World} (hw : w.faults = [])
    (hsys : SystemAt w.fs sub post.root) {done rest : List File}
    (hpoint : undoOrder (allMarked pre post) = done ++ rest) :
    Halfway pre post sub done (done.foldl (undoFile (undoPaths pre.root sub)) w) := by
  refine foldl_induction (P := Halfway pre post sub) ⟨hw, hsys.above, ?_⟩ ?_ hpoint
  · intro p
    rw [if_neg (by simp)]
    exact hsys.kind p
  · intro done file rest horder h
    exact halfway_step hsub hvalid horder h

end Snapper
