import Snapper.Compare.Difference
import Snapper.General.Run
import Snapper.Undo.File

/-!
# Undoing a comparison

The undo steps of a comparison, as the run of `doUndo` over its marked entries: first the
created files from the last name back, then the others from the first name on.
-/

namespace Snapper

open General

/-- Mark entries for undo. -/
def mark (selected : Str → Bool) (files : List File) : List File :=
  files.map fun file => { file with undo := selected file.name }

/-- The marked entries in the order of their undo steps. -/
def undoOrder (files : List File) : List File :=
  (files.reverse.filter fun file => file.undo ∧ file.preToPostStatus = .CREATED) ++
    files.filter fun file => file.undo ∧ file.preToPostStatus ≠ .CREATED

/-- The state after undoing one entry. -/
def undoFile (paths : FilePaths) (w : World) (file : File) : World := ((file.doUndo paths).run w).2

/-- The state after all undo steps of a comparison. -/
def undoComparison (paths : FilePaths) (files : List File) (w : World) : World :=
  ((doUndoSteps paths files (getUndoSteps files)).run w).2

/-! ## Finding the entry of a step -/

/-- The names of the entries ascend strictly. -/
def NamesAscend (files : List File) : Prop := files.Pairwise fun a b => a.name < b.name

/-- In an ascending list `Files::findAbsolutePath` finds exactly the entry with the name. -/
theorem findFile_of_mem {files : List File} (h : NamesAscend files) {file : File}
    (hfile : file ∈ files) : findFile files file.name = some file := by
  have hfirst : files.find? (fun f => decide ¬f.name < file.name) = some file := by
    induction files with
    | nil => cases hfile
    | cons f files ih =>
      obtain ⟨hlt, hrest⟩ := List.pairwise_cons.mp h
      obtain rfl | hfile := List.mem_cons.mp hfile
      · rw [List.find?_cons_of_pos]
        simp
      · rw [List.find?_cons_of_neg]
        · exact ih hrest hfile
        · simpa using hlt file hfile
  unfold findFile
  rw [hfirst]
  simp

theorem mem_undoOrder {files : List File} {file : File} :
    file ∈ undoOrder files ↔ file ∈ files ∧ file.undo = true := by
  unfold undoOrder
  rw [List.mem_append, List.mem_filter, List.mem_filter, List.mem_reverse]
  by_cases hst : file.preToPostStatus = .CREATED <;> simp [hst]

/-- The loop over the undo steps is the fold of `File::doUndo` over the entries in the order of
the steps. -/
theorem doUndoSteps_run {paths : FilePaths} {files : List File} (h : NamesAscend files)
    (order : List File) (horder : ∀ file ∈ order, file ∈ files) (w : World) :
    ((doUndoSteps paths files
      (order.map fun file => { name := file.name, action := file.getAction })).run w).2 =
      order.foldl (undoFile paths) w := by
  induction order generalizing w with
  | nil => rfl
  | cons file order ih =>
    have hfind := findFile_of_mem h (horder file (by simp))
    rw [List.map_cons, List.foldl_cons, doUndoSteps, Cmd.run_bind, Cmd.run_bind, doUndoStep, hfind]
    exact ih (fun f hf => horder f (List.mem_cons_of_mem _ hf)) _

/-- The undo steps undo the marked entries one after the other. -/
theorem undoComparison_eq {paths : FilePaths} {files : List File} (h : NamesAscend files)
    (w : World) : undoComparison paths files w = (undoOrder files).foldl (undoFile paths) w :=
  doUndoSteps_run h _ (fun _ hf => (mem_undoOrder.mp hf).1) w

/-! ## The entries of a comparison -/

/-- The comparison of two snapshots reports a path exactly when it differs, with its status. -/
theorem mem_compareTrees {t1 t2 : SnapshotTree} {file : File} :
    file ∈ compareTrees t1.root t2.root ↔
      ∃ p st, Differs t1.root t2.root p st ∧
        file = { name := pathName p, preToPostStatus := st } := by
  unfold compareTrees sortFiles appendReports
  rw [List.mem_insertionSort, List.mem_map]
  constructor
  · intro ⟨⟨name, st⟩, hreport, heq⟩
    obtain ⟨p, hname, hp⟩ := ((cmpDirs_reports t1 t2).mem_iff name st).mp hreport
    exact ⟨p, st, by simpa using hp, by rw [← heq, hname]; rfl⟩
  · intro ⟨p, st, hp, heq⟩
    exact ⟨(pathName p, st), ((cmpDirs_reports t1 t2).mem_iff _ _).mpr ⟨p, rfl, hp⟩, heq.symm⟩

/-- The reported entries are sorted by name, each name once. -/
theorem namesAscend_compareTrees (t1 t2 : SnapshotTree) :
    NamesAscend (compareTrees t1.root t2.root) := by
  have hle : (compareTrees t1.root t2.root).Pairwise fun a b => a.name ≤ b.name := by
    have : IsTrans File fun x y => x.name ≤ y.name := ⟨fun _ _ _ => le_trans⟩
    have : Std.Total fun x y : File => x.name ≤ y.name := ⟨fun x y => le_total x.name y.name⟩
    exact List.pairwise_insertionSort _ _
  have hne : (compareTrees t1.root t2.root).Pairwise fun a b => a.name ≠ b.name := by
    have hnames : (appendReports (cmpDirs t1.root t2.root)).map File.name =
        (cmpDirs t1.root t2.root).map Prod.fst := by
      simp [appendReports, Function.comp_def]
    have hperm := (List.perm_insertionSort (fun a b : File => a.name ≤ b.name)
      (appendReports (cmpDirs t1.root t2.root))).map File.name
    refine List.pairwise_map.mp (hperm.nodup_iff.mpr ?_)
    rw [hnames]
    exact (cmpDirs_reports t1 t2).once
  exact hle.imp₂ (fun a b hab hne => lt_of_le_of_ne hab hne) hne

theorem namesAscend_mark {files : List File} (h : NamesAscend files) (selected : Str → Bool) :
    NamesAscend (mark selected files) :=
  List.pairwise_map.mpr h

/-- After marking an entry is still a difference of the trees, and its mark is the one of its
name. -/
theorem mem_mark_compareTrees {t1 t2 : SnapshotTree} {selected : Str → Bool} {file : File} :
    file ∈ mark selected (compareTrees t1.root t2.root) ↔
      ∃ p st, Differs t1.root t2.root p st ∧ file =
        { name := pathName p, preToPostStatus := st, undo := selected (pathName p) } := by
  unfold mark
  rw [List.mem_map]
  constructor
  · intro ⟨f, hf, heq⟩
    obtain ⟨p, st, hp, rfl⟩ := mem_compareTrees.mp hf
    exact ⟨p, st, hp, heq.symm⟩
  · intro ⟨p, st, hp, heq⟩
    exact ⟨_, mem_compareTrees.mpr ⟨p, st, hp, rfl⟩, heq.symm⟩

theorem lookup_eq_some_iff {t : Tree} {p : Path} {i : Inode} :
    t.lookup p = some i ↔ ∃ c, t.find p = some c ∧ c.inode = i :=
  Option.map_eq_some_iff

theorem DirTree.valid {t : DirTree} {p : Path} {i : Inode} (h : t.root.lookup p = some i) :
    ∀ n ∈ p, ValidName n := by
  obtain ⟨c, hc, _⟩ := lookup_eq_some_iff.mp h
  exact t.wf.validName hc

section Differs

variable {t1 t2 : SnapshotTree} {p p' : Path} {st st' : Status}

theorem exists_differs_of_mem {selected : Str → Bool} {file : File}
    (h : file ∈ mark selected (compareTrees t1.root t2.root)) :
    ∃ p, file.name = pathName p ∧ Differs t1.root t2.root p file.preToPostStatus := by
  obtain ⟨p, st, hp, rfl⟩ := mem_mark_compareTrees.mp h
  exact ⟨p, rfl, hp⟩

theorem Differs.valid (h : Differs t1.root t2.root p st) : ∀ n ∈ p, ValidName n := by
  obtain ⟨f, hf⟩ | ⟨g, hg⟩ := h.exists_lookup
  · exact DirTree.valid hf
  · exact DirTree.valid hg

theorem Differs.components (h : Differs t1.root t2.root p st) : components (pathName p) = p :=
  components_pathName h.valid

theorem pathName_eq_of_differs (h : Differs t1.root t2.root p st) (hp' : ∀ n ∈ p', ValidName n)
    (heq : pathName p' = pathName p) : p' = p :=
  pathName_injective (fun n hn => (hp' n hn).no_slash) (fun n hn => (h.valid n hn).no_slash) heq

end Differs

/-! ## What is done before a step -/

/-- The order of the undo steps: created files first, from the last name back. -/
def UndoBefore (a b : File) : Prop :=
  if b.preToPostStatus = .CREATED then a.preToPostStatus = .CREATED ∧ b.name < a.name
  else a.preToPostStatus = .CREATED ∨ a.name < b.name

/-- Of two steps at most one has to come before the other. -/
theorem UndoBefore.asymm {a b : File} (h : UndoBefore a b) : ¬UndoBefore b a := by
  intro h'
  unfold UndoBefore at h h'
  split at h
  · next hb =>
    rw [if_pos h.1] at h'
    exact lt_asymm h.2 h'.2
  · next hb =>
    split at h'
    · exact hb h'.1
    · next ha =>
      obtain hb' | hlt' := h'
      · exact hb hb'
      · obtain ha' | hlt := h
        · exact ha ha'
        · exact lt_asymm hlt hlt'

/-- The steps are in an order where none has to come before an earlier one: deletions from below,
then creations and modifications from above. -/
theorem pairwise_undoOrder {files : List File} (h : NamesAscend files) :
    (undoOrder files).Pairwise UndoBefore := by
  unfold undoOrder
  rw [List.pairwise_append]
  refine ⟨?_, ?_, ?_⟩
  · -- the created files, in the order of the reversed list
    refine (List.Pairwise.filter _ (List.pairwise_reverse.mpr h)).imp_of_mem ?_
    intro a b ha hb hlt
    have ha := (List.mem_filter.mp ha).2
    have hb := (List.mem_filter.mp hb).2
    simp only [decide_eq_true_eq] at ha hb
    rw [UndoBefore, if_pos hb.2]
    exact ⟨ha.2, hlt⟩
  · refine (List.Pairwise.filter _ h).imp_of_mem ?_
    intro a b _ hb hlt
    have hb := (List.mem_filter.mp hb).2
    simp only [decide_eq_true_eq] at hb
    rw [UndoBefore, if_neg hb.2]
    exact Or.inr hlt
  · intro a ha b hb
    have ha := (List.mem_filter.mp ha).2
    have hb := (List.mem_filter.mp hb).2
    simp only [decide_eq_true_eq] at ha hb
    rw [UndoBefore, if_neg hb.2]
    exact Or.inl ha.2

/-- What is done before a step: the marked entries that come before its entry. -/
theorem mem_done_iff {files : List File} (h : NamesAscend files) {done rest : List File}
    {file other : File} (horder : undoOrder files = done ++ file :: rest) :
    other ∈ done ↔ (other ∈ files ∧ other.undo = true) ∧ UndoBefore other file := by
  have hpairs := pairwise_undoOrder h
  rw [horder, List.pairwise_append] at hpairs
  obtain ⟨_, htail, hcross⟩ := hpairs
  have hmem : other ∈ undoOrder files ↔ other ∈ files ∧ other.undo = true := mem_undoOrder
  rw [horder, List.mem_append, List.mem_cons] at hmem
  constructor
  · intro hdone
    exact ⟨hmem.mp (Or.inl hdone), hcross other hdone file (List.mem_cons_self ..)⟩
  · intro ⟨hother, hbefore⟩
    obtain hdone | rfl | hrest := hmem.mpr hother
    · exact hdone
    · exact absurd hbefore hbefore.asymm
    · exact absurd hbefore (List.rel_of_pairwise_cons htail hrest).asymm

/-- The entry of a step is not done before. -/
theorem not_mem_done {files : List File} (h : NamesAscend files) {done rest : List File}
    {file : File} (horder : undoOrder files = done ++ file :: rest) : file ∉ done := by
  intro hdone
  obtain ⟨_, hbefore⟩ := (mem_done_iff h horder).mp hdone
  exact hbefore.asymm hbefore

/-- The entry that is next was not done before. -/
theorem name_not_mem_done {files : List File} (h : NamesAscend files) {done rest : List File}
    {file : File} (horder : undoOrder files = done ++ file :: rest) :
    file.name ∉ done.map File.name := by
  intro hmem
  obtain ⟨other, hdone, hname⟩ := List.mem_map.mp hmem
  obtain ⟨⟨hother, _⟩, _⟩ := (mem_done_iff h horder).mp hdone
  have hfile : file ∈ files := by
    have hmem : file ∈ undoOrder files := by
      rw [horder]
      simp
    exact (mem_undoOrder.mp hmem).1
  -- names are distinct, so the other entry would be this one
  have hfind := findFile_of_mem h hother
  rw [hname, findFile_of_mem h hfile] at hfind
  cases hfind
  exact not_mem_done h horder hdone

end Snapper
