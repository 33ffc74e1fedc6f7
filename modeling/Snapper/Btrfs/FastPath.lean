import Snapper.Btrfs.Flat
import Snapper.Btrfs.Tracks
import Snapper.General.Run

/-!
# The fast path against the plain comparison

A run takes the current tree and the processor through the commands of a stream.  At its end the
statuses are checked and reported, and that is compared with what `cmpDirs` reports.

## Main results

- `tracks_run`: a run keeps the invariant
- `report_iff`: what is reported then
- `fast_path_agrees_iff`: when the two comparisons report the same
-/

namespace Snapper.Btrfs

open General

variable {T₁ T T' : DirTree} {p q : Path}

/-! ## Runs -/

/-- `T` is `T₁` on another device. -/
def Copies (T₁ T : DirTree) : Prop :=
  ∀ p, (T₁.root.lookup p = none ∧ T.root.lookup p = none) ∨
    ∃ i₁ i, T₁.root.lookup p = some i₁ ∧ T.root.lookup p = some i ∧ i = { i₁ with dev := i.dev }

/-- The current tree and the processor. -/
abbrev Streaming := SnapshotTree × StreamProcessor

/-- One command of the stream, with the tree it leads to. -/
def streamStep (st : Streaming) (a : Command × SnapshotTree) : Streaming :=
  (a.2, a.1.process st.2)

/-- The command does to the tree what it says. -/
def Applies (st : Streaming) (a : Command × SnapshotTree) : Prop :=
  a.1.Step st.1.toDirTree a.2.toDirTree

def Keeps (st : Streaming) (a : Command × SnapshotTree) : Prop :=
  a.1.Keeps st.1.toDirTree a.2.toDirTree st.2

/-- The device is no difference: a snapshot has another one than its origin, and nothing is
reported. -/
theorem cmpFiles_self_dev (i : Inode) (dev : Nat) : cmpFiles i { i with dev := dev } = .zero := by
  have hcontent (h : i.fmt = ({ i with dev := dev } : Inode).fmt) :
      cmpFilesContent i { i with dev := dev } h = true := by
    rw [cmpFilesContent]
    split
    · simp [cmpFilesContentReg, sameMtime]
    · simp [cmpFilesContentLnk, sameMtime]
    · rfl
  rw [cmpFiles]
  simp [hcontent, Status.zero]

/-- A stream starts with nothing to report. -/
theorem tracks_start {T₁ T : DirTree} (h : Copies T₁ T) :
    Tracks T₁ T (StreamProcessor.start T₁).files := by
  -- at the start both trees are the same, up to what a comparison does not see
  have hsame (p : Path) : T.Has p ↔ T₁.Has p := by
    rw [DirTree.has_iff_lookup, DirTree.has_iff_lookup]
    obtain ⟨hnone₁, hnone⟩ | ⟨i₁, i, hi₁, hi, -⟩ := h p
    · simp [hnone₁, hnone]
    · simp [hi₁, hi]
  have hempty := faithful_empty T₁
  refine ⟨faithful_iff.mpr ⟨hempty.tidy, fun p hp => ?_⟩, fun p hp hhas => ?_, fun p => ?_, ?_⟩
  · rw [hsame p]
    exact ⟨hempty.created_iff p hp, hempty.deleted_iff p hp⟩
  · exact absurd hhas (not_has_empty hp)
  · cases p with
    | nil => rfl
    | cons n p =>
      have hzero := Trie.get_of_not_has (not_has_empty (List.cons_ne_nil n p))
      exact congrArg Status.type hzero
  -- a path without a node has not changed
  · intro p i₁ i hp hi₁ hi _
    obtain ⟨hnone, -⟩ | ⟨j₁, j, hj₁, hj, heq⟩ := h p
    · cases hnone.symm.trans hi₁
    · obtain rfl := Option.some.inj (hj₁.symm.trans hi₁)
      obtain rfl := Option.some.inj (hj.symm.trans hi)
      rw [heq]
      exact cmpFiles_self_dev _ _

/-- A run that meets the condition keeps the invariant. -/
theorem tracks_run {T₁ : DirTree} {T₀ : SnapshotTree} (hcopy : Copies T₁ T₀.toDirTree)
    {l : List (Command × SnapshotTree)}
    (happlies : Along Applies streamStep l (T₀, .start T₁))
    (hkeeps : Along Keeps streamStep l (T₀, .start T₁)) :
    (l.foldl streamStep (T₀, .start T₁)).2.dir1 = T₁ ∧
      Tracks T₁ (l.foldl streamStep (T₀, .start T₁)).1.toDirTree
        (l.foldl streamStep (T₀, .start T₁)).2.files := by
  refine (happlies.and hkeeps).invariant
    (I := fun st => st.2.dir1 = T₁ ∧ Tracks T₁ st.1.toDirTree st.2.files)
    ⟨rfl, tracks_start hcopy⟩ fun st a hinv hstep => ?_
  obtain ⟨rfl, htracks⟩ := hinv
  exact ⟨Command.process_dir1 st.2 a.1, htracks.step hstep.1 hstep.2⟩

/-! ## The report -/

/-- `files.check()` and `files.result(cb)`; `none` is an exception of `check`. -/
def StreamProcessor.report (s : StreamProcessor) (dir2 : DirTree) : Option (List Report) :=
  (TreeNode.check s.dir1 dir2 [] s.files).map (TreeNode.result [])

/-- A file that is in the tree is found by its name in the directory that `deepopen` opens above
it. -/
theorem statBasename_of_find {T : DirTree} {p : Path} (hp : p ≠ []) {c : Tree}
    (hc : T.root.find p = some c) :
    ∃ d, T.root.deepopen p.dropLast = some d ∧ d.statBasename p = some c.inode := by
  have hlast : p.dropLast ++ [p.getLast hp] = p := List.dropLast_concat_getLast hp
  obtain ⟨d, hd, hentry⟩ := Tree.deepopen_of_find T.wf (hlast.symm ▸ hc)
  refine ⟨d, hd, ?_⟩
  rw [Tree.statBasename, List.getLast?_eq_some_getLast hp]
  show (d.entries.lookup (p.getLast hp)).map Tree.inode = _
  rw [hentry]
  rfl

/-- A status without any flag is none. -/
theorem eq_zero_of_not_modified {status : Status} (hc : status.created = false)
    (hd : status.deleted = false) (ht : status.type = false) (hm : status.modified = false) :
    status = 0 := by
  obtain ⟨c, d, t, k, p, u, g⟩ := status
  simp only [Status.modified, Bool.or_eq_false_iff] at hc hd ht hm
  obtain ⟨⟨⟨rfl, rfl⟩, rfl⟩, rfl⟩ := hm
  subst hc hd ht
  rfl

/-- What the comparison of two trees says of a path, zero where they do not differ. -/
def statusBetween (T₁ T : DirTree) (p : Path) : Status :=
  (diffStatus (T₁.root.lookup p) (T.root.lookup p)).getD 0

/-- A node is checked against the two files at its path. -/
theorem Tracks.checkStatus_eq {files : TreeNode} (h : Tracks T₁ T files) (hp : p ≠ [])
    (hhas : files.Has p) : TreeNode.checkStatus T₁ T p (files.get p) =
      some (statusBetween T₁ T p) := by
  have hcreated := h.faithful.created_iff p hp
  have hdeleted := h.faithful.deleted_iff p hp
  by_cases hT : T.Has p
  · obtain ⟨i, hi⟩ := DirTree.has_iff_lookup.mp hT
    by_cases hT₁ : T₁.Has p
    · obtain ⟨i₁, hi₁⟩ := DirTree.has_iff_lookup.mp hT₁
      simp only [hT, hT₁, not_true_eq_false, and_false, iff_false, Bool.not_eq_true] at hcreated
      simp only [hT, hT₁, not_true_eq_false, and_false, iff_false, Bool.not_eq_true] at hdeleted
      have hdiff : statusBetween T₁ T p = cmpFiles i₁ i := by
        rw [statusBetween, hi₁, hi, diffStatus]
        split_ifs with hzero
        · exact hzero.symm
        · rfl
      rw [hdiff]
      -- the entry says the file was touched: it is compared
      by_cases hm : (files.get p).modified = true
      · obtain ⟨c₁, hc₁, rfl⟩ := Option.map_eq_some_iff.mp hi₁
        obtain ⟨c, hc, rfl⟩ := Option.map_eq_some_iff.mp hi
        obtain ⟨d₁, hd₁, hstat₁⟩ := statBasename_of_find hp hc₁
        obtain ⟨d, hd, hstat⟩ := statBasename_of_find hp hc
        rw [TreeNode.checkStatus_modified hcreated hdeleted (h.no_type p) hm hd₁ hd, hstat₁, hstat]
        rfl
      -- an empty status stays empty, and then the trees agree there
      · have hzero := eq_zero_of_not_modified hcreated hdeleted (h.no_type p) (by simpa using hm)
        rw [hzero, TreeNode.checkStatus_zero, h.noticed p i₁ i hp hi₁ hi hzero]
        rfl
    · have hnone : T₁.root.lookup p = none := by
        by_contra hsome
        exact hT₁ (DirTree.has_iff_lookup.mpr (Option.ne_none_iff_exists'.mp hsome))
      rw [TreeNode.checkStatus_created (hcreated.mpr ⟨hT, hT₁⟩), statusBetween, hnone, hi]
      rfl
  · have hT₁ : T₁.Has p := (h.grounded p hp hhas).resolve_left hT
    obtain ⟨i₁, hi₁⟩ := DirTree.has_iff_lookup.mp hT₁
    have hnone : T.root.lookup p = none := by
      by_contra hsome
      exact hT (DirTree.has_iff_lookup.mpr (Option.ne_none_iff_exists'.mp hsome))
    simp only [hT, false_and, iff_false, Bool.not_eq_true] at hcreated
    rw [TreeNode.checkStatus_deleted hcreated (hdeleted.mpr ⟨hT₁, hT⟩), statusBetween, hnone, hi₁]
    rfl

/-- Where there is no node nothing differs. -/
theorem Tracks.has_of_differs {files : TreeNode} (h : Tracks T₁ T files) (hp : p ≠ [])
    {status : Status} (hdiff : diffStatus (T₁.root.lookup p) (T.root.lookup p) = some status) :
    files.Has p := by
  by_contra hno
  have hsame := h.faithful.no_node hp hno
  rw [DirTree.has_iff_lookup, DirTree.has_iff_lookup] at hsame
  cases hi₁ : T₁.root.lookup p with
  | none =>
    cases hi : T.root.lookup p with
    | none => simp [hi₁, hi, diffStatus] at hdiff
    | some i => simp [hi₁, hi] at hsame
  | some i₁ =>
    cases hi : T.root.lookup p with
    | none => simp [hi₁, hi] at hsame
    | some i =>
      have hzero := h.noticed p i₁ i hp hi₁ hi (Trie.get_of_not_has hno)
      simp [hi₁, hi, diffStatus, hzero] at hdiff

/-- A difference has at least one bit, also when a file is in one tree only. -/
theorem ne_zero_of_diffStatus {a b : Option Inode} {status : Status}
    (h : diffStatus a b = some status) : status ≠ 0 := by
  cases a <;> cases b <;> simp only [diffStatus] at h
  · cases h
  · cases h
    exact Status.CREATED_ne_zero
  · cases h
    exact Status.DELETED_ne_zero
  · split_ifs at h with hzero
    cases h
    exact hzero

theorem statusBetween_eq_iff {status : Status} (hne : status ≠ 0) :
    statusBetween T₁ T p = status ↔
      diffStatus (T₁.root.lookup p) (T.root.lookup p) = some status := by
  rw [statusBetween]
  cases diffStatus (T₁.root.lookup p) (T.root.lookup p) with
  | none => simpa using hne.symm
  | some status' => simp

/-- A path that differs is in one of the trees, and so its names are valid file names. -/
theorem valid_of_differs {T₁ T : DirTree} {status : Status}
    (h : diffStatus (T₁.root.lookup p) (T.root.lookup p) = some status) : ∀ n ∈ p, ValidName n := by
  have hfound : T₁.Has p ∨ T.Has p := by
    rw [DirTree.has_iff_lookup, DirTree.has_iff_lookup]
    cases hi₁ : T₁.root.lookup p <;> cases hi : T.root.lookup p <;> simp_all [diffStatus]
  obtain hhas | hhas := hfound
  · obtain ⟨c, hc⟩ := Option.isSome_iff_exists.mp hhas
    exact T₁.wf.validName hc
  · obtain ⟨c, hc⟩ := Option.isSome_iff_exists.mp hhas
    exact T.wf.validName hc

theorem reportName_of_differs {T₁ T : DirTree} {status : Status} (hp : p ≠ [])
    (h : diffStatus (T₁.root.lookup p) (T.root.lookup p) = some status) :
    slash :: TreeNode.textBelow [] p = pathName p :=
  TreeNode.slash_textBelow hp fun n hn => (valid_of_differs h n hn).ne_nil

/-- The report is the list of all differences. -/
theorem report_iff {s : StreamProcessor} (h : Tracks s.dir1 T s.files) :
    ∃ reports, s.report T = some reports ∧ ∀ name status, (name, status) ∈ reports ↔
      ∃ p, p ≠ [] ∧ name = pathName p ∧
        diffStatus (s.dir1.root.lookup p) (T.root.lookup p) = some status := by
  have hmem (p : Path) (status : Status) : (p, status) ∈ s.files.nodes ↔
      p ≠ [] ∧ s.files.Has p ∧ s.files.get p = status := by
    rw [Trie.mem_nodes s.ordered]
    refine and_congr_right fun _ => ?_
    constructor
    · intro ⟨c, hc, hv⟩
      exact ⟨Trie.has_iff.mpr ⟨c, hc⟩, (Trie.get_of_find hc).trans hv⟩
    · intro ⟨hhas, hv⟩
      obtain ⟨c, hc⟩ := Trie.has_iff.mp hhas
      exact ⟨c, hc, (Trie.get_of_find hc).symm.trans hv⟩
  obtain ⟨checked, hchecked, hnodes⟩ :=
    TreeNode.check_nodes (g := fun p _ => statusBetween s.dir1 T p) [] s.files fun e he => by
      obtain ⟨hp, hhas, hstatus⟩ := (hmem e.1 e.2).mp he
      rw [List.nil_append, ← hstatus]
      exact h.checkStatus_eq hp hhas
  refine ⟨TreeNode.result [] checked, by rw [StreamProcessor.report, hchecked]; rfl, ?_⟩
  intro name status
  rw [TreeNode.mem_result, hnodes]
  constructor
  · intro ⟨p, hp, hne, hname⟩
    obtain ⟨e, he, heq⟩ := List.mem_map.mp hp
    obtain ⟨rfl, hv⟩ := Prod.mk.inj heq
    have hdiff := (statusBetween_eq_iff hne).mp hv
    have hnil := ((hmem e.1 e.2).mp he).1
    exact ⟨e.1, hnil, hname.trans (reportName_of_differs hnil hdiff), hdiff⟩
  · intro ⟨p, hp, hname, hdiff⟩
    -- a difference is never an empty status, so that the report keeps the entry
    have hne := ne_zero_of_diffStatus hdiff
    refine ⟨p, List.mem_map.mpr ⟨(p, s.files.get p), ?_, ?_⟩, hne,
      hname.trans (reportName_of_differs hp hdiff).symm⟩
    · exact (hmem _ _).mpr ⟨hp, h.has_of_differs hp hdiff, rfl⟩
    · exact congrArg (Prod.mk p) ((statusBetween_eq_iff hne).mpr hdiff)

/-! ## The two comparisons -/

/-- The fast path reports what `cmpDirs` reports. -/
def Agrees (T₁ : SnapshotTree) (st : Streaming) : Prop :=
  ∃ reports, st.2.report st.1.toDirTree = some reports ∧
    ∀ name status, (name, status) ∈ reports ↔ (name, status) ∈ cmpDirs T₁.root st.1.root

/-- Nothing differs at or below the directory that the comparison leaves out. -/
def SameSnapshots (T₁ T : DirTree) : Prop :=
  ∀ p, Ignored p → diffStatus (T₁.root.lookup p) (T.root.lookup p) = none

/-! ## A tree of one file -/

/-- An empty file with this mode and inode number. -/
def fileInode (mode : BitVec 12) (ino : Nat) : Inode :=
  { fmt := .reg, perm := mode, uid := 0, gid := 0, mtimeSec := 0, mtimeNsec := 0, size := 0,
    dev := 1, ino := ino, data := some [] }

theorem flat_one (mode : BitVec 12) : Flat [(str "f", fileInode mode 1)] := by
  refine ⟨List.nodup_singleton _, fun e he => ?_⟩
  have hvalid : ValidName (str "f") := by decide
  rw [List.mem_singleton.mp he]
  exact ⟨hvalid, rfl⟩

/-- The regular file `/f` -/
def oneFile (mode : BitVec 12) : SnapshotTree := flat [(str "f", fileInode mode 1)] (flat_one mode)

/-- A snapshot without a file. -/
def noFile : SnapshotTree := flat [] (by decide)

/-- Every snapshot is a copy of itself. -/
theorem copies_self (T : DirTree) : Copies T T := by
  intro p
  cases hi : T.root.lookup p with
  | none => exact Or.inl ⟨rfl, rfl⟩
  | some i => exact Or.inr ⟨i, i, rfl, rfl, rfl⟩

/-- Apart from the file there is the directory alone. -/
theorem lookup_oneFile_none (mode : BitVec 12) {q : Path} (hnil : q ≠ []) (hf : q ≠ [str "f"]) :
    (oneFile mode).root.lookup q = none := by
  apply lookup_flat_none (flat_one mode) hnil
  intro n hn
  rw [List.mem_singleton.mp hn]
  exact hf

/-- The tree with one file has its root and this file, and no other path. -/
theorem lookup_oneFile (mode : BitVec 12) {q : Path} {i : Inode}
    (h : (oneFile mode).root.lookup q = some i) :
    (q = [] ∧ i = (dirOf []).inode) ∨ (q = [str "f"] ∧ i = fileInode mode 1) := by
  by_cases hnil : q = []
  · subst hnil
    exact Or.inl ⟨rfl, (Option.some.inj h).symm⟩
  · by_cases hf : q = [str "f"]
    · subst hf
      exact Or.inr ⟨rfl, (Option.some.inj h).symm⟩
    · rw [lookup_oneFile_none mode hnil hf] at h
      cases h

/-- The command changes the mode of the file and leaves the rest of the tree. -/
theorem chmod_applies : Command.Step (oneFile 0o644).toDirTree (oneFile 0o600).toDirTree
    (.chmod [str "f"] 0o600) := by
  refine ⟨fileInode 0o644 1, rfl, fun q j hj hino => ?_, fun q hq => ?_⟩
  · obtain ⟨rfl, rfl⟩ | ⟨rfl, rfl⟩ := lookup_oneFile _ hj
    · cases hino
    · exact ⟨fileInode 0o600 1, rfl, rfl⟩
  · apply keptAt_of_eq
    by_cases hnil : q = []
    · subst hnil
      rfl
    · have hf : q ≠ [str "f"] := by
        rintro rfl
        exact hq (fileInode 0o644 1) rfl rfl
      rw [lookup_oneFile_none 0o644 hnil hf, lookup_oneFile_none 0o600 hnil hf]

theorem unlink_applies : Command.Step (oneFile 0o600).toDirTree noFile.toDirTree
    (.unlink [str "f"]) :=
  ⟨fileInode 0o600 1, @removes_flat [] [] _ _ (flat_one _) (by decide), by decide⟩

/-! ## When they agree -/

/-- In every run whose commands meet the condition the fast path agrees with the plain comparison
exactly when nothing differs in the directory that the latter leaves out. -/
theorem fast_path_agrees_iff (T₁ T₀ : SnapshotTree) (hcopy : Copies T₁.toDirTree T₀.toDirTree)
    (l : List (Command × SnapshotTree))
    (happlies : Along Applies streamStep l (T₀, .start T₁.toDirTree))
    (hkeeps : Along Keeps streamStep l (T₀, .start T₁.toDirTree)) :
    Agrees T₁ (l.foldl streamStep (T₀, .start T₁.toDirTree)) ↔
      SameSnapshots T₁.toDirTree (l.foldl streamStep (T₀, .start T₁.toDirTree)).1.toDirTree := by
  obtain ⟨hdir1, htracks⟩ := tracks_run hcopy happlies hkeeps
  generalize l.foldl streamStep (T₀, .start T₁.toDirTree) = st at hdir1 htracks ⊢
  obtain ⟨T, s⟩ := st
  simp only at hdir1 htracks ⊢
  obtain ⟨reports, hreports, hmem⟩ := report_iff (hdir1 ▸ htracks)
  have hplain := (cmpDirs_reports T₁ T).mem_iff
  rw [hdir1] at hmem
  constructor
  · intro ⟨reports', hreports', hagree⟩ p hign
    obtain rfl := Option.some.inj (hreports.symm.trans hreports')
    -- an ignored path that differs is reported here and not by the other comparison
    by_contra hdiffers
    obtain ⟨status, hdiff⟩ := Option.ne_none_iff_exists'.mp hdiffers
    have hp : p ≠ [] := by
      rintro rfl
      cases hign
    obtain ⟨p', hname, -, hign', hdiff'⟩ := (hplain _ _).mp
      ((hagree _ _).mp ((hmem (pathName p) status).mpr ⟨p, hp, rfl, hdiff⟩))
    have heq := pathName_injective (fun n hn => (valid_of_differs hdiff n hn).no_slash)
      (fun n hn => (valid_of_differs hdiff' n hn).no_slash) hname
    exact hign' (heq ▸ hign)
  · intro hsame
    refine ⟨reports, hreports, fun name status => ?_⟩
    rw [hmem, hplain]
    constructor
    · intro ⟨p, hp, hname, hdiff⟩
      refine ⟨p, hname, hp, fun hign => ?_, hdiff⟩
      cases (hsame p hign).symm.trans hdiff
    · intro ⟨p, hname, hp, _, hdiff⟩
      exact ⟨p, hp, hname, hdiff⟩

/-- The files `/f` and `/g` -/
def bothFiles : SnapshotTree :=
  flat [(str "f", fileInode 0o644 1), (str "g", fileInode 0o600 2)] (by decide)

/-- The file `/g` alone -/
def otherFile : SnapshotTree := flat [(str "g", fileInode 0o600 2)] (by decide)

theorem mkfile_applies : Command.Step (oneFile 0o644).toDirTree bothFiles.toDirTree
    (.mkfile [str "g"]) := by
  refine ⟨fileInode 0o600 2, @creates_flat [(str "f", fileInode 0o644 1)] [] _ _ _ (flat_one _),
    rfl, fun q j hj => ?_⟩
  obtain ⟨-, rfl⟩ | ⟨-, rfl⟩ := lookup_oneFile _ hj <;> decide

theorem unlink_other_applies : Command.Step bothFiles.toDirTree otherFile.toDirTree
    (.unlink [str "f"]) :=
  ⟨fileInode 0o644 1, @removes_flat [] [(str "g", fileInode 0o600 2)] _ _ _ _, by decide⟩

/-- `mkfile g` and `unlink f`: one file comes and another one goes, and both are reported. -/
theorem fast_path_agrees_iff_replaced :
    Agrees (oneFile 0o644)
      ([(.mkfile [str "g"], bothFiles), (.unlink [str "f"], otherFile)].foldl streamStep
        (oneFile 0o644, .start (oneFile 0o644).toDirTree)) := by
  refine (fast_path_agrees_iff (oneFile 0o644) (oneFile 0o644) (copies_self _)
    [(.mkfile [str "g"], bothFiles), (.unlink [str "f"], otherFile)]
    ⟨mkfile_applies, unlink_other_applies, trivial⟩ ⟨trivial, ?_, trivial⟩).mpr fun p hign => ?_
  · -- nothing was noted for the file that goes
    intro hhas
    exact absurd hhas (by decide)
  · have hnil : p ≠ [] := fun h => by simp [h, Ignored] at hign
    have hnot : ∀ n, n = str "f" ∨ n = str "g" → p ≠ [n] := by
      rintro n (rfl | rfl) rfl
      · exact absurd hign (by decide)
      · exact absurd hign (by decide)
    show diffStatus ((oneFile 0o644).root.lookup p) (otherFile.root.lookup p) = none
    have hother : otherFile.root.lookup p = none :=
      lookup_flat_none _ hnil fun n hn => hnot n (Or.inr (List.mem_singleton.mp hn))
    rw [lookup_oneFile_none 0o644 hnil (hnot _ (Or.inl rfl)), hother]
    rfl

/-- `chmod f` and `unlink f`: the node of the file is erased and nothing is reported. -/
theorem fast_path_loses_removed :
    ¬∀ (T₁ T₀ : SnapshotTree) (l : List (Command × SnapshotTree)),
      Copies T₁.toDirTree T₀.toDirTree →
      Along Applies streamStep l (T₀, .start T₁.toDirTree) →
      Agrees T₁ (l.foldl streamStep (T₀, .start T₁.toDirTree)) := by
  intro h
  obtain ⟨reports, hreports, hagree⟩ := h (oneFile 0o644) (oneFile 0o644)
    [(.chmod [str "f"] 0o600, oneFile 0o600), (.unlink [str "f"], noFile)]
    (copies_self _) ⟨chmod_applies, unlink_applies, trivial⟩
  have hnothing : reports = [] := (Option.some.inj hreports).symm
  -- `cmpDirs` reports the file as deleted
  have hplain : (pathName [str "f"], Status.DELETED) ∈ cmpDirs (oneFile 0o644).root noFile.root :=
    ((cmpDirs_reports (oneFile 0o644) noFile).mem_iff _ _).mpr
      ⟨[str "f"], rfl, by simp, by decide, rfl⟩
  rw [hnothing] at hagree
  exact absurd ((hagree _ _).mpr hplain) List.not_mem_nil

end Snapper.Btrfs
