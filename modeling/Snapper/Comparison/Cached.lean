import Snapper.Compare.Symmetry
import Snapper.Comparison.RoundTrip

/-!
# A cached comparison is a fresh one

The file list that one comparison of two snapshots saves serves later comparisons of
them in both directions.

## Structure of the proof

- `create_swap`: the comparison in the other direction has the inverted entries
- `saveText_invert`: so the text it saves is the same
- `load_save_create`: the round trip of the format then gives back either direction
-/

namespace Snapper

/-- The entries with inverted statuses. -/
def invertFiles (files : List File) : List File :=
  files.map fun file => { file with preToPostStatus := file.preToPostStatus.invert }

/-! ## The other direction -/

theorem appendReports_invertReports (reports : List Report) :
    appendReports (invertReports reports) = invertFiles (appendReports reports) := by
  simp [appendReports, invertReports, invertFiles, Function.comp_def]

/-- Sorting looks at the names only. -/
theorem sortFiles_invertFiles (files : List File) :
    sortFiles (invertFiles files) = invertFiles (sortFiles files) := by
  unfold sortFiles invertFiles
  symm
  apply List.map_insertionSort
  intro a _ b _
  exact Iff.rfl

/-- The comparison of the exchanged snapshots has the same entries with inverted statuses. -/
theorem create_swap (a b : ComparedSnapshot) : create b a = invertFiles (create a b) := by
  unfold create compareTrees
  rw [cmpDirs_swap, appendReports_invertReports, sortFiles_invertFiles]

/-- Inverted entries written with the other direction are the same text. -/
theorem saveText_invert {files : List File} (hst : ∀ file ∈ files, file.preToPostStatus.Reported)
    (invert : Bool) : saveText (!invert) (invertFiles files) = saveText invert files := by
  unfold saveText invertFiles
  rw [List.flatMap_map]
  apply List.flatMap_congr
  intro file hfile
  have hback := (hst file hfile).invert_invert
  cases invert with
  | false => simp [fileRecord, hback]
  | true => simp [fileRecord]

/-! ## A created list -/

theorem filesSorted_create (a b : ComparedSnapshot) : FilesSorted (create a b) := by
  have : IsTrans File fun x y => x.name ≤ y.name := ⟨fun _ _ _ => le_trans⟩
  have : Std.Total fun x y : File => x.name ≤ y.name := ⟨fun x y => le_total x.name y.name⟩
  exact List.pairwise_insertionSort _ _

theorem mem_create {a b : ComparedSnapshot} {file : File} :
    file ∈ create a b ↔
      ∃ report ∈ cmpDirs a.dir.root b.dir.root,
        { name := report.1, preToPostStatus := report.2 } = file := by
  unfold create compareTrees sortFiles appendReports
  rw [List.mem_insertionSort, List.mem_map]

/-- The entries of a comparison are what a file list can hold when no name in the trees
contains a newline. -/
theorem create_clean {a b : ComparedSnapshot} (ha : a.dir.root.Names (newline ∉ ·))
    (hb : b.dir.root.Names (newline ∉ ·)) {file : File} (hfile : file ∈ create a b) :
    newline ∉ file.name ∧ 0 ∉ file.name ∧ file.preToPostStatus.Reported := by
  obtain ⟨report, hreport, rfl⟩ := mem_create.mp hfile
  have hnames : ∀ {t : DirTree}, t.root.Names (newline ∉ ·) →
      t.root.Names fun n => newline ∉ n ∧ 0 ∉ n := by
    intro t ht
    -- a valid name has no NUL
    have hnul : t.root.Names (0 ∉ ·) :=
      Tree.All.mono (fun i ns h n hn => (h.valid n hn).no_nul) t.wf
    exact Tree.All.and ht hnul (fun i ns h h' n hn => ⟨h n hn, h' n hn⟩)
  obtain ⟨⟨p, _, hp, hname⟩, hst⟩ := cmpDirs_named (hnames ha) (hnames hb) report hreport
  have hsep : slash ≠ newline ∧ slash ≠ 0 := by decide
  have hclean : ∀ c : UInt8, slash ≠ c → (∀ n ∈ p, c ∉ n) → c ∉ report.1 := by
    intro c hc hn hmem
    rw [hname, List.nil_append] at hmem
    obtain ⟨n, hnp, hmem⟩ := List.mem_flatMap.mp hmem
    obtain rfl | hmem := List.mem_cons.mp hmem
    · exact hc rfl
    · exact hn n hnp hmem
  exact ⟨hclean newline hsep.1 fun n hn => (hp n hn).1, hclean 0 hsep.2 fun n hn => (hp n hn).2,
    hst⟩

/-- A list without marks is the list of its reports. -/
theorem appendReports_entries {files : List File} (h : ∀ file ∈ files, file.undo = false) :
    appendReports (entries files) = files := by
  unfold appendReports entries
  rw [List.map_map]
  conv_rhs => rw [← List.map_id files]
  apply List.map_congr_left
  intro file hfile
  obtain ⟨name, status, undo⟩ := file
  have hundo : undo = false := h _ hfile
  rw [hundo]
  rfl

theorem undo_of_mem_create {a b : ComparedSnapshot} {file : File} (h : file ∈ create a b) :
    file.undo = false := by
  obtain ⟨report, _, rfl⟩ := mem_create.mp h
  rfl

/-! ## The cache -/

/-- Exchanging the snapshots does not change where their file list is kept. -/
theorem filelistKey_comm (num1 num2 : Nat) : filelistKey num1 num2 = filelistKey num2 num1 := by
  obtain hlt | rfl | hlt := Nat.lt_trichotomy num1 num2
  · simp [filelistKey, hlt, Nat.le_of_lt hlt]
  · rfl
  · simp [filelistKey, hlt, Nat.le_of_lt hlt]

/-- Both directions save the same file list. -/
theorem save_create_swap {a b : ComparedSnapshot} (hab : a.num ≠ b.num)
    (hst : ∀ file ∈ create a b, file.preToPostStatus.Reported) (infos : Infos) :
    save b.num a.num (create b a) infos = save a.num b.num (create a b) infos := by
  have hinvert : decide (b.num > a.num) = !decide (a.num > b.num) := by
    rw [← decide_not, decide_eq_decide]
    omega
  have hcur : (isCurrent b.num || isCurrent a.num) = (isCurrent a.num || isCurrent b.num) :=
    Bool.or_comm ..
  unfold save
  rw [create_swap, hinvert, saveText_invert hst, filelistKey_comm, hcur]

/-- The list loaded from the cache is the list a fresh comparison creates, in whichever
direction the saved comparison was made. -/
theorem load_save_create {a b x y : ComparedSnapshot} (ha : a.num ≠ 0) (hb : b.num ≠ 0)
    (hab : a.num ≠ b.num) (hna : a.dir.root.Names (newline ∉ ·))
    (hnb : b.dir.root.Names (newline ∉ ·)) (hxy : (x = a ∧ y = b) ∨ (x = b ∧ y = a))
    (infos : Infos) :
    ∃ infos', save x.num y.num (create x y) infos = .ok infos' ∧
      load a.num b.num infos' = .ok (some (create a b)) := by
  have hclean : ∀ file ∈ create a b,
      newline ∉ file.name ∧ 0 ∉ file.name ∧ file.preToPostStatus.Reported :=
    fun file hfile => create_clean hna hnb hfile
  have hst : ∀ file ∈ create a b, file.preToPostStatus.Reported :=
    fun file hfile => (hclean file hfile).2.2
  obtain ⟨infos', hsave, hload⟩ := load_save_of_no_newline ha hb (filesSorted_create a b)
    (fun file hfile => (hclean file hfile).1) (fun file hfile => (hclean file hfile).2.1) hst infos
  rw [appendReports_entries fun file hfile => undo_of_mem_create hfile] at hload
  refine ⟨infos', ?_, hload⟩
  obtain ⟨rfl, rfl⟩ | ⟨rfl, rfl⟩ := hxy
  · exact hsave
  · rw [save_create_swap hab hst]
    exact hsave

/-- A comparison that finds no file list saves one with which every later comparison of the
two snapshots, in either direction and with any ignore patterns, has the files of a fresh one. -/
theorem newComparison_cached {a b x y : ComparedSnapshot} (ha : a.num ≠ 0) (hb : b.num ≠ 0)
    (hab : a.num ≠ b.num) (hna : a.dir.root.Names (newline ∉ ·))
    (hnb : b.dir.root.Names (newline ∉ ·)) (hxy : (x = a ∧ y = b) ∨ (x = b ∧ y = a))
    (fnmatch : Str → Str → Bool) (patterns patterns' : List Str) {infos : Infos}
    (hnone : infos (filelistKey x.num y.num) = none) :
    ∃ files infos', newComparison fnmatch patterns' x y infos = .ok (files, infos') ∧
      newComparison fnmatch patterns a b infos' =
        .ok (filterFiles fnmatch patterns (create a b), infos') := by
  obtain ⟨infos', hsave, hload⟩ := load_save_create ha hb hab hna hnb hxy infos
  have hcur : ∀ s : ComparedSnapshot, (s = a ∨ s = b) → isCurrent s.num = false := by
    intro s hs
    obtain rfl | rfl := hs
    · simp [isCurrent, ha]
    · simp [isCurrent, hb]
  have hx : isCurrent x.num = false := hcur x (by tauto)
  have hy : isCurrent y.num = false := hcur y (by tauto)
  have hne : x.num ≠ y.num := by
    obtain ⟨rfl, rfl⟩ | ⟨rfl, rfl⟩ := hxy
    · exact hab
    · exact hab.symm
  -- nothing is cached for the two, in whatever order they are asked for
  have hmiss : load x.num y.num infos = .ok none := by
    simp [load, hx, hy, hnone]
  refine ⟨filterFiles fnmatch patterns' (create x y), infos', ?_, ?_⟩
  · simp [newComparison, hne, hx, hy, hmiss, hsave, bind, Except.bind, pure, Except.pure]
  · simp [newComparison, hab, hcur a (Or.inl rfl), hcur b (Or.inr rfl), hload, bind, Except.bind,
      pure, Except.pure]

/-- The files of a comparison loaded from the file list of an earlier one, made in the same or
in the other direction, are those of a comparison created afresh. -/
theorem load_eq_create {a b x y : ComparedSnapshot} (ha : a.num ≠ 0) (hb : b.num ≠ 0)
    (hab : a.num ≠ b.num) (hna : a.dir.root.Names (newline ∉ ·))
    (hnb : b.dir.root.Names (newline ∉ ·)) (hxy : (x = a ∧ y = b) ∨ (x = b ∧ y = a))
    (fnmatch : Str → Str → Bool) (ignorePatterns : List Str) (infos : Infos) :
    ∃ infos' files, save x.num y.num (create x y) infos = .ok infos' ∧
      load a.num b.num infos' = .ok (some files) ∧
      entries (filterFiles fnmatch ignorePatterns files) =
        entries (filterFiles fnmatch ignorePatterns (create a b)) := by
  obtain ⟨infos', hsave, hload⟩ := load_save_create ha hb hab hna hnb hxy infos
  exact ⟨infos', create a b, hsave, hload, rfl⟩

/-- An empty directory. -/
private def emptyRoot : Inode :=
  { fmt := .dir, perm := 0o755, uid := 0, gid := 0, mtimeSec := 0, mtimeNsec := 0, size := 0,
    dev := 1, ino := 256, data := none }

private theorem emptyRoot_wf : (Tree.node emptyRoot []).WF :=
  .node ⟨by simp, by simp, by simp⟩ (by simp)

private theorem filesRoot_wf : (Tree.node emptyRoot [(str "f g", .node emptyRoot [])]).WF :=
  .node ⟨by decide, by decide, fun _ => rfl⟩ (List.forall_mem_singleton.mpr emptyRoot_wf)

/-- Snapshot 4 has a directory that snapshot 7 lacks; the list saved by the comparison of 7
with 4 serves the comparison of 4 with 7. -/
theorem load_eq_create_reverse :
    ∃ infos' files,
      save 7 4 (create ⟨7, _, emptyRoot_wf, rfl⟩ ⟨4, _, filesRoot_wf, rfl⟩) (fun _ => none) =
        .ok infos' ∧
      load 4 7 infos' = .ok (some files) ∧
      entries (filterFiles (fun _ _ => false) [str "/x"] files) =
        entries (filterFiles (fun _ _ => false) [str "/x"]
          (create ⟨4, _, filesRoot_wf, rfl⟩ ⟨7, _, emptyRoot_wf, rfl⟩)) := by
  have hempty : (Tree.node emptyRoot []).Names (newline ∉ ·) := .node (by simp) (by simp)
  have hfiles : (Tree.node emptyRoot [(str "f g", .node emptyRoot [])]).Names (newline ∉ ·) :=
    .node (by decide) (List.forall_mem_singleton.mpr hempty)
  exact load_eq_create (a := ⟨4, ⟨_, filesRoot_wf, rfl⟩⟩) (b := ⟨7, ⟨_, emptyRoot_wf, rfl⟩⟩)
    (by decide) (by decide) (by decide) hfiles hempty (Or.inr ⟨rfl, rfl⟩) _ _ _

end Snapper
