import Snapper.Undo.Run
import Snapper.Undo.Step

/-!
# Plain trees on the running system

The setting of a complete undo: the pre and the post snapshot are trees of directories,
regular files and symlinks, and the subvolume holds the post tree.
-/

namespace Snapper

/-- A tree of directories, regular files and symlinks on one device. -/
structure PlainTree extends SnapshotTree where
  plain : root.All fun i _ => i.Real ∧ i.fmt.Ordinary

/-- The targets of the symlinks fit the buffer of `readlink`. -/
def Tree.ShortTargets (t : Tree) : Prop :=
  t.All fun i _ => i.fmt = .lnk → i.stored.length ≤ 1024

/-- What makes the content comparison trust `stat`: files of one `mtime`, and of course the
same file, have the same content. -/
structure SameContent (t1 t2 : Tree) : Prop where
  mtime : ∀ p f1 f2, t1.lookup p = some f1 → t2.lookup p = some f2 → f1.fmt = f2.fmt →
    sameMtime f1.toStat f2.toStat = true → f1.stored = f2.stored
  ino : ∀ p f1 f2, t1.lookup p = some f1 → t2.lookup p = some f2 → f1.fmt = f2.fmt →
    f1.dev = f2.dev ∧ f1.ino = f2.ino → f1.stored = f2.stored

/-- The paths of a comparison whose subvolume is at `sub`. -/
def undoPaths (pre : Tree) (sub : Path) : FilePaths :=
  { pre := pre, systemPath := subvolumePath sub }

/-- The subvolume at `sub` holds the tree. -/
structure SystemAt (fs : Fs) (sub : Path) (t : Tree) : Prop where
  above : ∀ r, r <+: sub → fs.isDir r = true
  files : ∀ p, fs.find (sub ++ p) = (t.lookup p).map Inode.node

/-! ## Shapes -/

/-- The type of a file with its content or target. -/
def Inode.shape (i : Inode) : FileType × Str := (i.fmt, i.stored)

/-- Type and content of what is at a path. -/
def Tree.shape (t : Tree) (p : Path) : Option (FileType × Str) := (t.lookup p).map Inode.shape

/-- The type of the file at a path. -/
def Fs.kind (fs : Fs) (q : Path) : Option FileType := (fs.find q).map fun n => n.fmt

/-- The type of what is at a path. -/
def Tree.kind (t : Tree) (p : Path) : Option FileType := (t.lookup p).map fun i => i.fmt

theorem Fs.isDir_iff_kind {fs : Fs} {q : Path} : fs.isDir q = true ↔ fs.kind q = some .dir := by
  rw [isDir_iff, kind, Option.map_eq_some_iff]

theorem Fs.kind_eq_none {fs : Fs} {q : Path} : fs.kind q = none ↔ fs.find q = none :=
  Option.map_eq_none_iff

theorem SystemAt.kind {fs : Fs} {sub : Path} {t : Tree} (h : SystemAt fs sub t) (p : Path) :
    fs.kind (sub ++ p) = t.kind p := by
  unfold Fs.kind Tree.kind
  rw [h.files, Option.map_map]
  rfl

theorem SystemAt.shape {fs : Fs} {sub : Path} {t : Tree} (h : SystemAt fs sub t) (p : Path) :
    fs.shape (sub ++ p) = t.shape p := by
  unfold Fs.shape Tree.shape
  rw [h.files, Option.map_map]
  rfl

/-! ## Files of plain trees -/

theorem all_lookup {P : Inode → Prop} {t : Tree} (h : t.All fun i _ => P i) {p : Path} {i : Inode}
    (hi : t.lookup p = some i) : P i := by
  obtain ⟨c, hc, rfl⟩ := lookup_eq_some_iff.mp hi
  exact (h.of_find hc).root

namespace PlainTree

variable {t : PlainTree} {p : Path} {i : Inode}

theorem real (h : t.root.lookup p = some i) : i.Real := (all_lookup t.plain h).1

theorem ordinary (h : t.root.lookup p = some i) : i.fmt.Ordinary := (all_lookup t.plain h).2

/-- Above a file of the tree there are directories. -/
theorem lookup_above (h : t.root.lookup p = some i) {r : Path} (hr : r <+: p) (hne : r ≠ p) :
    ∃ d, t.root.lookup r = some d ∧ d.fmt = .dir := by
  obtain ⟨s, rfl⟩ := hr
  obtain ⟨c, hc, _⟩ := lookup_eq_some_iff.mp h
  rw [Tree.find_append] at hc
  obtain ⟨d, hd, hs⟩ := Option.bind_eq_some_iff.mp hc
  refine ⟨d.inode, lookup_eq_some_iff.mpr ⟨d, hd, rfl⟩, ?_⟩
  cases s with
  | nil => exact absurd (List.append_nil r).symm hne
  | cons n s => exact Tree.WF.isDir_of_find_cons (t.wf.of_find hd) hs

/-- Nothing is below a file that is not a directory. -/
theorem lookup_below (h : ∀ d, t.root.lookup p = some d → d.fmt ≠ .dir) (c : Name) :
    t.root.lookup (p ++ [c]) = none := by
  cases hc : t.root.lookup (p ++ [c]) with
  | none => rfl
  | some i =>
    obtain ⟨d, hd, hdir⟩ := lookup_above hc (List.prefix_append p [c]) (by simp)
    exact absurd hdir (h d hd)

theorem lookup_root : ∃ d, t.root.lookup [] = some d ∧ d.fmt = .dir :=
  ⟨t.root.inode, lookup_nil t.root, t.isDir⟩

theorem kind_above (h : t.root.lookup p = some i) {r : Path} (hr : r <+: p) (hne : r ≠ p) :
    t.root.kind r = some .dir := by
  obtain ⟨d, hd, hdir⟩ := lookup_above h hr hne
  simp [Tree.kind, hd, hdir]

/-- Nothing is below a name that the root does not have. -/
theorem shape_of_ignored (h : t.root.lookup [str ".snapshots"] = none) (hp : Ignored p) :
    t.root.shape p = none := by
  cases hi : t.root.lookup p with
  | none => simp [Tree.shape, hi]
  | some i =>
    cases p with
    | nil => cases hp
    | cons n p =>
      have hn : n = str ".snapshots" := by simpa [Ignored] using hp
      subst hn
      by_cases hnil : p = []
      · rw [hnil, h] at hi
        cases hi
      · obtain ⟨d, hd, _⟩ := lookup_above hi (r := [str ".snapshots"]) ⟨p, rfl⟩
          (by simpa using Ne.symm hnil)
        rw [h] at hd
        cases hd

/-- A directory has nothing stored. -/
theorem shape_of_dir (h : t.root.lookup p = some i) (hdir : i.fmt = .dir) :
    t.root.shape p = some (.dir, []) := by
  simp [Tree.shape, h, Inode.shape, Inode.stored, hdir]

end PlainTree

/-! ## Equal contents -/

/-- Files found equal in content are equal in what is stored. -/
theorem stored_eq_of_content {f g : Inode} (hf : f.Real) (hg : g.Real) (hord : f.fmt.Ordinary)
    (hfmt : f.fmt = g.fmt) (hshort : f.fmt = .lnk → f.stored.length ≤ 1024)
    (hshort' : g.fmt = .lnk → g.stored.length ≤ 1024)
    (hmtime : sameMtime f.toStat g.toStat = true → f.stored = g.stored)
    (hino : f.dev = g.dev ∧ f.ino = g.ino → f.stored = g.stored)
    (hcontent : (cmpFiles f g).content = false) : f.stored = g.stored := by
  have hequal : cmpFilesContent f g hfmt = true := by
    simpa [cmpFiles, hfmt] using hcontent
  unfold cmpFilesContent at hequal
  unfold Inode.Real at hf hg
  -- nothing is stored in a directory; files compare their bytes and symlinks their targets, unless
  -- the times or the inodes are the same
  obtain hdir | hreg | hlnk := hord
  · simp [Inode.stored, hdir, ← hfmt]
  · rw [hreg] at hequal hf
    rw [← hfmt, hreg] at hg
    obtain ⟨bs, hbs, hsize⟩ := hf
    obtain ⟨bs', hbs', hsize'⟩ := hg
    obtain heq | hm | hsame := eq_of_cmpFilesContentReg hbs hbs' hsize hsize' hequal
    · simp [Inode.stored, hreg, ← hfmt, hbs, hbs', heq]
    · exact hmtime hm
    · exact hino hsame
  · rw [hlnk] at hequal hf
    rw [← hfmt, hlnk] at hg
    obtain ⟨⟨t, ht, htne, _⟩, _⟩ := hf
    obtain ⟨⟨t', ht', htne', _⟩, _⟩ := hg
    have hlen : t.length ≤ 1024 := by simpa [Inode.stored, hlnk, ht] using hshort hlnk
    have hlen' : t'.length ≤ 1024 := by
      simpa [Inode.stored, ← hfmt, hlnk, ht'] using hshort' (hfmt ▸ hlnk)
    obtain heq | hm := eq_of_cmpFilesContentLnk ht ht' htne htne' hequal
    · rw [List.take_of_length_le hlen, List.take_of_length_le hlen'] at heq
      simp [Inode.stored, hlnk, ← hfmt, ht, ht', heq]
    · exact hmtime hm

/-- A content is compared of regular files and symlinks. -/
theorem content_fmt {f g : Inode} (h : (cmpFiles f g).content = true) :
    f.fmt = g.fmt ∧ (f.fmt = .reg ∨ f.fmt = .lnk) := by
  by_cases hfmt : f.fmt = g.fmt
  · refine ⟨hfmt, ?_⟩
    have hdiff : cmpFilesContent f g hfmt = false := by
      simpa [cmpFiles, hfmt] using h
    unfold cmpFilesContent at hdiff
    split at hdiff
    · next hreg => exact Or.inl hreg
    · next hlnk => exact Or.inr hlnk
    · cases hdiff
  · simp [cmpFiles, hfmt] at h

theorem fmt_eq_of_type {f g : Inode} {st : Status} (hst : st = cmpFiles f g)
    (htype : st.type = false) : f.fmt = g.fmt := by
  by_contra hne
  rw [hst, cmpFiles_type.mpr hne] at htype
  cases htype

/-- The mode of a symlink can only have changed together with its type. -/
theorem type_of_link_mode {f g : Inode} (hf : f.Real) (hg : g.Real) (hlnk : f.fmt = .lnk)
    (hperm : (cmpFiles f g).permissions = true) : (cmpFiles f g).type = true := by
  rw [cmpFiles_type]
  intro hfmt
  unfold Inode.Real at hf hg
  rw [hlnk] at hf
  rw [← hfmt, hlnk] at hg
  exact cmpFiles_permissions.mp hperm (hf.2.trans hg.2.symm)

end Snapper
