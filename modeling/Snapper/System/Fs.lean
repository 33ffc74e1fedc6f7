import Mathlib.Data.List.AList
import Mathlib.Data.List.Induction
import Snapper.Compare.Tree

/-!
# The file system of the running system

A file system is a tree of names and a table of inodes.  A name stands for the absolute path
of a file, the list of names from the root; several paths may be names of one inode (hard
links), so that a change of the file made through one of them shows at all of them.  The
bytes of a regular file or the target of a symlink are its `data`.

Every file is in a directory and a directory has one name; the operations that add and remove
names take the proof that they keep it so.

## Main results

* `Sets`: what a change of one file does, to the other names of the file and to all other files.
* `sets_create`, `sets_remove`: one name is added or removed, and nothing else changes.
* `sets_modify`: a change of a file shows at all of its names.
-/

namespace Snapper

/-- The error numbers that matter here; `EIO` also stands for every failure that has no
cause in the directory tree. -/
inductive Errno where
  | enoent | eexist | enotdir | eisdir | enotempty | eloop | enxio | einval | ebusy | eio
  deriving DecidableEq, Repr

/-- A file of the running system. -/
structure Node where
  fmt : FileType
  perm : BitVec 12
  uid : Nat
  gid : Nat
  data : Str
  deriving DecidableEq, Repr

/-- The type of a file with its content or target. -/
def Node.shape (n : Node) : FileType × Str := (n.fmt, n.data)

/-- The names and the inodes of the running system. -/
structure Fs where
  /-- The number of the inode that a path is a name of. -/
  names : AList fun _ : Path => Nat
  inodes : Nat → Node
  root : ∃ i, names.lookup [] = some i ∧ (inodes i).fmt = .dir
  parent : ∀ q c i, names.lookup (q ++ [c]) = some i →
    ∃ j, names.lookup q = some j ∧ (inodes j).fmt = .dir
  /-- A directory has no hard links. -/
  oneName : ∀ q r i, names.lookup q = some i → names.lookup r = some i →
    (inodes i).fmt = .dir → q = r

namespace Fs

/-- What is stored at a path. -/
def find (fs : Fs) (q : Path) : Option Node := (fs.names.lookup q).map fs.inodes

/-- Both paths are names of one file. -/
def Linked (fs : Fs) (q r : Path) : Prop :=
  (fs.names.lookup q).isSome ∧ fs.names.lookup q = fs.names.lookup r

instance (fs : Fs) (q r : Path) : Decidable (fs.Linked q r) :=
  inferInstanceAs (Decidable (_ ∧ _))

/-- A directory is there. -/
def isDir (fs : Fs) (q : Path) : Bool := (fs.find q).any fun n => n.fmt = .dir

/-- A symbolic link is there. -/
def isLnk (fs : Fs) (q : Path) : Bool := (fs.find q).any fun n => n.fmt = .lnk

/-- Some file is in the directory `q`. -/
def hasChild (fs : Fs) (q : Path) : Bool :=
  fs.names.keys.any fun r => r ≠ [] ∧ r.dropLast = q

theorem find_eq_some_iff {fs : Fs} {q : Path} {n : Node} :
    fs.find q = some n ↔ ∃ i, fs.names.lookup q = some i ∧ fs.inodes i = n :=
  Option.map_eq_some_iff

theorem find_eq_none_iff {fs : Fs} {q : Path} : fs.find q = none ↔ fs.names.lookup q = none :=
  Option.map_eq_none_iff

/-! ## Names of one file -/

/-- Two paths are names of one file when they have one inode. -/
theorem linked_iff {fs : Fs} {q r : Path} :
    fs.Linked q r ↔ ∃ i, fs.names.lookup q = some i ∧ fs.names.lookup r = some i := by
  constructor
  · rintro ⟨hq, hsame⟩
    obtain ⟨i, hi⟩ := Option.isSome_iff_exists.mp hq
    exact ⟨i, hi, hsame ▸ hi⟩
  · rintro ⟨i, hq, hr⟩
    exact ⟨by rw [hq]; rfl, hq.trans hr.symm⟩

theorem Linked.symm {fs : Fs} {q r : Path} (h : fs.Linked q r) : fs.Linked r q :=
  ⟨h.2 ▸ h.1, h.2.symm⟩

theorem Linked.trans {fs : Fs} {q r s : Path} (h : fs.Linked q r) (h' : fs.Linked r s) :
    fs.Linked q s := ⟨h.1, h.2.trans h'.2⟩

theorem linked_self {fs : Fs} {q : Path} {n : Node} (h : fs.find q = some n) : fs.Linked q q := by
  obtain ⟨i, hi, -⟩ := find_eq_some_iff.mp h
  exact linked_iff.mpr ⟨i, hi, hi⟩

theorem linked_self_iff {fs : Fs} {q : Path} : fs.Linked q q ↔ (fs.find q).isSome := by
  rw [Linked, find, Option.isSome_map]
  exact and_iff_left rfl

/-- The names of one file show the same. -/
theorem Linked.find {fs : Fs} {q r : Path} (h : fs.Linked q r) : fs.find r = fs.find q := by
  rw [Fs.find, Fs.find, h.2]

/-- What has a second name is no directory. -/
theorem Linked.eq_of_dir {fs : Fs} {q r : Path} (h : fs.Linked q r) {n : Node}
    (hn : fs.find q = some n) (hdir : n.fmt = .dir) : q = r := by
  obtain ⟨i, hq, hr⟩ := linked_iff.mp h
  rw [Fs.find, hq] at hn
  obtain rfl := Option.some.inj hn
  exact fs.oneName q r i hq hr hdir

theorem isDir_iff {fs : Fs} {q : Path} :
    fs.isDir q = true ↔ ∃ n, fs.find q = some n ∧ n.fmt = .dir := by
  simp [isDir, Option.any_eq_true]

theorem isLnk_iff {fs : Fs} {q : Path} :
    fs.isLnk q = true ↔ ∃ n, fs.find q = some n ∧ n.fmt = .lnk := by
  simp [isLnk, Option.any_eq_true]

theorem isDir_of_lookup {fs : Fs} {q : Path} {i : Nat} (h : fs.names.lookup q = some i)
    (hdir : (fs.inodes i).fmt = .dir) : fs.isDir q = true :=
  isDir_iff.mpr ⟨fs.inodes i, find_eq_some_iff.mpr ⟨i, h, rfl⟩, hdir⟩

@[simp] theorem isDir_root (fs : Fs) : fs.isDir [] = true := by
  obtain ⟨i, hi, hdir⟩ := fs.root
  exact isDir_of_lookup hi hdir

theorem isDir_of_find_concat {fs : Fs} {q : Path} {c : Name} {n : Node}
    (h : fs.find (q ++ [c]) = some n) : fs.isDir q = true := by
  obtain ⟨i, hi, -⟩ := find_eq_some_iff.mp h
  obtain ⟨j, hj, hdir⟩ := fs.parent q c i hi
  exact isDir_of_lookup hj hdir

/-- The parent of a directory is a directory; the root is its own. -/
theorem isDir_dropLast {fs : Fs} {q : Path} (h : fs.isDir q = true) :
    fs.isDir q.dropLast = true := by
  by_cases hq : q = []
  · rw [hq]
    exact isDir_root fs
  · obtain ⟨n, hn, _⟩ := isDir_iff.mp h
    rw [← List.dropLast_append_getLast hq] at hn
    exact isDir_of_find_concat hn

theorem isDir_congr {fs fs' : Fs} {q : Path} (h : fs'.find q = fs.find q) :
    fs'.isDir q = fs.isDir q := by
  unfold isDir
  rw [h]

theorem isLnk_congr {fs fs' : Fs} {q : Path} (h : fs'.find q = fs.find q) :
    fs'.isLnk q = fs.isLnk q := by
  unfold isLnk
  rw [h]

/-- A directory has an entry when something is found one name below it. -/
theorem hasChild_iff {fs : Fs} {q : Path} :
    fs.hasChild q = true ↔ ∃ c, (fs.find (q ++ [c])).isSome := by
  have hmem : ∀ r, r ∈ fs.names.keys ↔ (fs.find r).isSome := by
    intro r
    rw [find, Option.isSome_map]
    exact AList.lookup_isSome.symm
  unfold hasChild
  rw [List.any_eq_true]
  constructor
  · intro ⟨r, hr, hlast⟩
    obtain ⟨hne, hlast⟩ := of_decide_eq_true hlast
    refine ⟨r.getLast hne, ?_⟩
    rw [← hlast, List.dropLast_append_getLast hne]
    exact (hmem r).mp hr
  · intro ⟨c, hc⟩
    exact ⟨q ++ [c], (hmem _).mpr hc, by simp⟩

theorem hasChild_eq_false_iff {fs : Fs} {q : Path} :
    fs.hasChild q = false ↔ ∀ c, fs.find (q ++ [c]) = none := by
  rw [← Bool.not_eq_true, hasChild_iff]
  simp

/-! ## Changing one file -/

/-- A number that no inode with a name has. -/
def free (fs : Fs) : Nat := (fs.names.entries.map Sigma.snd).foldr max 0 + 1

/-- The number of an inode in use is below the free one. -/
theorem lt_free {fs : Fs} {q : Path} {i : Nat} (h : fs.names.lookup q = some i) :
    i < fs.free := by
  have hbound : ∀ l : List Nat, ∀ i ∈ l, i ≤ l.foldr max 0 := by
    intro l
    induction l with
    | nil => simp
    | cons j l ih =>
      intro i hi
      rw [List.foldr_cons]
      rcases List.mem_cons.mp hi with rfl | hi
      · exact le_max_left _ _
      · exact (ih i hi).trans (le_max_right _ _)
  have hmem : i ∈ fs.names.entries.map Sigma.snd :=
    List.mem_map.mpr ⟨⟨q, i⟩, AList.mem_lookup_iff.mp h, rfl⟩
  exact Nat.lt_succ_of_le (hbound _ i hmem)

/-- A new inode leaves those that have a name as they are. -/
theorem inodes_new {fs : Fs} {q : Path} {i : Nat} (h : fs.names.lookup q = some i) (node : Node) :
    Function.update fs.inodes fs.free node i = fs.inodes i :=
  Function.update_of_ne (lt_free h).ne _ _

/-- Put a new file into a directory. -/
def create (fs : Fs) (q : Path) (node : Node)
    (h : fs.find q = none ∧ fs.isDir q.dropLast = true) : Fs where
  names := fs.names.insert q fs.free
  inodes := Function.update fs.inodes fs.free node
  root := by
    obtain ⟨i, hi, hdir⟩ := fs.root
    have hq : [] ≠ q := by
      rintro rfl
      rw [find, hi] at h
      cases h.1
    rw [AList.lookup_insert_ne hq]
    exact ⟨i, hi, by rwa [inodes_new hi]⟩
  parent := by
    intro r c i hi
    obtain ⟨hfree, hdir⟩ := h
    -- the directory of `r ++ [c]` was there before, and it is not the new file
    have hr : fs.isDir r = true := by
      by_cases hrc : r ++ [c] = q
      · rw [← hrc, List.dropLast_concat] at hdir
        exact hdir
      · rw [AList.lookup_insert_ne hrc] at hi
        obtain ⟨j, hj, hjdir⟩ := fs.parent r c i hi
        exact isDir_of_lookup hj hjdir
    obtain ⟨d, hd, hfmt⟩ := isDir_iff.mp hr
    obtain ⟨j, hj, rfl⟩ := find_eq_some_iff.mp hd
    refine ⟨j, ?_, by rwa [inodes_new hj]⟩
    rw [AList.lookup_insert_ne, hj]
    intro hrq
    rw [find, ← hrq, hj] at hfree
    cases hfree
  oneName := by
    intro r s i hr hs hdir
    by_cases hrq : r = q
    · by_cases hsq : s = q
      · rw [hrq, hsq]
      · -- an old name is not one of the new inode
        rw [hrq, AList.lookup_insert] at hr
        rw [AList.lookup_insert_ne hsq] at hs
        exact absurd (Option.some.inj hr) (lt_free hs).ne'
    · rw [AList.lookup_insert_ne hrq] at hr
      rw [inodes_new hr] at hdir
      by_cases hsq : s = q
      · rw [hsq, AList.lookup_insert] at hs
        exact absurd (Option.some.inj hs) (lt_free hr).ne'
      · rw [AList.lookup_insert_ne hsq] at hs
        exact fs.oneName r s i hr hs hdir

/-- Remove a name of a file that is not a directory with files in it. -/
def remove (fs : Fs) (q : Path) (h : q ≠ [] ∧ fs.hasChild q = false) : Fs where
  names := fs.names.erase q
  inodes := fs.inodes
  root := by
    rw [AList.lookup_erase_ne h.1.symm]
    exact fs.root
  parent := by
    intro r c i hi
    have hrc : r ++ [c] ≠ q := by
      intro hrc
      rw [hrc, AList.lookup_erase] at hi
      cases hi
    rw [AList.lookup_erase_ne hrc] at hi
    obtain ⟨j, hj, hfmt⟩ := fs.parent r c i hi
    refine ⟨j, ?_, hfmt⟩
    rw [AList.lookup_erase_ne, hj]
    intro hrq
    have hnone := hasChild_eq_false_iff.mp h.2 c
    rw [← hrq, find, hi] at hnone
    cases hnone
  oneName := by
    intro r s i hr hs hdir
    have hold : ∀ {t : Path}, (fs.names.erase q).lookup t = some i →
        fs.names.lookup t = some i := by
      intro t ht
      by_cases htq : t = q
      · rw [htq, AList.lookup_erase] at ht
        cases ht
      · rwa [AList.lookup_erase_ne htq] at ht
    exact fs.oneName r s i (hold hr) (hold hs) hdir

/-- Change the file at `q`, but not its type. -/
def modify (fs : Fs) (q : Path) (f : Node → Node) (hf : ∀ n, (f n).fmt = n.fmt) : Fs :=
  match fs.names.lookup q with
  | none => fs
  | some i =>
    have hfmt : ∀ j, (Function.update fs.inodes i (f (fs.inodes i)) j).fmt = (fs.inodes j).fmt := by
      intro j
      by_cases hj : j = i
      · rw [hj, Function.update_self, hf]
      · rw [Function.update_of_ne hj]
    { names := fs.names
      inodes := Function.update fs.inodes i (f (fs.inodes i))
      root := by simpa only [hfmt] using fs.root
      parent := by simpa only [hfmt] using fs.parent
      oneName := by simpa only [hfmt] using fs.oneName }

/-- A new file is found at its path, and every other path leads where it led. -/
theorem find_create {fs : Fs} {q : Path} {node : Node}
    (h : fs.find q = none ∧ fs.isDir q.dropLast = true) :
    (fs.create q node h).find = Function.update fs.find q (some node) := by
  funext r
  by_cases hr : r = q
  · rw [hr, Function.update_self, find, create, AList.lookup_insert]
    exact congrArg some (Function.update_self ..)
  · rw [Function.update_of_ne hr, find, create, AList.lookup_insert_ne hr]
    cases hi : fs.names.lookup r with
    | none =>
      rw [find, hi]
      rfl
    | some i =>
      rw [find, hi]
      exact congrArg some (inodes_new hi node)

theorem find_remove {fs : Fs} {q : Path} (h : q ≠ [] ∧ fs.hasChild q = false) :
    (fs.remove q h).find = Function.update fs.find q none := by
  funext r
  by_cases hr : r = q
  · rw [hr, Function.update_self, find, remove, AList.lookup_erase]
    rfl
  · rw [Function.update_of_ne hr, find, remove, AList.lookup_erase_ne hr, find]

/-- A new file has one name. -/
theorem linked_create {fs : Fs} {q : Path} {node : Node}
    (h : fs.find q = none ∧ fs.isDir q.dropLast = true) {r s : Path} :
    (fs.create q node h).Linked r s ↔ (r = q ∧ s = q) ∨ (r ≠ q ∧ s ≠ q ∧ fs.Linked r s) := by
  rw [linked_iff, linked_iff]
  constructor
  · rintro ⟨i, hr, hs⟩
    rw [create] at hr hs
    -- the new inode has a number that no other name has
    by_cases hrq : r = q
    · by_cases hsq : s = q
      · exact Or.inl ⟨hrq, hsq⟩
      · rw [hrq, AList.lookup_insert] at hr
        rw [AList.lookup_insert_ne hsq] at hs
        exact absurd (Option.some.inj hr) (lt_free hs).ne'
    · rw [AList.lookup_insert_ne hrq] at hr
      by_cases hsq : s = q
      · rw [hsq, AList.lookup_insert] at hs
        exact absurd (Option.some.inj hs) (lt_free hr).ne'
      · rw [AList.lookup_insert_ne hsq] at hs
        exact Or.inr ⟨hrq, hsq, i, hr, hs⟩
  · rintro (⟨rfl, rfl⟩ | ⟨hrq, hsq, i, hr, hs⟩)
    · exact ⟨fs.free, AList.lookup_insert _, AList.lookup_insert _⟩
    · exact ⟨i, (AList.lookup_insert_ne hrq).trans hr, (AList.lookup_insert_ne hsq).trans hs⟩

/-- The other names keep what they stand for. -/
theorem linked_remove {fs : Fs} {q : Path} (h : q ≠ [] ∧ fs.hasChild q = false) {r s : Path} :
    (fs.remove q h).Linked r s ↔ r ≠ q ∧ s ≠ q ∧ fs.Linked r s := by
  rw [linked_iff, linked_iff]
  constructor
  · rintro ⟨i, hr, hs⟩
    rw [remove] at hr hs
    have hne : ∀ {t : Path}, (fs.names.erase q).lookup t = some i → t ≠ q := by
      rintro t ht rfl
      rw [AList.lookup_erase] at ht
      cases ht
    have hrq := hne hr
    have hsq := hne hs
    rw [AList.lookup_erase_ne hrq] at hr
    rw [AList.lookup_erase_ne hsq] at hs
    exact ⟨hrq, hsq, i, hr, hs⟩
  · rintro ⟨hrq, hsq, i, hr, hs⟩
    exact ⟨i, (AList.lookup_erase_ne hrq).trans hr, (AList.lookup_erase_ne hsq).trans hs⟩

theorem linked_modify {fs : Fs} {q : Path} {f : Node → Node} {hf : ∀ n, (f n).fmt = n.fmt}
    {r s : Path} : (fs.modify q f hf).Linked r s ↔ fs.Linked r s := by
  unfold modify
  split <;> exact Iff.rfl

/-- A change shows at all names of the file. -/
theorem find_modify {fs : Fs} {q : Path} {f : Node → Node} {hf : ∀ n, (f n).fmt = n.fmt}
    (r : Path) :
    (fs.modify q f hf).find r = if fs.Linked q r then (fs.find q).map f else fs.find r := by
  unfold modify
  cases hi : fs.names.lookup q with
  | none =>
    have hnot : ¬ fs.Linked q r := by
      rintro ⟨hq, -⟩
      rw [hi] at hq
      cases hq
    rw [if_neg hnot]
  | some i =>
    -- names of one file have the number of its inode in common
    by_cases hlinked : fs.Linked q r
    · have hr : fs.names.lookup r = some i := hlinked.2 ▸ hi
      rw [if_pos hlinked, find, find, hi, hr]
      exact congrArg some (Function.update_self ..)
    · rw [if_neg hlinked, find, find]
      cases hj : fs.names.lookup r with
      | none => rfl
      | some j =>
        have hne : j ≠ i := by
          rintro rfl
          exact hlinked (linked_iff.mpr ⟨j, hi, hj⟩)
        exact congrArg some (Function.update_of_ne hne _ _)

/-- The changed file is found at the path. -/
theorem find_modify_self {fs : Fs} {q : Path} {f : Node → Node} {hf : ∀ n, (f n).fmt = n.fmt} :
    (fs.modify q f hf).find q = (fs.find q).map f := by
  rw [find_modify]
  split
  · rfl
  · next hnot =>
    cases hn : fs.find q with
    | none => rfl
    | some n => exact absurd (linked_self hn) hnot

/-- A file that is not a directory has no files in it. -/
theorem hasChild_of_not_dir {fs : Fs} {q : Path} (h : fs.isDir q = false) :
    fs.hasChild q = false := by
  apply hasChild_eq_false_iff.mpr
  intro c
  cases hn : fs.find (q ++ [c]) with
  | none => rfl
  | some n =>
    rw [isDir_of_find_concat hn] at h
    cases h

/-- Above a file there are only directories. -/
theorem isDir_of_find_append {fs : Fs} {q r : Path} (hr : r ≠ []) {n : Node}
    (h : fs.find (q ++ r) = some n) : fs.isDir q = true := by
  induction r using List.reverseRec generalizing n with
  | nil => exact absurd rfl hr
  | append_singleton r c ih =>
    rw [← List.append_assoc] at h
    have hdir := isDir_of_find_concat h
    by_cases hr' : r = []
    · rw [hr', List.append_nil] at hdir
      exact hdir
    · obtain ⟨d, hd, _⟩ := isDir_iff.mp hdir
      exact ih hr' hd

/-! ## Making a file system -/

/-- Another name for a file, as `link` gives it. -/
def link (fs : Fs) (q r : Path) (h : fs.find q ≠ none ∧ fs.isDir q = false ∧ fs.find r = none ∧
    fs.isDir r.dropLast = true) : Fs where
  names := fs.names.insert r ((fs.names.lookup q).getD 0)
  inodes := fs.inodes
  root := by
    obtain ⟨i, hi, hdir⟩ := fs.root
    have hr : [] ≠ r := by
      rintro rfl
      have hfree := find_eq_none_iff.mp h.2.2.1
      rw [hi] at hfree
      cases hfree
    rw [AList.lookup_insert_ne hr]
    exact ⟨i, hi, hdir⟩
  parent := by
    intro s c i hi
    obtain ⟨_, _, hfree, hdir⟩ := h
    have hs : fs.isDir s = true := by
      by_cases hsc : s ++ [c] = r
      · rw [← hsc, List.dropLast_concat] at hdir
        exact hdir
      · rw [AList.lookup_insert_ne hsc] at hi
        obtain ⟨j, hj, hjdir⟩ := fs.parent s c i hi
        exact isDir_of_lookup hj hjdir
    obtain ⟨d, hd, hfmt⟩ := isDir_iff.mp hs
    obtain ⟨j, hj, rfl⟩ := find_eq_some_iff.mp hd
    refine ⟨j, ?_, hfmt⟩
    rw [AList.lookup_insert_ne, hj]
    intro hsr
    rw [find, ← hsr, hj] at hfree
    cases hfree
  oneName := by
    intro s t i hs ht hdir
    obtain ⟨hsome, hnot, _⟩ := h
    obtain ⟨j, hj⟩ := Option.ne_none_iff_exists'.mp fun hnone => hsome (find_eq_none_iff.mpr hnone)
    -- the new name is one of a file that is no directory
    have hold : ∀ {u : Path}, (fs.names.insert r ((fs.names.lookup q).getD 0)).lookup u = some i →
        fs.names.lookup u = some i := by
      intro u hu
      by_cases hur : u = r
      · rw [hur, AList.lookup_insert, hj] at hu
        obtain rfl : j = i := Option.some.inj hu
        rw [isDir_of_lookup hj hdir] at hnot
        cases hnot
      · rwa [AList.lookup_insert_ne hur] at hu
    exact fs.oneName s t i (hold hs) (hold ht) hdir

/-- A hard link is another name of the file. -/
theorem find_link {fs : Fs} {q r : Path} (h : fs.find q ≠ none ∧ fs.isDir q = false ∧
    fs.find r = none ∧ fs.isDir r.dropLast = true) :
    (fs.link q r h).find = Function.update fs.find r (fs.find q) := by
  funext s
  by_cases hs : s = r
  · obtain ⟨i, hi⟩ := Option.ne_none_iff_exists'.mp fun hnone => h.1 (find_eq_none_iff.mpr hnone)
    rw [hs, Function.update_self]
    show Option.map fs.inodes ((fs.names.insert r ((fs.names.lookup q).getD 0)).lookup r) =
      Option.map fs.inodes (fs.names.lookup q)
    rw [AList.lookup_insert, hi]
    rfl
  · rw [Function.update_of_ne hs, find, link, AList.lookup_insert_ne hs, find]

section OfNodes

variable {nodes : AList fun _ : Path => Node} {q : Path} {n : Node}

/-- In a list whose values are made of its keys, a key is looked up by being there. -/
theorem dlookup_map_key (g : Path → Nat) (l : List (Sigma fun _ : Path => Node)) (q : Path) :
    List.dlookup q (l.map fun e => (⟨e.1, g e.1⟩ : Sigma fun _ : Path => Nat)) =
      if q ∈ l.keys then some (g q) else none := by
  induction l with
  | nil => rfl
  | cons e l ih =>
    obtain ⟨r, n⟩ := e
    by_cases hq : q = r
    · subst hq
      simp
    · rw [List.map_cons, List.dlookup_cons_ne _ _ hq, ih]
      simp [hq]

/-- The inode of a path has the number of the path in the list. -/
def numbered (nodes : AList fun _ : Path => Node) : AList fun _ : Path => Nat where
  entries := nodes.entries.map fun e => ⟨e.1, nodes.keys.idxOf e.1⟩
  nodupKeys := by
    rw [List.NodupKeys, List.keys, List.map_map]
    exact nodes.keys_nodup

/-- The inode of a number; there is none beyond the end of the list. -/
def inodeOf (nodes : AList fun _ : Path => Node) (i : Nat) : Node :=
  (nodes.keys[i]?.bind nodes.lookup).getD { fmt := .reg, perm := 0, uid := 0, gid := 0, data := [] }

theorem lookup_numbered (nodes : AList fun _ : Path => Node) (q : Path) :
    (numbered nodes).lookup q = if q ∈ nodes.keys then some (nodes.keys.idxOf q) else none :=
  dlookup_map_key (fun q => nodes.keys.idxOf q) nodes.entries q

theorem mem_keys_of_lookup (h : nodes.lookup q = some n) : q ∈ nodes.keys :=
  AList.mem_keys.mp (AList.lookup_isSome.mp (by rw [h]; rfl))

theorem inodeOf_idxOf (h : nodes.lookup q = some n) : inodeOf nodes (nodes.keys.idxOf q) = n := by
  rw [inodeOf, List.getElem?_idxOf (mem_keys_of_lookup h), Option.bind_some, h, Option.getD_some]

theorem lookup_numbered_of_lookup (h : nodes.lookup q = some n) :
    (numbered nodes).lookup q = some (nodes.keys.idxOf q) := by
  rw [lookup_numbered, if_pos (mem_keys_of_lookup h)]

theorem mem_keys_of_numbered {i : Nat} (h : (numbered nodes).lookup q = some i) :
    q ∈ nodes.keys ∧ nodes.keys.idxOf q = i := by
  rw [lookup_numbered] at h
  split at h
  · next hmem => exact ⟨hmem, Option.some.inj h⟩
  · cases h

/-- The file system with the given files, each of them with one name. -/
def ofNodes (nodes : AList fun _ : Path => Node)
    (hroot : ∃ n, nodes.lookup [] = some n ∧ n.fmt = .dir)
    (hparent : ∀ q c n, nodes.lookup (q ++ [c]) = some n →
      ∃ d, nodes.lookup q = some d ∧ d.fmt = .dir) : Fs where
  names := numbered nodes
  inodes := inodeOf nodes
  root := by
    obtain ⟨n, hn, hdir⟩ := hroot
    exact ⟨_, lookup_numbered_of_lookup hn, by rw [inodeOf_idxOf hn, hdir]⟩
  parent := by
    intro q c i hi
    have hmem := (mem_keys_of_numbered hi).1
    obtain ⟨n, hn⟩ :=
      Option.isSome_iff_exists.mp (AList.lookup_isSome.mpr (AList.mem_keys.mpr hmem))
    obtain ⟨d, hd, hdir⟩ := hparent q c n hn
    exact ⟨_, lookup_numbered_of_lookup hd, by rw [inodeOf_idxOf hd, hdir]⟩
  oneName := by
    intro q r i hq hr _
    obtain ⟨hq, hqi⟩ := mem_keys_of_numbered hq
    obtain ⟨_, hri⟩ := mem_keys_of_numbered hr
    exact (List.idxOf_inj hq).mp (hqi.trans hri.symm)

/-- Of a list of files each is found at its path, with an inode of its own. -/
theorem find_ofNodes {hroot : ∃ n, nodes.lookup [] = some n ∧ n.fmt = .dir}
    {hparent : ∀ q c n, nodes.lookup (q ++ [c]) = some n →
      ∃ d, nodes.lookup q = some d ∧ d.fmt = .dir} (q : Path) :
    (ofNodes nodes hroot hparent).find q = nodes.lookup q := by
  show ((numbered nodes).lookup q).map (inodeOf nodes) = _
  cases hn : nodes.lookup q with
  | some n => rw [lookup_numbered_of_lookup hn, Option.map_some, inodeOf_idxOf hn]
  | none =>
    rw [lookup_numbered, if_neg fun hmem => ?_]
    · rfl
    · exact AList.lookup_eq_none.mp hn (AList.mem_keys.mpr hmem)

end OfNodes

/-! ## What a change does -/

/-- The file at `q` becomes `node`.  If it is `kept` it is changed in place and the change shows
at its other names, else `q` is the only name of what is there now; nothing else changes. -/
structure Sets (q : Path) (node : Option Node) (kept : Bool) (fs fs' : Fs) : Prop where
  self : fs'.find q = node
  other : ∀ {r}, r ≠ q → ¬(kept = true ∧ fs.Linked q r) → fs'.find r = fs.find r
  shared : ∀ {r}, r ≠ q → (fs'.Linked q r ↔ kept = true ∧ fs.Linked q r)
  linked : ∀ {r s}, r ≠ q → s ≠ q → (fs'.Linked r s ↔ fs.Linked r s)

theorem sets_create {fs : Fs} {q : Path} {node : Node}
    (h : fs.find q = none ∧ fs.isDir q.dropLast = true) :
    Sets q (some node) false fs (fs.create q node h) where
  self := by rw [find_create, Function.update_self]
  other := fun hr _ => by rw [find_create, Function.update_of_ne hr]
  shared := fun hr => by simp [linked_create, hr]
  linked := fun hr hs => by simp [linked_create, hr, hs]

theorem sets_remove {fs : Fs} {q : Path} (h : q ≠ [] ∧ fs.hasChild q = false) :
    Sets q none false fs (fs.remove q h) where
  self := by rw [find_remove, Function.update_self]
  other := fun hr _ => by rw [find_remove, Function.update_of_ne hr]
  shared := fun _ => by simp [linked_remove]
  linked := fun hr hs => by simp [linked_remove, hr, hs]

theorem sets_modify {fs : Fs} {q : Path} {f : Node → Node} (hf : ∀ n, (f n).fmt = n.fmt) {n : Node}
    (hn : fs.find q = some n) : Sets q (some (f n)) true fs (fs.modify q f hf) where
  self := by rw [find_modify_self, hn, Option.map_some]
  other := fun _ hnot => by rw [find_modify, if_neg fun hlinked => hnot ⟨rfl, hlinked⟩]
  shared := fun _ => by simp [linked_modify]
  linked := fun _ _ => linked_modify

namespace Sets

variable {q : Path} {node node' : Option Node} {kept kept' : Bool} {fs fs' fs'' : Fs}

/-- The other names of a file that is kept show what has become of it. -/
theorem names (h : Sets q node true fs fs') {r : Path} (hr : fs.Linked q r) :
    fs'.find r = node := by
  by_cases hrq : r = q
  · rw [hrq]
    exact h.self
  · rw [((h.shared hrq).mpr ⟨rfl, hr⟩).find]
    exact h.self

/-- Where the file is not kept no other path changes. -/
theorem find (h : Sets q node false fs fs') : fs'.find = Function.update fs.find q node := by
  funext r
  by_cases hr : r = q
  · rw [hr, Function.update_self]
    exact h.self
  · rw [Function.update_of_ne hr]
    exact h.other hr fun hkept => Bool.false_ne_true hkept.1

/-- What is at a path afterwards: what is set, or what was there. -/
theorem find_cases (h : Sets q node kept fs fs') (r : Path) :
    fs'.find r = node ∧ (r = q ∨ kept = true ∧ fs.Linked q r) ∨
      fs'.find r = fs.find r ∧ r ≠ q ∧ ¬(kept = true ∧ fs.Linked q r) := by
  by_cases hr : r = q
  · exact Or.inl ⟨hr ▸ h.self, Or.inl hr⟩
  · by_cases hkept : kept = true ∧ fs.Linked q r
    · obtain ⟨rfl, hlinked⟩ := hkept
      exact Or.inl ⟨h.names hlinked, Or.inr ⟨rfl, hlinked⟩⟩
    · exact Or.inr ⟨h.other hr hkept, hr, hkept⟩

/-- What a file that is kept has in common with what it becomes is the same at all paths. -/
theorem map {β : Type} (h : Sets q node kept fs fs') {g : Node → β}
    (hg : kept = true → node.map g = (fs.find q).map g) (r : Path) :
    (fs'.find r).map g = if r = q then node.map g else (fs.find r).map g := by
  by_cases hr : r = q
  · rw [if_pos hr, hr, h.self]
  · rw [if_neg hr]
    obtain ⟨hset, hname⟩ | ⟨hsame, _⟩ := h.find_cases r
    · obtain ⟨hkept, hlinked⟩ := hname.resolve_left hr
      rw [hset, hg hkept, hlinked.find]
    · rw [hsame]

/-- A file that was kept is not replaced afterwards. -/
theorem trans (h : Sets q node kept fs fs') (h' : Sets q node' kept' fs' fs'')
    (hkept : kept = true → kept' = true) : Sets q node' kept fs fs'' where
  self := h'.self
  other := by
    intro r hr hnot
    rw [h'.other hr fun hboth => hnot ((h.shared hr).mp hboth.2)]
    exact h.other hr hnot
  shared := by
    intro r hr
    rw [h'.shared hr, h.shared hr]
    exact ⟨fun hlinked => hlinked.2, fun hlinked => ⟨hkept hlinked.1, hlinked⟩⟩
  linked := fun hr hs => (h'.linked hr hs).trans (h.linked hr hs)

/-- Nothing has to change where the file is already there. -/
theorem refl (h : fs.find q = node) : Sets q node true fs fs where
  self := h
  other := fun _ _ => rfl
  shared := fun _ => (and_iff_right rfl).symm
  linked := fun _ _ => Iff.rfl

/-- A file that becomes what it was is the same file. -/
theorem unchanged (h : Sets q (fs.find q) true fs fs') :
    fs'.find = fs.find ∧ ∀ r s, fs'.Linked r s ↔ fs.Linked r s := by
  have hfind : fs'.find = fs.find := by
    funext r
    obtain ⟨hset, rfl | ⟨-, hlinked⟩⟩ | ⟨hsame, _⟩ := h.find_cases r
    · exact hset
    · rw [hset, hlinked.find]
    · exact hsame
  refine ⟨hfind, fun r s => ?_⟩
  by_cases hr : r = q
  · by_cases hs : s = q
    · rw [hr, hs, linked_self_iff, linked_self_iff, hfind]
    · rw [hr, h.shared hs, and_iff_right rfl]
  · by_cases hs : s = q
    · rw [hs]
      exact ⟨fun hlinked => ((h.shared hr).mp hlinked.symm).2.symm,
        fun hlinked => ((h.shared hr).mpr ⟨rfl, hlinked.symm⟩).symm⟩
    · exact h.linked hr hs

/-- A change at a path and then one that changes nothing elsewhere are one change. -/
theorem trans_unchanged {r : Path} (h : Sets q node kept fs fs')
    (h' : Sets r (fs'.find r) true fs' fs'') : Sets q node kept fs fs'' := by
  obtain ⟨hfind, hlinked⟩ := h'.unchanged
  exact
    { self := by rw [hfind, h.self]
      other := fun hr hnot => by rw [hfind, h.other hr hnot]
      shared := fun hr => (hlinked _ _).trans (h.shared hr)
      linked := fun hr hs => (hlinked _ _).trans (h.linked hr hs) }

/-- No file gets another name. -/
theorem linked_of_linked (h : Sets q node kept fs fs') {r s : Path} (hne : r ≠ s)
    (hlinked : fs'.Linked r s) : fs.Linked r s := by
  by_cases hr : r = q
  · subst hr
    exact ((h.shared hne.symm).mp hlinked).2
  · by_cases hs : s = q
    · subst hs
      exact ((h.shared hr).mp hlinked.symm).2.symm
    · exact (h.linked hr hs).mp hlinked

/-- Two names of one file stay so, unless one of them gets a file of its own. -/
theorem linked_iff_of_ne (h : Sets q node kept fs fs') {r s : Path} (hne : r ≠ s)
    (hkept : r = q ∨ s = q → kept = true) : fs'.Linked r s ↔ fs.Linked r s := by
  refine ⟨h.linked_of_linked hne, fun hlinked => ?_⟩
  by_cases hr : r = q
  · subst hr
    exact (h.shared hne.symm).mpr ⟨hkept (Or.inl rfl), hlinked⟩
  · by_cases hs : s = q
    · subst hs
      exact ((h.shared hr).mpr ⟨hkept (Or.inr rfl), hlinked.symm⟩).symm
    · exact (h.linked hr hs).mpr hlinked

/-- A directory stays one, unless it is the file that is set. -/
theorem isDir (h : Sets q node kept fs fs') {r : Path} (hr : r ≠ q) (hdir : fs.isDir r = true) :
    fs'.isDir r = true := by
  rw [isDir_congr (h.other hr ?_)]
  · exact hdir
  · -- a directory has one name
    rintro ⟨-, hlinked⟩
    obtain ⟨n, hn, hfmt⟩ := isDir_iff.mp hdir
    exact hr (hlinked.symm.eq_of_dir hn hfmt)

end Sets

/-! ## Shapes -/

/-- The type, and the content or target, of the file at a path. -/
def shape (fs : Fs) (q : Path) : Option (FileType × Str) := (fs.find q).map Node.shape

theorem shape_eq_none {fs : Fs} {q : Path} : fs.shape q = none ↔ fs.find q = none :=
  Option.map_eq_none_iff

end Fs

end Snapper
