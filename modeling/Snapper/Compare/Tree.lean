import Snapper.Base.Bytes

/-!
# Inodes and directory trees

What the comparison sees of a snapshot: for every directory its entries in the
order `readdir` returns them, and for every entry what `fstatat` with
`AT_SYMLINK_NOFOLLOW` returns.  The bytes that `open` and `read`, or `readlink`,
deliver are part of an inode, so that a file that cannot be read is a value too.
-/

namespace Snapper

/-! ## Inodes -/

/-- `st_mode & S_IFMT` -/
inductive FileType where
  | dir | reg | lnk | fifo | sock | blk | chr
  deriving DecidableEq, Repr

/-- What `struct stat` says about a file, as far as the comparison reads it. -/
structure Stat where
  fmt : FileType
  /-- `st_mode & (S_IRWXU | S_IRWXG | S_IRWXO | S_ISUID | S_ISGID | S_ISVTX)` -/
  perm : BitVec 12
  uid : Nat
  gid : Nat
  mtimeSec : Int
  mtimeNsec : Int
  size : Nat
  dev : Nat
  ino : Nat
  deriving DecidableEq, Repr

/-- A file: its `stat`, and the bytes that can be read of it.

`data` is `none` when `open` (for a symlink `readlink`) fails; when it holds fewer
bytes than `size`, a `read` comes back short. -/
structure Inode extends Stat where
  data : Option Str
  deriving DecidableEq, Repr

/-! ## Trees -/

/-- A file with the entries below it, in the order of `readdir`. -/
inductive Tree where
  | node (inode : Inode) (entries : List (Name × Tree))

namespace Tree

def inode : Tree → Inode
  | .node i _ => i

def entries : Tree → List (Name × Tree)
  | .node _ es => es

/-- `S_ISDIR(stat.st_mode)` -/
def isDir (t : Tree) : Bool := t.inode.fmt = .dir

@[simp] theorem inode_node (i : Inode) (es : List (Name × Tree)) : (node i es).inode = i := rfl

@[simp] theorem entries_node (i : Inode) (es : List (Name × Tree)) :
    (node i es).entries = es := rfl

/-- The file at a path below the root, no symlink followed. -/
def find : Tree → Path → Option Tree
  | t, [] => some t
  | .node _ es, n :: p =>
    match es.lookup n with
    | some t => t.find p
    | none => none

/-- `lstat` of a path below the root. -/
def lookup (t : Tree) (p : Path) : Option Inode := (t.find p).map inode

mutual
/-- The number of directory levels below a file. -/
def height : Tree → Nat
  | .node _ es => heightEntries es
def heightEntries : List (Name × Tree) → Nat
  | [] => 0
  | (_, t) :: es => max (height t + 1) (heightEntries es)
end

/-- An entry is lower than its directory, so that a walk of the entries comes to an end. -/
theorem height_lt_of_mem {es : List (Name × Tree)} {n : Name} {t : Tree} (h : (n, t) ∈ es) :
    height t < heightEntries es := by
  induction es with
  | nil => cases h
  | cons e es ih =>
    rcases e with ⟨m, u⟩
    simp only [heightEntries]
    rcases List.mem_cons.mp h with h | h
    · cases h
      omega
    · have := ih h
      omega

/-- A property of every file of a tree and of the names in it. -/
inductive All (P : Inode → List Name → Prop) : Tree → Prop where
  | node {i : Inode} {es : List (Name × Tree)} :
      P i (es.map Prod.fst) → (∀ e ∈ es, All P e.2) → All P (.node i es)

theorem All.root {P : Inode → List Name → Prop} {t : Tree} (h : t.All P) :
    P t.inode (t.entries.map Prod.fst) := by
  cases h with
  | node hP _ => exact hP

theorem All.child {P : Inode → List Name → Prop} {t : Tree} (h : t.All P) {n : Name} {c : Tree}
    (hc : (n, c) ∈ t.entries) : c.All P := by
  cases h with
  | node _ hes => exact hes _ hc

theorem All.mono {P Q : Inode → List Name → Prop} (hPQ : ∀ i ns, P i ns → Q i ns) {t : Tree}
    (h : t.All P) : t.All Q := by
  induction h with
  | node hP _ ih => exact .node (hPQ _ _ hP) ih

theorem All.and {P Q R : Inode → List Name → Prop} {t : Tree} (hP : t.All P) (hQ : t.All Q)
    (hPQ : ∀ i ns, P i ns → Q i ns → R i ns) : t.All R := by
  induction hP with
  | node hp _ ih =>
    cases hQ with
    | node hq hes => exact .node (hPQ _ _ hp hq) fun e he => ih e he (hes e he)

mutual
/-- Check a property of every file of a tree. -/
def checkAll (check : Inode → List Name → Bool) : Tree → Bool
  | .node i es => check i (es.map Prod.fst) && checkAllEntries check es
def checkAllEntries (check : Inode → List Name → Bool) : List (Name × Tree) → Bool
  | [] => true
  | (_, t) :: es => checkAll check t && checkAllEntries check es
end

mutual
/-- The check of all nodes decides whether all of them have the property. -/
theorem checkAll_iff {check : Inode → List Name → Bool} :
    (t : Tree) → (t.checkAll check = true ↔ t.All fun i ns => check i ns = true)
  | .node i es => by
    rw [checkAll, Bool.and_eq_true, checkAllEntries_iff es]
    constructor
    · intro ⟨hi, hes⟩
      exact .node hi hes
    · intro h
      exact ⟨h.root, fun e he => h.child he⟩
/-- The same for the entries of a directory. -/
theorem checkAllEntries_iff {check : Inode → List Name → Bool} :
    (es : List (Name × Tree)) →
      (checkAllEntries check es = true ↔ ∀ e ∈ es, e.2.All fun i ns => check i ns = true)
  | [] => by simp [checkAllEntries]
  | (n, t) :: es => by
    rw [checkAllEntries, Bool.and_eq_true, checkAll_iff t, checkAllEntries_iff es,
      List.forall_mem_cons]
end

instance {P : Inode → List Name → Prop} [∀ i ns, Decidable (P i ns)] (t : Tree) :
    Decidable (t.All P) :=
  decidable_of_iff (t.checkAll (fun i ns => decide (P i ns)) = true) <| by
    rw [checkAll_iff]
    simp only [decide_eq_true_eq]

/-- The names in one directory: valid and distinct; only a directory has entries. -/
structure EntryNames (i : Inode) (names : List Name) : Prop where
  valid : ∀ n ∈ names, ValidName n
  distinct : names.Nodup
  onlyDir : names ≠ [] → i.fmt = .dir

instance (i : Inode) (names : List Name) : Decidable (EntryNames i names) :=
  decidable_of_iff ((∀ n ∈ names, ValidName n) ∧ names.Nodup ∧ (names ≠ [] → i.fmt = .dir))
    ⟨fun ⟨h₁, h₂, h₃⟩ => ⟨h₁, h₂, h₃⟩, fun h => ⟨h.valid, h.distinct, h.onlyDir⟩⟩

/-- A well-formed tree. -/
def WF (t : Tree) : Prop := t.All EntryNames

instance (t : Tree) : Decidable t.WF := inferInstanceAs (Decidable (t.All EntryNames))

/-! ## Looking up entries -/

/-- Where names stand once, an entry is found by its name. -/
theorem lookup_eq_some_of_mem {es : List (Name × Tree)} (hes : (es.map Prod.fst).Nodup)
    {n : Name} {t : Tree} (h : (n, t) ∈ es) : es.lookup n = some t := by
  induction es with
  | nil => cases h
  | cons e es ih =>
    rcases e with ⟨m, u⟩
    rw [List.map_cons, List.nodup_cons] at hes
    rcases List.mem_cons.mp h with heq | hmem
    · cases heq
      simp
    · have hne : n ≠ m := by
        rintro rfl
        exact hes.1 (List.mem_map.mpr ⟨_, hmem, rfl⟩)
      rw [List.lookup_cons, beq_eq_false_iff_ne.mpr hne]
      exact ih hes.2 hmem

/-- What is found by a name is an entry of the directory. -/
theorem mem_of_lookup_eq_some {es : List (Name × Tree)} {n : Name} {t : Tree}
    (h : es.lookup n = some t) : (n, t) ∈ es := by
  induction es with
  | nil => simp at h
  | cons e es ih =>
    rcases e with ⟨m, u⟩
    rw [List.lookup_cons] at h
    split at h
    · next heq =>
      cases h
      rw [beq_iff_eq.mp heq]
      exact List.mem_cons_self ..
    · exact List.mem_cons_of_mem _ (ih h)

theorem WF.lookup_iff_mem {t : Tree} (h : t.WF) {n : Name} {c : Tree} :
    t.entries.lookup n = some c ↔ (n, c) ∈ t.entries :=
  ⟨mem_of_lookup_eq_some, lookup_eq_some_of_mem (All.root h).distinct⟩

@[simp] theorem find_nil (t : Tree) : t.find [] = some t := by
  cases t
  rfl

theorem find_cons (t : Tree) (n : Name) (p : Path) :
    t.find (n :: p) = (t.entries.lookup n).bind fun c => c.find p := by
  cases t with
  | node i es =>
    simp only [find, entries_node]
    cases es.lookup n <;> rfl

/-- A path is followed in two parts. -/
theorem find_append (t : Tree) (p q : Path) :
    t.find (p ++ q) = (t.find p).bind fun c => c.find q := by
  induction p generalizing t with
  | nil => simp
  | cons n p ih =>
    rw [List.cons_append, find_cons, find_cons]
    cases t.entries.lookup n with
    | none => rfl
    | some c => exact ih c

/-- A property of all nodes is one of all nodes of every subtree. -/
theorem All.of_find {P : Inode → List Name → Prop} {t : Tree} (h : t.All P) {p : Path}
    {c : Tree} (hc : t.find p = some c) : c.All P := by
  induction p generalizing t with
  | nil =>
    rw [find_nil] at hc
    cases hc
    exact h
  | cons n p ih =>
    rw [find_cons] at hc
    cases hn : t.entries.lookup n with
    | none =>
      rw [hn] at hc
      cases hc
    | some u =>
      rw [hn] at hc
      exact ih (h.child (mem_of_lookup_eq_some hn)) hc

/-- The names on the path to a file of a well-formed tree are valid. -/
theorem WF.validName {t : Tree} (h : t.WF) {p : Path} {c : Tree} (hc : t.find p = some c) :
    ∀ n ∈ p, ValidName n := by
  induction p generalizing t with
  | nil =>
    intro n hn
    cases hn
  | cons m p ih =>
    rw [find_cons] at hc
    cases hm : t.entries.lookup m with
    | none =>
      rw [hm] at hc
      cases hc
    | some u =>
      rw [hm] at hc
      have hmem := mem_of_lookup_eq_some hm
      intro n hn
      rcases List.mem_cons.mp hn with rfl | hn
      · exact (All.root h).valid _ (List.mem_map.mpr ⟨_, hmem, rfl⟩)
      · exact ih (h.child hmem) hc n hn

/-- Every file with something below it is a directory. -/
theorem WF.isDir_of_find_cons {t : Tree} (h : t.WF) {n : Name} {p : Path} {c : Tree}
    (hc : t.find (n :: p) = some c) : t.inode.fmt = .dir := by
  rw [find_cons] at hc
  cases hn : t.entries.lookup n with
  | none =>
    rw [hn] at hc
    cases hc
  | some u =>
    have hmem := mem_of_lookup_eq_some hn
    refine (All.root h).onlyDir ?_
    intro hnil
    rw [List.map_eq_nil_iff] at hnil
    rw [hnil] at hmem
    cases hmem

end Tree

/-! ## Directory trees -/

/-- A directory with everything below it. -/
structure DirTree where
  root : Tree
  wf : root.WF
  isDir : root.inode.fmt = .dir

/-- A directory tree without mount points: every file is on the device of the root. -/
structure SnapshotTree extends DirTree where
  oneDev : root.All fun i _ => i.dev = root.inode.dev

end Snapper
