import Snapper.Btrfs.Commands
import Snapper.Btrfs.Faithful

/-!
# Directories of files

Snapshots without subdirectories, given by the list of their files as `readdir` returns it.  What
commands do to them can be read off the list, which makes them good for runs on concrete trees.

## Main results

- `creates_flat`, `removes_flat`: a file comes into the list and goes from it
- `lookup_flat`, `has_flat`: what is found at a path
-/

namespace Snapper.Btrfs

/-- Files with different names, on one device. -/
def Flat (files : List (Name × Inode)) : Prop :=
  (files.map Prod.fst).Nodup ∧ ∀ e ∈ files, ValidName e.1 ∧ e.2.dev = 1

instance (files : List (Name × Inode)) : Decidable (Flat files) :=
  inferInstanceAs (Decidable (_ ∧ _))

/-- The directory with these files in it -/
def flat (files : List (Name × Inode)) (h : Flat files) : SnapshotTree where
  root := dirOf (files.map fun e => (e.1, .node e.2 []))
  wf := by
    refine .node ⟨?_, ?_, fun _ => rfl⟩ fun e he => ?_
    · rw [List.map_map]
      intro n hn
      obtain ⟨e, he, rfl⟩ := List.mem_map.mp hn
      exact (h.2 e he).1
    · rw [List.map_map]
      exact h.1
    · obtain ⟨e', -, rfl⟩ := List.mem_map.mp he
      exact .node ⟨by simp, List.nodup_nil, by simp⟩ (by simp)
  isDir := rfl
  oneDev := by
    refine .node rfl fun e he => ?_
    obtain ⟨e', he', rfl⟩ := List.mem_map.mp he
    exact .node (h.2 e' he').2 (by simp)

section Paths

variable {files : List (Name × Inode)}

/-- A file is found by its name, and nothing is below it. -/
theorem lookup_flat (h : Flat files) (n : Name) (p : Path) :
    (flat files h).root.lookup (n :: p) = if p = [] then files.lookup n else none := by
  -- the children are found as the files are
  have hnode : (files.map fun e => (e.1, Tree.node e.2 [])).lookup n =
      (files.lookup n).map fun i => .node i [] := by
    clear h
    induction files with
    | nil => rfl
    | cons e files ih =>
      obtain ⟨m, i⟩ := e
      rw [List.map_cons, List.lookup_cons, List.lookup_cons, ih]
      cases n == m <;> rfl
  show ((flat files h).root.find (n :: p)).map Tree.inode = _
  rw [Tree.find_cons]
  show (((files.map fun e => (e.1, Tree.node e.2 [])).lookup n).bind _).map Tree.inode = _
  rw [hnode]
  cases files.lookup n with
  | none => simp
  | some i =>
    cases p with
    | nil => rfl
    | cons m p => rfl

/-- The paths of a flat tree are the root and the names of its files. -/
theorem has_flat (h : Flat files) (p : Path) :
    (flat files h).Has p ↔ p = [] ∨ ∃ n ∈ files.map Prod.fst, p = [n] := by
  cases p with
  | nil => exact iff_of_true (flat files h).has_nil (Or.inl rfl)
  | cons n p =>
    rw [DirTree.has_iff_lookup, lookup_flat]
    split_ifs with hp
    · subst hp
      rw [← Option.isSome_iff_exists, List.lookup_isSome_iff]
      simp
    · simp [hp]

/-- What is not in the list is not there. -/
theorem lookup_flat_none (h : Flat files) {p : Path} (hp : p ≠ [])
    (hnot : ∀ n ∈ files.map Prod.fst, p ≠ [n]) : (flat files h).root.lookup p = none := by
  by_contra hsome
  obtain ⟨i, hi⟩ := Option.ne_none_iff_exists'.mp hsome
  obtain hnil | ⟨n, hn, heq⟩ := (has_flat h p).mp (DirTree.has_iff_lookup.mpr ⟨i, hi⟩)
  · exact hp hnil
  · exact hnot n hn heq

end Paths

/-! ## Commands -/

section Commands

variable {before after : List (Name × Inode)} {n : Name} {i : Inode}

theorem keptAt_of_eq {T T' : DirTree} {q : Path} (h : T.root.lookup q = T'.root.lookup q) :
    KeptAt T T' q := by
  rw [KeptAt, h]
  cases T'.root.lookup q with
  | none => trivial
  | some i => exact Or.inl rfl

theorem not_mem_of_flat (h : Flat (before ++ (n, i) :: after)) :
    n ∉ (before ++ after).map Prod.fst := by
  have hnodup := h.1
  rw [List.map_append, List.map_cons, List.nodup_middle, List.nodup_cons] at hnodup
  rw [List.map_append]
  exact hnodup.1

/-- One file more in the list changes nothing at the other paths. -/
theorem lookup_flat_others (h : Flat (before ++ (n, i) :: after)) (h' : Flat (before ++ after))
    {q : Path} (hq : q ≠ [n]) :
    (flat _ h).root.lookup q = (flat _ h').root.lookup q := by
  cases q with
  | nil => rfl
  | cons m q =>
    rw [lookup_flat, lookup_flat]
    split_ifs with hnil
    · subst hnil
      have hne : (m == n) = false := beq_eq_false_iff_ne.mpr fun heq => hq (by rw [heq])
      rw [List.lookup_append, List.lookup_append, List.lookup_cons, hne]
    · rfl

/-- A file comes, wherever `readdir` returns it. -/
theorem creates_flat (h : Flat (before ++ (n, i) :: after)) (h' : Flat (before ++ after)) :
    Creates (flat _ h').toDirTree (flat _ h).toDirTree [n] i where
  free := by
    rw [has_flat]
    rintro (hnil | ⟨k, hk, heq⟩)
    · cases hnil
    · obtain rfl := (List.cons.inj heq).1
      exact not_mem_of_flat h hk
  parent := ⟨_, rfl, rfl⟩
  new := by
    -- no other entry has the name
    have hnone : before.lookup n = none := by
      rw [List.lookup_eq_none_iff]
      intro e he
      have hne : e.1 ≠ n := by
        rintro rfl
        exact not_mem_of_flat h (List.mem_map_of_mem (List.mem_append_left _ he))
      exact bne_iff_ne.mpr hne.symm
    rw [lookup_flat, if_pos rfl, List.lookup_append, hnone, List.lookup_cons_self]
    rfl
  others _ hq := keptAt_of_eq (lookup_flat_others h h' hq).symm

/-- A file goes. -/
theorem removes_flat (h : Flat (before ++ (n, i) :: after)) (h' : Flat (before ++ after)) :
    Removes (flat _ h).toDirTree (flat _ h').toDirTree [n] i where
  found := (creates_flat h h').new
  gone := (creates_flat h h').free
  others _ hq := keptAt_of_eq (lookup_flat_others h h' hq)

end Commands

end Snapper.Btrfs
