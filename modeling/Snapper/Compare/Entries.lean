import Snapper.Compare.Tree

/-!
# Opening directories and listing them

`SDir` on a tree: opening a directory below another one, and listing everything below it.

## Main results

- `mem_entriesRecursive`: everything below a directory is listed
- `entriesRecursive_preorder`: no entry is listed after one below it
- `DirTree.mem_subtree`: the paths at and below a path
-/

namespace Snapper

namespace Tree

/-- `SDir(dir, name)`: `none` is an `IOErrorException`, there is no such directory. -/
def opendir (dir : Tree) (name : Name) : Option Tree :=
  match dir.entries.lookup name with
  | some t => if t.isDir then some t else none
  | none => none

/-- `SDir::deepopen` -/
def deepopen : Tree → Path → Option Tree
  | dir, [] => some dir
  | dir, name :: p =>
    match dir.opendir name with
    | some t => t.deepopen p
    | none => none

mutual
/-- `SDir::entries_recursive` -/
def entriesRecursive : Tree → List Path
  | .node _ es => entriesRecursiveOf es
def entriesRecursiveOf : List (Name × Tree) → List Path
  | [] => []
  | (n, t) :: es =>
    [n] :: (if t.isDir then (entriesRecursive t).map (n :: ·) else []) ++ entriesRecursiveOf es
end

theorem entriesRecursive_eq (t : Tree) : t.entriesRecursive = entriesRecursiveOf t.entries := by
  cases t
  rfl

/-- The entries themselves, and below a directory those of the directory. -/
theorem mem_entriesRecursiveOf {es : List (Name × Tree)} {p : Path} :
    p ∈ entriesRecursiveOf es ↔ ∃ n t, (n, t) ∈ es ∧
      (p = [n] ∨ t.isDir ∧ ∃ q ∈ t.entriesRecursive, p = n :: q) := by
  induction es with
  | nil => simp [entriesRecursiveOf]
  | cons e es ih =>
    obtain ⟨n, t⟩ := e
    rw [entriesRecursiveOf, List.cons_append, List.mem_cons, List.mem_append, ih]
    constructor
    · intro h
      obtain rfl | h | ⟨m, u, hmem, h⟩ := h
      · exact ⟨n, t, List.mem_cons_self .., Or.inl rfl⟩
      · split_ifs at h with hdir
        · obtain ⟨q, hq, rfl⟩ := List.mem_map.mp h
          exact ⟨n, t, List.mem_cons_self .., Or.inr ⟨hdir, q, hq, rfl⟩⟩
        · cases h
      · exact ⟨m, u, List.mem_cons_of_mem _ hmem, h⟩
    · intro ⟨m, u, hmem, h⟩
      obtain heq | hmem := List.mem_cons.mp hmem
      · cases heq
        obtain rfl | ⟨hdir, q, hq, rfl⟩ := h
        · exact Or.inl rfl
        · refine Or.inr (Or.inl ?_)
          rw [if_pos hdir]
          exact List.mem_map.mpr ⟨q, hq, rfl⟩
      · exact Or.inr (Or.inr ⟨m, u, hmem, h⟩)

/-- `entries_recursive` lists everything below a directory. -/
theorem mem_entriesRecursive {t : Tree} (h : t.WF) {p : Path} :
    p ∈ t.entriesRecursive ↔ p ≠ [] ∧ (t.find p).isSome := by
  induction h generalizing p with
  | @node i es hnames hes ih =>
    have hwf : (node i es).WF := .node hnames hes
    rw [entriesRecursive_eq, mem_entriesRecursiveOf]
    constructor
    · intro ⟨n, c, hmem, hp⟩
      have hc : es.lookup n = some c := hwf.lookup_iff_mem.mpr hmem
      obtain rfl | ⟨-, q, hq, rfl⟩ := hp
      · exact ⟨List.cons_ne_nil n [], by rw [find_cons, entries_node, hc]; rfl⟩
      · have hfound := ((ih _ hmem).mp hq).2
        exact ⟨List.cons_ne_nil n q, by rw [find_cons, entries_node, hc]; exact hfound⟩
    · intro ⟨hp, hfound⟩
      cases p with
      | nil => exact absurd rfl hp
      | cons n q =>
        rw [find_cons, entries_node] at hfound
        cases hc : es.lookup n with
        | none =>
          rw [hc] at hfound
          cases hfound
        | some c =>
          rw [hc] at hfound
          have hmem := mem_of_lookup_eq_some hc
          refine ⟨n, c, hmem, ?_⟩
          cases q with
          | nil => exact Or.inl rfl
          | cons m q =>
            -- only a directory has something below it
            obtain ⟨d, hd⟩ := Option.isSome_iff_exists.mp hfound
            have hdir : c.isDir := by
              simpa [isDir] using WF.isDir_of_find_cons (hes _ hmem) hd
            exact Or.inr ⟨hdir, m :: q, (ih _ hmem).mpr ⟨List.cons_ne_nil m q, hfound⟩, rfl⟩

/-- A directory is listed before what it has in it. -/
theorem entriesRecursiveOf_preorder {es : List (Name × Tree)} (hes : (es.map Prod.fst).Nodup)
    (h : ∀ e ∈ es, e.2.entriesRecursive.Pairwise fun a b => ¬b <+: a)
    (hnil : ∀ e ∈ es, [] ∉ e.2.entriesRecursive) :
    (entriesRecursiveOf es).Pairwise fun a b => ¬b <+: a := by
  induction es with
  | nil => exact List.Pairwise.nil
  | cons e es ih =>
    obtain ⟨n, t⟩ := e
    rw [List.map_cons, List.nodup_cons] at hes
    -- the entries below the first name, and the names of the rest
    have hbelow : ∀ p ∈ (if t.isDir then t.entriesRecursive.map (n :: ·) else []),
        ∃ q ∈ t.entriesRecursive, p = n :: q := by
      intro p hp
      split_ifs at hp
      · obtain ⟨q, hq, rfl⟩ := List.mem_map.mp hp
        exact ⟨q, hq, rfl⟩
      · cases hp
    have hrest : ∀ p ∈ entriesRecursiveOf es, ∃ m q, p = m :: q ∧ m ≠ n := by
      intro p hp
      obtain ⟨m, u, hmem, hp⟩ := mem_entriesRecursiveOf.mp hp
      have hne : m ≠ n := fun heq => hes.1 (List.mem_map.mpr ⟨_, hmem, heq⟩)
      obtain rfl | ⟨-, q, -, rfl⟩ := hp
      · exact ⟨m, [], rfl, hne⟩
      · exact ⟨m, q, rfl, hne⟩
    rw [entriesRecursiveOf, List.pairwise_append, List.pairwise_cons]
    refine ⟨⟨?_, ?_⟩, ?_, ?_⟩
    · intro p hp hpre
      obtain ⟨q, hq, rfl⟩ := hbelow p hp
      obtain rfl := List.prefix_nil.mp (List.cons_prefix_cons.mp hpre).2
      exact hnil _ (List.mem_cons_self ..) hq
    · split_ifs
      · rw [List.pairwise_map]
        refine (h _ (List.mem_cons_self ..)).imp fun hab hpre => hab ?_
        exact (List.cons_prefix_cons.mp hpre).2
      · exact List.Pairwise.nil
    · exact ih hes.2 (fun e he => h e (List.mem_cons_of_mem _ he))
        fun e he => hnil e (List.mem_cons_of_mem _ he)
    · intro a ha b hb hpre
      obtain ⟨m, q, rfl, hne⟩ := hrest b hb
      have hhead : ∃ r, a = n :: r := by
        obtain rfl | ha := List.mem_cons.mp ha
        · exact ⟨[], rfl⟩
        · obtain ⟨r, -, rfl⟩ := hbelow a ha
          exact ⟨r, rfl⟩
      obtain ⟨r, rfl⟩ := hhead
      exact hne (List.cons_prefix_cons.mp hpre).1

/-- No entry is listed after one below it. -/
theorem entriesRecursive_preorder {t : Tree} (h : t.WF) :
    t.entriesRecursive.Pairwise fun a b => ¬b <+: a := by
  induction h with
  | node hnames hes ih =>
    refine entriesRecursiveOf_preorder hnames.distinct ih fun e he hmem => ?_
    exact ((mem_entriesRecursive (hes e he)).mp hmem).1 rfl

/-- The directory above a file that is there can be opened. -/
theorem deepopen_of_find {t c : Tree} (h : t.WF) {p : Path} {n : Name}
    (hc : t.find (p ++ [n]) = some c) :
    ∃ d, t.deepopen p = some d ∧ d.entries.lookup n = some c := by
  induction p generalizing t with
  | nil =>
    rw [List.nil_append, find_cons] at hc
    obtain ⟨u, hu, hc⟩ := Option.bind_eq_some_iff.mp hc
    rw [find_nil] at hc
    exact ⟨t, by rw [deepopen], hu.trans hc⟩
  | cons m p ih =>
    rw [List.cons_append, find_cons] at hc
    obtain ⟨u, hu, hc⟩ := Option.bind_eq_some_iff.mp hc
    have hwf := All.child h (mem_of_lookup_eq_some hu)
    -- it has an entry, so it is a directory
    have hudir : u.inode.fmt = .dir := by
      cases p with
      | nil => exact WF.isDir_of_find_cons hwf hc
      | cons k p => exact WF.isDir_of_find_cons hwf hc
    obtain ⟨d, hd, hn⟩ := ih hwf hc
    refine ⟨d, ?_, hn⟩
    have hopen : t.opendir m = some u := by
      rw [opendir, hu]
      simp [isDir, hudir]
    rw [deepopen, hopen]
    exact hd

/-- A directory that is opened is the entry of this name. -/
theorem lookup_of_opendir {t u : Tree} {n : Name} (h : t.opendir n = some u) :
    t.entries.lookup n = some u := by
  rw [opendir] at h
  split at h
  · next v hv =>
    split_ifs at h
    rw [hv, h]
  · cases h

/-- A directory is opened at its path. -/
theorem find_of_deepopen {t d : Tree} {p : Path} (h : t.deepopen p = some d) :
    t.find p = some d := by
  induction p generalizing t with
  | nil =>
    rw [deepopen] at h
    rw [find_nil, h]
  | cons n p ih =>
    rw [deepopen] at h
    split at h
    · next u hu =>
      rw [find_cons, lookup_of_opendir hu]
      exact ih h
    · cases h

end Tree

/-! ## Paths of a directory tree -/

/-- There is a file at the path. -/
def DirTree.Has (T : DirTree) (p : Path) : Prop := (T.root.find p).isSome

instance (T : DirTree) (p : Path) : Decidable (T.Has p) :=
  inferInstanceAs (Decidable ((T.root.find p).isSome = true))

theorem DirTree.Has.above {T : DirTree} {p q : Path} (h : T.Has (p ++ q)) : T.Has p := by
  rw [DirTree.Has, Tree.find_append] at h
  obtain ⟨t, ht⟩ := Option.isSome_iff_exists.mp h
  obtain ⟨c, hc, -⟩ := Option.bind_eq_some_iff.mp ht
  rw [DirTree.Has, hc]
  rfl

theorem DirTree.has_iff_lookup {T : DirTree} {p : Path} :
    T.Has p ↔ ∃ i, T.root.lookup p = some i := by
  rw [DirTree.Has, ← Option.isSome_iff_exists, Tree.lookup, Option.isSome_map]

theorem DirTree.has_nil (T : DirTree) : T.Has [] := by
  rw [DirTree.Has, Tree.find_nil]
  rfl

/-- A file found by its base name in the directory above it. -/
theorem DirTree.has_of_basename {T : DirTree} {p : Path} {d t : Tree} {basename : Name}
    (hd : T.root.deepopen p.dropLast = some d) (hlast : p.getLast? = some basename)
    (ht : d.entries.lookup basename = some t) : T.Has p := by
  have hp : p = p.dropLast ++ [basename] := (List.dropLast_append_getLast? basename hlast).symm
  rw [hp, DirTree.Has, Tree.find_append, Tree.find_of_deepopen hd]
  show (d.find [basename]).isSome
  rw [Tree.find_cons, ht]
  rfl

/-- The file at the path with everything below it, as relative paths. -/
def DirTree.subtree (T : DirTree) (p : Path) : List Path :=
  [] :: match T.root.find p with
    | some t => if t.isDir then t.entriesRecursive else []
    | none => []

/-- The subtree of a path is all that the tree has below it, by the rest of the path. -/
theorem DirTree.mem_subtree {T : DirTree} {p : Path} (h : T.Has p) {r : Path} :
    r ∈ T.subtree p ↔ T.Has (p ++ r) := by
  obtain ⟨t, ht⟩ := Option.isSome_iff_exists.mp h
  have hwf : t.WF := T.wf.of_find ht
  have hbelow : T.Has (p ++ r) ↔ (t.find r).isSome := by
    rw [DirTree.Has, Tree.find_append, ht]
    rfl
  rw [hbelow, DirTree.subtree, ht, List.mem_cons]
  dsimp only
  cases r with
  | nil => simp
  | cons n r =>
    split_ifs with hdir
    · rw [Tree.mem_entriesRecursive hwf]
      simp
    · -- only a directory has something below it
      constructor
      · intro hnil
        simp at hnil
      · intro hsome
        obtain ⟨c, hc⟩ := Option.isSome_iff_exists.mp hsome
        have hdir' := hwf.isDir_of_find_cons hc
        exact absurd (by simpa [Tree.isDir] using hdir') hdir

/-- It is listed parent before child. -/
theorem DirTree.subtree_preorder (T : DirTree) (p : Path) :
    (T.subtree p).Pairwise fun a b => ¬b <+: a := by
  rw [DirTree.subtree]
  cases ht : T.root.find p with
  | none => exact List.pairwise_singleton _ _
  | some t =>
    have hwf : t.WF := T.wf.of_find ht
    dsimp only
    split_ifs
    · refine List.pairwise_cons.mpr ⟨fun r hr hpre => ?_, Tree.entriesRecursive_preorder hwf⟩
      exact ((Tree.mem_entriesRecursive hwf).mp hr).1 (List.prefix_nil.mp hpre)
    · exact List.pairwise_singleton _ _

end Snapper
