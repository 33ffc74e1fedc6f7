import Snapper.Undo.Plain

/-!
# A system that holds a tree

Every directory tree can be the tree of a subvolume: `mounted sub t` is a running system
with `t` at `sub` and nothing else besides the directories above.
-/

namespace Snapper

/-! ## The files of a tree -/

mutual
/-- The files of a tree whose root is at `q`. -/
def Tree.listing : Tree → Path → List (Sigma fun _ : Path => Node)
  | .node i es, q => ⟨q, i.node⟩ :: Tree.listingEntries es q
/-- The listings of the entries of a directory, one behind the other. -/
def Tree.listingEntries : List (Name × Tree) → Path → List (Sigma fun _ : Path => Node)
  | [], _ => []
  | (n, t) :: es, q => t.listing (q ++ [n]) ++ Tree.listingEntries es q
end

/-- A listing names the files of a tree, each of them once. -/
structure Lists (t : Tree) (q : Path) (L : List (Sigma fun _ : Path => Node)) : Prop where
  once : L.NodupKeys
  mem_iff : ∀ r node, ⟨r, node⟩ ∈ L ↔ ∃ p i, r = q ++ p ∧ t.lookup p = some i ∧ node = i.node

/-- The listing of the entries of a directory has exactly the paths that lead into one of them. -/
theorem Tree.listingEntries_mem {es : List (Name × Tree)} {q r : Path} {node : Node}
    (h : ∀ e ∈ es, Lists e.2 (q ++ [e.1]) (e.2.listing (q ++ [e.1]))) :
    (⟨r, node⟩ : Sigma fun _ : Path => Node) ∈ Tree.listingEntries es q ↔
      ∃ e ∈ es, ∃ p i, r = q ++ e.1 :: p ∧ e.2.lookup p = some i ∧ node = i.node := by
  induction es with
  | nil => simp [Tree.listingEntries]
  | cons e es ih =>
    obtain ⟨n, t⟩ := e
    rw [Tree.listingEntries, List.mem_append, (h (n, t) (by simp)).mem_iff,
      ih fun e he => h e (List.mem_cons_of_mem _ he)]
    simp

/-- Entries with different names give listings without a common path, so no path is listed twice.
-/
theorem Tree.listingEntries_once {es : List (Name × Tree)} {q : Path}
    (hnames : (es.map Prod.fst).Nodup)
    (h : ∀ e ∈ es, Lists e.2 (q ++ [e.1]) (e.2.listing (q ++ [e.1]))) :
    (Tree.listingEntries es q).NodupKeys := by
  induction es with
  | nil => exact List.nodupKeys_nil
  | cons e es ih =>
    obtain ⟨n, t⟩ := e
    rw [List.map_cons, List.nodup_cons] at hnames
    have hhead := h (n, t) (by simp)
    have hrest : ∀ e ∈ es, Lists e.2 (q ++ [e.1]) (e.2.listing (q ++ [e.1])) :=
      fun e he => h e (List.mem_cons_of_mem _ he)
    rw [Tree.listingEntries, List.NodupKeys, List.keys, List.map_append, List.nodup_append]
    refine ⟨hhead.once, ih hnames.2 hrest, ?_⟩
    -- the names of the two parts differ in the first name below `q`
    intro r hr r' hr' heq
    obtain ⟨⟨r, node⟩, hmem, rfl⟩ := List.mem_map.mp hr
    obtain ⟨⟨r', node'⟩, hmem', rfl⟩ := List.mem_map.mp hr'
    obtain ⟨p, i, rfl, _⟩ := (hhead.mem_iff r node).mp hmem
    obtain ⟨e, he, p', i', rfl, _⟩ := (Tree.listingEntries_mem hrest).mp hmem'
    have hn : n = e.1 := by
      simp only [List.append_assoc, List.cons_append, List.nil_append] at heq
      exact (List.cons.inj (List.append_cancel_left heq)).1
    exact hnames.1 (hn ▸ List.mem_map.mpr ⟨e, he, rfl⟩)

/-- The listing of a tree has each path of the tree once, with the inode that is there. -/
theorem Tree.listing_lists {t : Tree} (ht : t.WF) (q : Path) : Lists t q (t.listing q) := by
  induction ht generalizing q with
  | @node i es hnames hes ih =>
    have hwf : (Tree.node i es).WF := .node hnames hes
    have hlists : ∀ e ∈ es, Lists e.2 (q ++ [e.1]) (e.2.listing (q ++ [e.1])) :=
      fun e he => ih e he _
    refine ⟨?_, ?_⟩
    · rw [Tree.listing, List.NodupKeys, List.keys, List.map_cons, List.nodup_cons]
      refine ⟨?_, Tree.listingEntries_once hnames.distinct hlists⟩
      intro hmem
      obtain ⟨⟨r, node⟩, hmem, heq⟩ := List.mem_map.mp hmem
      -- what is listed below a directory is longer than its own path
      obtain ⟨e, _, p, i, hr, _⟩ := (Tree.listingEntries_mem hlists).mp hmem
      rw [show r = q from heq] at hr
      simp at hr
    · intro r node
      rw [Tree.listing, List.mem_cons, Tree.listingEntries_mem hlists]
      constructor
      · intro h
        obtain h | ⟨e, he, p, j, hr, hj, hnode⟩ := h
        · cases h
          exact ⟨[], i, by simp, lookup_nil _, rfl⟩
        · refine ⟨e.1 :: p, j, hr, ?_, hnode⟩
          rw [lookup_cons_of_mem hwf he]
          exact hj
      · intro ⟨p, j, hr, hj, hnode⟩
        -- the empty path is the directory, any other begins with one of its entries
        cases p with
        | nil =>
          rw [lookup_nil] at hj
          cases hj
          left
          rw [hr, hnode, List.append_nil]
          rfl
        | cons n p =>
          right
          obtain ⟨c, hc, hci⟩ := lookup_eq_some_iff.mp hj
          have hsome : ((Tree.node i es).find (n :: p)).isSome := by simp [hc]
          obtain ⟨d, hd, _⟩ := (find_isSome_cons hwf).mp hsome
          refine ⟨(n, d), hd, p, j, hr, ?_, hnode⟩
          rw [lookup_cons_of_mem hwf hd] at hj
          exact hj

/-! ## The system of a tree -/

/-- The files of a tree, by their paths. -/
def DirTree.nodes (t : DirTree) : AList fun _ : Path => Node :=
  { entries := t.root.listing [], nodupKeys := (Tree.listing_lists t.wf []).once }

/-- Looking up a path in the listing is looking it up in the tree. -/
theorem DirTree.lookup_nodes (t : DirTree) (p : Path) :
    t.nodes.lookup p = (t.root.lookup p).map Inode.node := by
  have hlists := Tree.listing_lists t.wf []
  have hmem : ∀ node, t.nodes.lookup p = some node ↔
      ∃ i, t.root.lookup p = some i ∧ node = i.node := by
    intro node
    refine (AList.mem_lookup_iff (s := t.nodes)).trans ((hlists.mem_iff p node).trans ?_)
    simp
  cases hi : t.root.lookup p with
  | none =>
    cases hfind : t.nodes.lookup p with
    | none => rfl
    | some node =>
      obtain ⟨i, hsome, _⟩ := (hmem node).mp hfind
      rw [hi] at hsome
      cases hsome
  | some i => exact (hmem i.node).mpr ⟨i, hi, rfl⟩

/-- The running system whose root directory is the tree; no file has a second name. -/
def Fs.ofTree (t : DirTree) : Fs :=
  .ofNodes t.nodes ⟨t.root.inode.node, by rw [t.lookup_nodes, lookup_nil]; rfl, t.isDir⟩ <| by
    intro q c n hn
    rw [t.lookup_nodes] at hn
    obtain ⟨i, hi, _⟩ := Option.map_eq_some_iff.mp hn
    -- the tree has a directory above
    obtain ⟨u, hu, _⟩ := lookup_eq_some_iff.mp hi
    rw [Tree.find_append] at hu
    obtain ⟨d, hd, hc⟩ := Option.bind_eq_some_iff.mp hu
    refine ⟨d.inode.node, ?_, Tree.WF.isDir_of_find_cons (t.wf.of_find hd) hc⟩
    rw [t.lookup_nodes, lookup_eq_some_iff.mpr ⟨d, hd, rfl⟩]
    rfl

theorem Fs.find_ofTree (t : DirTree) (p : Path) :
    (Fs.ofTree t).find p = (t.root.lookup p).map Inode.node :=
  (Fs.find_ofNodes p).trans (t.lookup_nodes p)

/-- A directory of root, in the snapshot on the device `dev` and as old as it. -/
def plainDir (dev : Nat) : Inode :=
  { fmt := .dir, perm := 0o755, uid := 0, gid := 0, mtimeSec := dev, mtimeNsec := 0, size := 0,
    dev := dev, ino := 0, data := none }

/-- A regular file of root. -/
def plainFile (dev : Nat) (content : Str) : Inode :=
  { plainDir dev with fmt := .reg, perm := 0o644, size := content.length, data := some content }

/-- A symlink of root. -/
def plainLink (dev : Nat) (target : Str) : Inode :=
  { plainDir dev with fmt := .lnk, perm := S_IRWXUGO, data := some target }

/-- Snapshots of different devices and ages have no `stat` to trust. -/
theorem SameContent.of_ages {t1 t2 : Tree} {dev : Nat}
    (h1 : t1.All fun i _ => i.mtimeSec ≠ dev ∧ i.dev ≠ dev)
    (h2 : t2.All fun i _ => i.mtimeSec = dev ∧ i.dev = dev) : SameContent t1 t2 where
  mtime := by
    intro p f1 f2 hf1 hf2 _ hsame
    obtain ⟨hne, _⟩ := all_lookup h1 hf1
    obtain ⟨heq, _⟩ := all_lookup h2 hf2
    simp only [sameMtime, heq, Bool.and_eq_true, decide_eq_true_eq] at hsame
    exact absurd hsame.1 hne
  ino := by
    intro p f1 f2 hf1 hf2 _ hsame
    obtain ⟨_, hne⟩ := all_lookup h1 hf1
    obtain ⟨_, heq⟩ := all_lookup h2 hf2
    exact absurd (hsame.1.trans heq) hne

/-- The tree with directories above it. -/
def mountTree : Path → Tree → Tree
  | [], t => t
  | n :: sub, t => .node (plainDir 0) [(n, mountTree sub t)]

/-- A tree put below a path of valid names is again a tree of valid and distinct names. -/
theorem mountTree_wf {sub : Path} (hsub : ∀ n ∈ sub, ValidName n) {t : Tree} (ht : t.WF) :
    (mountTree sub t).WF := by
  induction sub with
  | nil => exact ht
  | cons n sub ih =>
    refine .node ⟨?_, by simp, fun _ => rfl⟩ ?_
    · intro m hm
      rw [List.mem_singleton.mp hm]
      exact hsub n (by simp)
    · exact List.forall_mem_singleton.mpr (ih fun m hm => hsub m (List.mem_cons_of_mem _ hm))

theorem mountTree_isDir {sub : Path} {t : Tree} (ht : t.inode.fmt = .dir) :
    (mountTree sub t).inode.fmt = .dir := by
  cases sub with
  | nil => exact ht
  | cons n sub => rfl

theorem mountTree_lookup (sub : Path) (t : Tree) (p : Path) :
    (mountTree sub t).lookup (sub ++ p) = t.lookup p := by
  induction sub with
  | nil => rfl
  | cons n sub ih =>
    rw [List.cons_append, Tree.lookup, Tree.find_cons]
    simpa [mountTree, Tree.lookup] using ih

/-- Every ancestor of the place where a tree of a directory is put is a directory. -/
theorem mountTree_lookup_prefix {sub : Path} {t : Tree} (ht : t.inode.fmt = .dir) {r : Path}
    (hr : r <+: sub) : ∃ d, (mountTree sub t).lookup r = some d ∧ d.fmt = .dir := by
  induction r generalizing sub with
  | nil => exact ⟨_, lookup_nil _, mountTree_isDir ht⟩
  | cons n r ih =>
    cases sub with
    | nil => simp at hr
    | cons m sub =>
      obtain ⟨rfl, hrest⟩ := List.cons_prefix_cons.mp hr
      obtain ⟨d, hd, hdir⟩ := ih hrest
      refine ⟨d, ?_, hdir⟩
      rw [Tree.lookup, Tree.find_cons]
      simpa [mountTree, Tree.lookup] using hd

/-- A running system with the tree at `sub`. -/
def mounted (sub : Path) (hsub : ∀ n ∈ sub, ValidName n) (t : DirTree) : Fs :=
  Fs.ofTree ⟨mountTree sub t.root, mountTree_wf hsub t.wf, mountTree_isDir t.isDir⟩

/-- The file system that has nothing but the tree below `sub` is a system that shows the tree at
`sub`. -/
theorem mounted_systemAt (sub : Path) (hsub : ∀ n ∈ sub, ValidName n) (t : DirTree) :
    SystemAt (mounted sub hsub t) sub t.root where
  above := by
    intro r hr
    obtain ⟨d, hd, hdir⟩ := mountTree_lookup_prefix t.isDir hr
    refine Fs.isDir_iff.mpr ⟨d.node, ?_, hdir⟩
    rw [mounted, Fs.find_ofTree, hd]
    rfl
  files := by
    intro p
    rw [mounted, Fs.find_ofTree, mountTree_lookup]

/-! ## A file with two names -/

/-- Two files with one content. -/
def pairRoot (perm perm' : BitVec 12) : Tree :=
  .node (plainDir 1)
    [(str "f", .node { plainFile 1 (str "x") with perm := perm } []),
      (str "g", .node { plainFile 1 (str "x") with perm := perm' } [])]

/-- Two files of one mode. -/
def modePair : PlainTree where
  root := pairRoot 0o755 0o755
  wf := by decide
  isDir := rfl
  oneDev := by decide
  plain := by decide

/-- `/f` and `/g` are names of one file of mode 0755. -/
def linkedFs : Fs :=
  (mounted [str "s"] (by decide) (⟨.node (plainDir 1)
    [(str "f", .node { plainFile 1 (str "x") with perm := 0o755 } [])], by decide, rfl⟩)).link
    [str "s", str "f"] [str "s", str "g"] (by decide)

/-- The comparison cannot tell the two names from two files. -/
theorem linkedFs_systemAt :
    SystemAt linkedFs [str "s"] modePair.root where
  above := by
    have hall : ∀ r ∈ ([str "s"] : Path).inits, linkedFs.isDir r = true := by decide +kernel
    exact fun r hr => hall r ((List.mem_inits r _).mpr hr)
  files := by
    intro p
    have hone := (mounted_systemAt [str "s"] (by decide) (⟨.node (plainDir 1)
      [(str "f", .node { plainFile 1 (str "x") with perm := 0o755 } [])], by decide, rfl⟩)).files p
    rw [linkedFs, Fs.find_link]
    by_cases hp : p = [str "g"]
    · subst hp
      decide +kernel
    · have hne : [str "s"] ++ p ≠ [str "s", str "g"] := fun heq => hp (List.cons.inj heq).2
      rw [Function.update_of_ne hne, hone]
      -- the trees have the same at all other paths
      refine congrArg (Option.map Inode.node) ?_
      cases p with
      | nil => rfl
      | cons c rest =>
        by_cases hc : c = str "g"
        · subst hc
          cases rest with
          | nil => exact absurd rfl hp
          | cons d rest => rfl
        · have hg : (c == str "g") = false := beq_false_of_ne hc
          simp [Tree.lookup, Tree.find_cons, modePair, pairRoot, List.lookup_cons, hg]

end Snapper
