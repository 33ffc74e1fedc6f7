import Snapper.Btrfs.Special

/-!
# Paths that are in neither tree

What is reported at the end of a stream.  The check of the statuses asks for the two files wherever
no mark stands, and fails if there is neither; so only a mark can name a path that neither tree
has.

## Main results

- `noPhantom_run`: a run of commands that meet the condition puts no such mark
- `report_exists`: what is reported after it exists in one of the trees
-/

namespace Snapper.Btrfs

open General

variable {T₁ T T' : DirTree} {p : Path} {files : TreeNode}

/-! ## Runs -/

/-- The current tree and the processor, which is gone after an exception. -/
abbrev Processing := SnapshotTree × Option StreamProcessor

/-- One command of the stream, with the tree it leads to. -/
def processStep (st : Processing) (a : AnyCommand × SnapshotTree) : Processing :=
  (a.2, st.2.bind a.1.process)

/-- The command does to the tree what it says. -/
def Applicable (st : Processing) (a : AnyCommand × SnapshotTree) : Prop :=
  a.1.Step st.1.toDirTree a.2.toDirTree

/-- The command meets its condition, which is about the state before it. -/
def Known (st : Processing) (a : AnyCommand × SnapshotTree) : Prop :=
  ∀ s, st.2 = some s → a.1.Known st.1.toDirTree s

/-- Along a run of applicable commands whose steps meet the condition no mark is at a path that
neither tree has, as long as the processor has not given up. -/
theorem noPhantom_run {T₁ : DirTree} {T₀ : SnapshotTree} {l : List (AnyCommand × SnapshotTree)}
    (happlies : Along Applicable processStep l (T₀, some (.start T₁)))
    (hknown : Along Known processStep l (T₀, some (.start T₁))) {s : StreamProcessor}
    (hs : (l.foldl processStep (T₀, some (.start T₁))).2 = some s) :
    s.dir1 = T₁ ∧
      NoPhantom T₁ (l.foldl processStep (T₀, some (.start T₁))).1.toDirTree s.files := by
  refine (happlies.and hknown).invariant (I := fun st => ∀ s, st.2 = some s →
    s.dir1 = T₁ ∧ NoPhantom T₁ st.1.toDirTree s.files) ?_ (fun st a hinv hstep s' hs' => ?_) s hs
  · intro s hstart
    obtain rfl := Option.some.inj hstart
    exact ⟨rfl, noPhantom_empty⟩
  · obtain ⟨s₀, hs₀, hrun⟩ := Option.bind_eq_some_iff.mp hs'
    obtain ⟨rfl, hmarks⟩ := hinv s₀ hs₀
    refine ⟨AnyCommand.process_dir1 hrun, ?_⟩
    exact AnyCommand.noPhantom hmarks hstep.1 (hstep.2 s₀ hs₀) hrun

/-! ## The report -/

namespace TreeNode

variable {dir1 dir2 : DirTree}

mutual
/-- Every node that is left by `check` has been checked. -/
theorem check_inv (pre : Path) : (t t' : TreeNode) → check dir1 dir2 pre t = some t' →
    ∀ e ∈ t'.nodes, ∃ v, (e.1, v) ∈ t.nodes ∧ checkStatus dir1 dir2 (pre ++ e.1) v = some e.2
  | .node v cs, t', h => by
    rw [check] at h
    obtain ⟨cs', hcs, rfl⟩ := Option.map_eq_some_iff.mp h
    exact checkChilds_inv pre cs cs' hcs
/-- What the check leaves below a directory comes from a node of before, with the status that the
two trees have for its path. -/
theorem checkChilds_inv (pre : Path) : (cs cs' : List (Name × TreeNode)) →
    checkChilds dir1 dir2 pre cs = some cs' →
      ∀ e ∈ Trie.nodesOf cs', ∃ v, (e.1, v) ∈ Trie.nodesOf cs ∧
        checkStatus dir1 dir2 (pre ++ e.1) v = some e.2
  | [], cs', h => by
    rw [checkChilds] at h
    obtain rfl := Option.some.inj h
    intro e he
    rw [Trie.nodesOf] at he
    cases he
  | (n, c) :: cs, cs', h => by
    rw [checkChilds] at h
    -- the check of the first child and that of the others have both succeeded
    obtain ⟨status, hstatus, h⟩ := Option.bind_eq_some_iff.mp h
    obtain ⟨c', hc, h⟩ := Option.bind_eq_some_iff.mp h
    obtain ⟨it, hit, h⟩ := Option.bind_eq_some_iff.mp h
    obtain rfl := Option.some.inj h
    have hnodes : (Trie.node status c'.childs).nodes = c'.nodes := by
      rw [Trie.nodes_eq, Trie.nodes_eq]
      rfl
    intro e he
    rw [Trie.nodesOf, hnodes, List.cons_append, List.mem_cons, List.mem_append] at he
    rw [Trie.nodesOf]
    -- the child itself, a node below it, or one of the other children
    obtain rfl | he | he := he
    · exact ⟨c.value, List.mem_cons_self, hstatus⟩
    · obtain ⟨e', he', rfl⟩ := List.mem_map.mp he
      obtain ⟨v, hv, hcheck⟩ := check_inv (pre ++ [n]) c c' hc e' he'
      refine ⟨v, List.mem_cons_of_mem _ (List.mem_append_left _ ?_), ?_⟩
      · exact List.mem_map.mpr ⟨(e'.1, v), hv, rfl⟩
      · rwa [List.append_assoc] at hcheck
    · obtain ⟨v, hv, hcheck⟩ := checkChilds_inv pre cs it hit e he
      exact ⟨v, List.mem_cons_of_mem _ (List.mem_append_right _ hv), hcheck⟩
end

theorem has_of_statBasename {T : DirTree} {d : Tree} {i : Inode}
    (hd : T.root.deepopen p.dropLast = some d) (hi : d.statBasename p = some i) : T.Has p := by
  obtain ⟨basename, hlast, hi⟩ := Option.bind_eq_some_iff.mp hi
  obtain ⟨t, ht, -⟩ := Option.map_eq_some_iff.mp hi
  exact DirTree.has_of_basename hd hlast ht

/-- Where no mark stands a status is left only if one of the trees has the path. -/
theorem exists_of_checkStatus {status status' : Status} (hno : status.createdOrDeleted = false)
    (htype : status.type = false) (hcheck : checkStatus dir1 dir2 p status = some status')
    (hne : status' ≠ 0) : dir1.Has p ∨ dir2.Has p := by
  obtain ⟨hc, hd⟩ := Bool.or_eq_false_iff.mp hno
  rw [checkStatus, hc, if_neg Bool.false_ne_true] at hcheck
  rw [hd, if_neg Bool.false_ne_true] at hcheck
  split_ifs at hcheck with hm
  · obtain ⟨subdir1, h1, hcheck⟩ := Option.bind_eq_some_iff.mp hcheck
    obtain ⟨subdir2, h2, hcheck⟩ := Option.bind_eq_some_iff.mp hcheck
    obtain ⟨compared, hcompared, -⟩ := Option.bind_eq_some_iff.mp hcheck
    -- the comparison needs one of the two files
    cases hi₁ : subdir1.statBasename p with
    | some i => exact Or.inl (has_of_statBasename h1 hi₁)
    | none =>
      cases hi₂ : subdir2.statBasename p with
      | some i => exact Or.inr (has_of_statBasename h2 hi₂)
      | none =>
        rw [hi₁, hi₂] at hcompared
        cases hcompared
  · obtain rfl := Option.some.inj hcheck
    exact absurd (eq_zero_of_not_modified hc hd htype (by simpa using hm)) hne

end TreeNode

theorem valid_of_has {T : DirTree} (h : T.Has p) : ∀ n ∈ p, ValidName n := by
  obtain ⟨c, hc⟩ := Option.isSome_iff_exists.mp h
  exact T.wf.validName hc

/-- What is reported after a run whose commands meet the condition exists in one of the trees. -/
theorem report_exists (T₁ T₀ : SnapshotTree) (l : List (AnyCommand × SnapshotTree))
    (happlies : Along Applicable processStep l (T₀, some (.start T₁.toDirTree)))
    (hknown : Along Known processStep l (T₀, some (.start T₁.toDirTree))) :
    ∀ s reports, (l.foldl processStep (T₀, some (.start T₁.toDirTree))).2 = some s →
      s.report (l.foldl processStep (T₀, some (.start T₁.toDirTree))).1.toDirTree = some reports →
        ∀ name status, (name, status) ∈ reports → ∃ p, name = pathName p ∧
          (T₁.Has p ∨ (l.foldl processStep (T₀, some (.start T₁.toDirTree))).1.Has p) := by
  intro s reports hs hreport name status hmem
  -- the invariant at the end of the run
  obtain ⟨hdir1, hmarks⟩ := noPhantom_run happlies hknown hs
  generalize (l.foldl processStep (T₀, some (.start T₁.toDirTree))).1 = T at hreport hmarks ⊢
  obtain ⟨checked, hchecked, rfl⟩ := Option.map_eq_some_iff.mp hreport
  obtain ⟨p, hp, hne, rfl⟩ := TreeNode.mem_result.mp hmem
  obtain ⟨v, hv, hcheck⟩ := TreeNode.check_inv [] s.files checked hchecked _ hp
  obtain ⟨c, hc, hvalue⟩ := ((Trie.mem_nodes s.ordered).mp hv).2
  have hget : s.files.get p = v := (Trie.get_of_find hc).trans hvalue
  -- with a mark by the invariant; without one the check has compared both files
  have hfound : T₁.Has p ∨ T.Has p := by
    by_cases hmark : v.createdOrDeleted = true
    · exact hmarks.exists_of_mark p (by rw [hget]; exact hmark)
    · have htype := hmarks.no_type p
      rw [hget] at htype
      rw [List.nil_append, hdir1] at hcheck
      exact TreeNode.exists_of_checkStatus (by simpa using hmark) htype hcheck hne
  refine ⟨p, TreeNode.slash_textBelow (Trie.ne_nil_of_mem_nodes hp) fun n hn => ?_, hfound⟩
  exact (hfound.elim valid_of_has valid_of_has n hn).ne_nil

/-- A file gets another name, and its place in the list. -/
theorem moves_flat {before after : List (Name × Inode)} {n m : Name} {i : Inode}
    (h : Flat (before ++ (n, i) :: after)) (h' : Flat (before ++ (m, i) :: after)) (hne : n ≠ m) :
    Moves (flat _ h).toDirTree (flat _ h').toDirTree [n] [m] where
  exists_src := (has_flat h _).mpr (Or.inr ⟨n, by simp, rfl⟩)
  bare_dst k := by
    rw [has_flat]
    rintro (hnil | ⟨k', -, heq⟩)
    · cases hnil
    · cases heq
  parent_dst := ⟨_, rfl, rfl⟩
  not_below hpre := hne (List.cons_prefix_cons.mp hpre).1
  has_iff p := by
    -- the two lists differ in one name
    have hnames : ∀ k l, k ∈ (before ++ (l, i) :: after).map Prod.fst ↔
        k = l ∨ k ∈ (before ++ after).map Prod.fst := by
      intro k l
      simp only [List.map_append, List.map_cons, List.mem_append, List.mem_cons]
      tauto
    rw [has_flat, has_flat]
    constructor
    -- a path of the list after the move is the root, the new name or one that stays
    · rintro (rfl | ⟨k, hk, rfl⟩)
      · exact Or.inr ⟨Or.inl rfl, by simp⟩
      · obtain rfl | hk := (hnames k m).mp hk
        · exact Or.inl
            ⟨[], rfl, (has_flat h _).mpr (Or.inr ⟨n, (hnames n n).mpr (Or.inl rfl), rfl⟩)⟩
        · refine Or.inr ⟨Or.inr ⟨k, (hnames k n).mpr (Or.inr hk), rfl⟩, fun hpre => ?_⟩
          obtain rfl := (List.cons_prefix_cons.mp hpre).1
          exact not_mem_of_flat h hk
    -- and one of the list before it was moved or is not the old name
    · rintro (⟨r, rfl, hr⟩ | ⟨rfl | ⟨k, hk, rfl⟩, hnot⟩)
      · obtain hnil | ⟨k, -, heq⟩ := (has_flat h _).mp hr
        · cases hnil
        · obtain rfl := (List.cons.inj heq).2
          exact Or.inr ⟨m, (hnames m m).mpr (Or.inl rfl), rfl⟩
      · exact Or.inl rfl
      · obtain rfl | hk := (hnames k n).mp hk
        · exact absurd List.prefix_rfl hnot
        · exact Or.inr ⟨k, (hnames k m).mpr (Or.inr hk), rfl⟩

/-! ## A file under a temporary name -/

/-- `/f`, and a new file that has its temporary name still -/
def temporaryFile : SnapshotTree :=
  flat [(str "f", fileInode 0o644 1), (str "o257", fileInode 0o600 2)] (by decide)

theorem mkfile_temporary : AnyCommand.Step (oneFile 0o644).toDirTree temporaryFile.toDirTree
    (.plain (.mkfile [str "o257"])) := by
  refine ⟨fileInode 0o600 2, @creates_flat [(str "f", fileInode 0o644 1)] [] _ _ _ (flat_one _),
    rfl, fun q j hj => ?_⟩
  obtain ⟨-, rfl⟩ | ⟨-, rfl⟩ := lookup_oneFile _ hj <;> decide

theorem moves_temporary : AnyCommand.Step temporaryFile.toDirTree bothFiles.toDirTree
    (.rename [str "o257"] [str "g"]) :=
  @moves_flat [(str "f", fileInode 0o644 1)] [] _ _ _ _ _ (by decide)

/-- What a send stream says of a new file and a removed one -/
def replacing : List (AnyCommand × SnapshotTree) :=
  [(.plain (.mkfile [str "o257"]), temporaryFile), (.rename [str "o257"] [str "g"], bothFiles),
    (.plain (.unlink [str "f"]), otherFile)]

/-- The new file is made under a temporary name and renamed, and the old one is removed. -/
theorem report_exists_replaced : ∃ s reports,
    (replacing.foldl processStep (oneFile 0o644, some (.start (oneFile 0o644).toDirTree))).2 =
      some s ∧ s.report otherFile.toDirTree = some reports ∧
      reports = [(pathName [str "f"], .DELETED), (pathName [str "g"], .CREATED)] ∧
      ∀ name status, (name, status) ∈ reports → ∃ p, name = pathName p ∧
        ((oneFile 0o644).Has p ∨ otherFile.Has p) := by
  have hknown : Along Known processStep replacing
      (oneFile 0o644, some (.start (oneFile 0o644).toDirTree)) := by
    refine ⟨fun s _ => trivial, fun s hs => ?_, fun s hs => ?_, trivial⟩
    · obtain rfl := Option.some.inj hs
      -- the node of the temporary name is the only one, and that file is there
      rintro (_ | ⟨n, r⟩) hmark
      · show temporaryFile.Has [str "o257"]
        decide
      · cases hmark
    · obtain rfl := Option.some.inj hs
      exact Or.inr (by decide)
  exact ⟨_, _, rfl, rfl, rfl, report_exists (oneFile 0o644) (oneFile 0o644) replacing
    ⟨mkfile_temporary, moves_temporary, unlink_other_applies, trivial⟩ hknown _ _ rfl rfl⟩

/-! ## A fifo under two names -/

/-- A fifo, which a stream makes under a temporary name as well. -/
def fifoInode : Inode :=
  { fmt := .fifo, perm := 0o644, uid := 0, gid := 0, mtimeSec := 0, mtimeNsec := 0, size := 0,
    dev := 1, ino := 257, data := none }

/-- A fifo, which has a temporary name at first -/
def oneFifo (name : Name) (h : Flat [(name, fifoInode)]) : SnapshotTree :=
  flat [(name, fifoInode)] h

theorem mkfifo_applies : AnyCommand.Step noFile.toDirTree
    (oneFifo (str "o257") (by decide)).toDirTree (.mkfifo [str "o257"]) :=
  ⟨fifoInode, @creates_flat [] [] _ _ _ (by decide), rfl⟩

theorem moves_fifo : AnyCommand.Step (oneFifo (str "o257") (by decide)).toDirTree
    (oneFifo (str "f") (by decide)).toDirTree (.rename [str "o257"] [str "f"]) :=
  @moves_flat [] [] _ _ _ _ _ (by decide)

/-- `mkfifo o257` and `rename o257 f`: the temporary name is reported as deleted. -/
theorem report_names_phantom :
    ¬∀ (T₁ T₀ : SnapshotTree) (l : List (AnyCommand × SnapshotTree)),
      Copies T₁.toDirTree T₀.toDirTree →
      Along Applicable processStep l (T₀, some (.start T₁.toDirTree)) →
      ∀ s reports, (l.foldl processStep (T₀, some (.start T₁.toDirTree))).2 = some s →
        s.report (l.foldl processStep (T₀, some (.start T₁.toDirTree))).1.toDirTree = some reports →
          ∀ name status, (name, status) ∈ reports → ∃ p, name = pathName p ∧
            (T₁.Has p ∨ (l.foldl processStep (T₀, some (.start T₁.toDirTree))).1.Has p) := by
  intro h
  -- the fifo is made under a temporary name, which the stream does not note, and renamed
  have happlies : Along Applicable processStep
      [(.mkfifo [str "o257"], oneFifo (str "o257") (by decide)),
        (.rename [str "o257"] [str "f"], oneFifo (str "f") (by decide))]
      (noFile, some (.start noFile.toDirTree)) := ⟨mkfifo_applies, moves_fifo, trivial⟩
  obtain ⟨p, hname, hhas⟩ := h noFile noFile _ (copies_self _) happlies _
    [(pathName [str "f"], .CREATED), (pathName [str "o257"], .DELETED)] rfl rfl
    (pathName [str "o257"]) .DELETED (List.mem_cons_of_mem _ List.mem_cons_self)
  have hvalid : ∀ n ∈ p, ValidName n := hhas.elim valid_of_has valid_of_has
  have hp : [str "o257"] = p := pathName_injective (by decide) (fun n hn => (hvalid n hn).no_slash)
    hname
  subst hp
  -- the temporary name is in neither of the two snapshots
  obtain hhas | hhas := hhas
  · exact absurd hhas (by decide)
  · exact absurd hhas (by decide)

end Snapper.Btrfs
