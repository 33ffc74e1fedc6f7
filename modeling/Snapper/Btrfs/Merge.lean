import Snapper.Btrfs.Rename

/-!
# Merging a renamed subtree

What `process_rename` does to the pending difference where both the source and the destination
have a node in the tree of statuses.

## Main results

- `processRename_merge`: the branch puts a list of marks
- `merged_faithful_iff`: when the difference stays faithful
-/

namespace Snapper.Btrfs

open General

/-! ## What the branch does -/

variable {T₁ T T' : DirTree} {src dst : Path} {files node : TreeNode}

/-- Where `merge` puts the node at `w` of the source: `dst` stands in front once for every
level. -/
def landing (dst w : Path) : Path := (List.replicate w.length dst).flatten ++ w

theorem landing_cons (dst : Path) (n : Name) (w : Path) :
    landing dst (n :: w) = dst ++ ((List.replicate w.length dst).flatten ++ n :: w) := by
  rw [landing, List.length_cons, List.replicate_succ, List.flatten_cons, List.append_assoc]

theorem landing_singleton (dst : Path) (n : Name) : landing dst [n] = dst ++ [n] := by
  rw [landing_cons]
  rfl

theorem length_landing (dst w : Path) :
    (landing dst w).length = w.length * dst.length + w.length := by
  simp [landing, List.length_flatten]

theorem prefix_landing {dst w : Path} (hw : w ≠ []) : dst <+: landing dst w := by
  cases w with
  | nil => exact absurd rfl hw
  | cons n w =>
    rw [landing_cons]
    exact List.prefix_append ..

theorem landing_injective (dst : Path) : Function.Injective (landing dst) := by
  intro v w heq
  have hlength := congrArg List.length heq
  simp only [length_landing, ← Nat.mul_succ] at hlength
  have hsame : v.length = w.length := Nat.eq_of_mul_eq_mul_right (Nat.succ_pos _) hlength
  rw [landing, landing, hsame] at heq
  exact List.append_cancel_left heq

/-- All marks of the third branch. -/
def mergeMarks (dst : Path) (node : TreeNode) : List (Path × Status) :=
  (dst, .CREATED) :: node.nodes.map fun e => (landing dst e.1, e.2)

/-- The tree after the third branch. -/
def merged (src dst : Path) (files node : TreeNode) : TreeNode :=
  (mergeMarks dst node).foldl (Trie.place Status.touched) (files.detach src)

/-- `merge` puts every node of the detached tree at its landing place. -/
theorem merge_files_nil (s : StreamProcessor) (tmp : TreeNode) (dst : Path) :
    (s.merge tmp dst []).files =
      (tmp.nodes.map fun e => (landing dst e.1, e.2)).foldl (Trie.place Status.touched)
        s.files := by
  rw [StreamProcessor.merge_files]
  congr 2
  funext e
  rw [StreamProcessor.landingFrom, List.append_nil]
  rfl

/-- Where both names have nodes, the rename merges the subtree of the old one into that of the new
one. -/
theorem processRename_merge {s : StreamProcessor} (hnode : s.files.find src = some node)
    (hdst : s.files.Has dst) :
    ∃ s', s.processRename src dst = some s' ∧ s'.files = merged src dst s.files node := by
  obtain ⟨c, hc⟩ := Trie.has_iff.mp hdst
  rw [StreamProcessor.processRename, hnode]
  dsimp only
  rw [hc]
  refine ⟨_, rfl, ?_⟩
  have hhas : (s.files.modify Trie.bare src).Has src := by
    have hkept := (Trie.has_modify_append (f := Trie.bare) (p := src) (q := [])).mpr
      ⟨node, hnode, Trie.has_nil _⟩
    rwa [List.append_nil] at hkept
  have hnodes : (Trie.node (0 : Status) node.childs).nodes = node.nodes := by
    rw [Trie.nodes_eq, Trie.nodes_eq]
    rfl
  rw [merge_files_nil, StreamProcessor.created_files,
    StreamProcessor.deleted_of_has (s := s.edit _ _) hhas, hnodes, merged, mergeMarks,
    List.foldl_cons]
  rfl

/-! ## The marks -/

/-- No two nodes of the merged subtree land at one place. -/
theorem mergeMarks_distinct (hord : node.Ordered) :
    (mergeMarks dst node).Pairwise fun a b => a.1 ≠ b.1 := by
  refine List.pairwise_cons.mpr ⟨fun m hm heq => ?_, ?_⟩
  · -- every node of the source is put below the destination
    obtain ⟨e, he, rfl⟩ := List.mem_map.mp hm
    have hlength := congrArg List.length heq
    have hpos := List.length_pos_of_ne_nil (Trie.ne_nil_of_mem_nodes he)
    have hle := Nat.le_mul_of_pos_left dst.length hpos
    simp only [length_landing] at hlength
    omega
  · rw [List.pairwise_map]
    refine (Trie.nodes_preorder hord).imp fun {a b} hab (heq : landing dst a.1 = _) => hab ?_
    exact landing_injective dst heq ▸ List.prefix_rfl

/-- Nothing lands at the root, as the destination is not the root. -/
theorem mergeMarks_ne_nil (hdst : dst ≠ []) : ∀ m ∈ mergeMarks dst node, m.1 ≠ [] := by
  intro m hm
  obtain rfl | hm := List.mem_cons.mp hm
  · exact hdst
  · obtain ⟨e, he, rfl⟩ := List.mem_map.mp hm
    intro hnil
    have hpre : dst <+: landing dst e.1 := prefix_landing (Trie.ne_nil_of_mem_nodes he)
    exact hdst (List.prefix_nil.mp (hnil ▸ hpre))

/-- A mark is the one of the destination, or that of a node of the source with those of the nodes
before and after it. -/
theorem mergeMarks_split {l₁ l₂ : List (Path × Status)} {m : Path × Status}
    (h : mergeMarks dst node = l₁ ++ m :: l₂) :
    m = (dst, .CREATED) ∨ ∃ before w status after, node.nodes = before ++ (w, status) :: after ∧
      l₁ = (dst, .CREATED) :: before.map (fun e => (landing dst e.1, e.2)) ∧
      m = (landing dst w, status) ∧ l₂ = after.map (fun e => (landing dst e.1, e.2)) := by
  cases l₁ with
  | nil => exact Or.inl (List.cons.inj h).1.symm
  | cons m₁ l₁ =>
    obtain ⟨rfl, htail⟩ := List.cons.inj h
    obtain ⟨before, rest, hnodes, rfl, hrest⟩ := List.map_eq_append_iff.mp htail
    obtain ⟨⟨w, status⟩, after, rfl, rfl, rfl⟩ := List.map_eq_cons_iff.mp hrest
    exact Or.inr ⟨before, w, status, after, hnodes, rfl, rfl, rfl⟩

/-! ## The tree after the branch -/

/-- There is no node yet where the node at `w` is put, after those before it. -/
def Unmet (files : TreeNode) (dst : Path) (before : List (Path × Status)) (w : Path) : Prop :=
  ¬files.Has (landing dst w) ∧ ∀ e ∈ before, ¬landing dst w <+: landing dst e.1

instance (before : List (Path × Status)) (w : Path) : Decidable (Unmet files dst before w) :=
  inferInstanceAs (Decidable (_ ∧ _))

section Files

theorem get_detach_dst (h : Apart src dst) (r : Path) :
    (files.detach src).get (dst ++ r) = files.get (dst ++ r) := by
  rw [Trie.get_detach _ h.src_ne_nil, if_neg (h.disjoint (List.prefix_append ..))]

/-- Below the destination nothing is detached. -/
theorem has_detach_dst (h : Apart src dst) (r : Path) :
    (files.detach src).Has (dst ++ r) ↔ files.Has (dst ++ r) := by
  refine Trie.has_detach_other _ (h.disjoint (List.prefix_append dst r)) fun hpre => ?_
  exact h.not_above ((List.prefix_append dst r).trans hpre)

/-- Whether a mark is the first at its place can be read off the trees: no node of before is
there, and none of the marks that went in earlier. -/
theorem fresh_iff (h : Apart src dst) {before : List (Path × Status)} {w : Path} (hw : w ≠ []) :
    (files.detach src).Fresh
      ((dst, .CREATED) :: before.map fun e => (landing dst e.1, e.2)) (landing dst w) ↔
      Unmet files dst before w := by
  have hhas : (files.detach src).Has (landing dst w) ↔ files.Has (landing dst w) := by
    obtain ⟨r, hr⟩ := prefix_landing hw
    rw [← hr]
    exact has_detach_dst h r
  -- the destination itself is above
  have hdst : ¬landing dst w <+: dst := by
    intro hpre
    have hlength := hpre.length_le
    have hpos := List.length_pos_of_ne_nil hw
    have hle := Nat.le_mul_of_pos_left dst.length hpos
    rw [length_landing] at hlength
    omega
  rw [Trie.Fresh, Unmet, hhas, List.forall_mem_cons, List.forall_mem_map]
  simp only [hdst, not_false_eq_true, true_and]

/-- At a path where nothing lands the status is that of before, with the source taken out. -/
theorem get_merged_other {p : Path}
    (hp : p ≠ dst ∧ ∀ e ∈ node.nodes, p ≠ landing dst e.1) :
    (merged src dst files node).get p = (files.detach src).get p := by
  refine Trie.get_foldl_place_other fun m hm heq => ?_
  obtain rfl | hm := List.mem_cons.mp hm
  · exact hp.1 heq.symm
  · obtain ⟨e, he, rfl⟩ := List.mem_map.mp hm
    exact hp.2 e he heq.symm

/-- The destination itself gets the mark of a creation on top of the status that it has. -/
theorem get_merged_dst (h : Apart src dst) (hord : node.Ordered) (hdst : files.Has dst) :
    (merged src dst files node).get dst = (files.get dst).touched := by
  have hhas : (files.detach src).Has dst := by
    have hkept : (files.detach src).Has (dst ++ []) ↔ _ := has_detach_dst h []
    rw [List.append_nil] at hkept
    exact hkept.mpr hdst
  have hget : (files.detach src).get (dst ++ []) = _ := get_detach_dst h []
  rw [List.append_nil] at hget
  have hmark : (([] ++ mergeMarks dst node).foldl (Trie.place Status.touched)
      (files.detach src)).get dst = _ := Trie.get_foldl_place (mergeMarks_distinct hord)
  rw [if_neg fun hfresh => hfresh.1 hhas, hget] at hmark
  exact hmark

/-- Where a node lands its status is set if nothing was there; else the status there is touched.
-/
theorem get_merged_landing (h : Apart src dst) (hord : node.Ordered)
    {before after : List (Path × Status)} {w : Path} {status : Status}
    (hnodes : node.nodes = before ++ (w, status) :: after) :
    (merged src dst files node).get (landing dst w) =
      if Unmet files dst before w then status else (files.get (landing dst w)).touched := by
  have hmem : (w, status) ∈ node.nodes := by simp [hnodes]
  have hw : w ≠ [] := Trie.ne_nil_of_mem_nodes hmem
  have hmarks : mergeMarks dst node =
      ((dst, .CREATED) :: before.map fun e => (landing dst e.1, e.2)) ++
        (landing dst w, status) :: after.map fun e => (landing dst e.1, e.2) := by
    rw [mergeMarks, hnodes, List.map_append, List.map_cons, List.cons_append]
  have hget : (files.detach src).get (landing dst w) = files.get (landing dst w) := by
    obtain ⟨r, hr⟩ := prefix_landing hw
    rw [← hr]
    exact get_detach_dst h r
  rw [merged, hmarks, Trie.get_foldl_place (hmarks ▸ mergeMarks_distinct hord), hget]
  simp only [fresh_iff h hw]

/-- The result of a merge is tidy exactly when every directory that it makes without a status gets
something below it that is put there later. -/
theorem tidy_merged_iff (h : Apart src dst) (hf : Faithful T₁ T files)
    (hord : node.Ordered) :
    (merged src dst files node).Tidy ↔ ∀ before w status after,
      node.nodes = before ++ (w, status) :: after → Unmet files dst before w → status = 0 →
        ∃ e ∈ after, landing dst w <+: landing dst e.1 := by
  rw [merged, Trie.tidy_foldl_place Status.touched_ne_zero
    (Trie.tidy_detach hf.tidy h.src_ne_nil) (mergeMarks_ne_nil h.dst_ne_nil)
    (mergeMarks_distinct hord)]
  constructor
  -- the directions differ in the reading of the marks as nodes of the merged tree
  · intro hbelow before w status after hnodes hunmet hzero
    have hmem : (w, status) ∈ node.nodes := by simp [hnodes]
    have hw : w ≠ [] := Trie.ne_nil_of_mem_nodes hmem
    obtain ⟨a, ha, hpre⟩ := hbelow _ (landing dst w, status) _
      (by rw [mergeMarks, hnodes, List.map_append, List.map_cons, ← List.cons_append])
      ((fresh_iff h hw).mpr hunmet) hzero
    obtain ⟨e, he, rfl⟩ := List.mem_map.mp ha
    exact ⟨e, he, hpre⟩
  · intro hbelow l₁ m l₂ hsplit hfresh hzero
    obtain rfl | ⟨before, w, status, after, hnodes, rfl, rfl, rfl⟩ := mergeMarks_split hsplit
    · cases hzero
    · have hmem : (w, status) ∈ node.nodes := by simp [hnodes]
      have hw : w ≠ [] := Trie.ne_nil_of_mem_nodes hmem
      obtain ⟨e, he, hpre⟩ := hbelow before w status after hnodes ((fresh_iff h hw).mp hfresh)
        hzero
      exact ⟨_, List.mem_map_of_mem he, hpre⟩

end Files

/-! ## When the difference stays faithful -/

/-- What `merge` needs: nothing is two levels below the source, and each node of the source is put
where its status is right. -/
structure Merges (T₁ T : DirTree) (files node : TreeNode) (src dst : Path) : Prop where
  shallow : ∀ n m, ¬T.Has (src ++ [n, m])
  arrives : ∀ before w status after, node.nodes = before ++ (w, status) :: after →
    T.Has (src ++ w) → T₁.Has (landing dst w) ∨ Unmet files dst before w
  absent : ∀ before w status after, node.nodes = before ++ (w, status) :: after →
    ¬T.Has (src ++ w) → ¬T₁.Has (landing dst w)
  covered : ∀ before w after, node.nodes = before ++ (w, 0) :: after →
    Unmet files dst before w → ∃ e ∈ after, landing dst w <+: landing dst e.1

/-- The nodes of the source, as the whole tree has them. -/
theorem mem_nodes_src (hord : node.Ordered) (hnode : files.find src = some node) {w : Path}
    {status : Status} : (w, status) ∈ node.nodes ↔
      w ≠ [] ∧ files.Has (src ++ w) ∧ files.get (src ++ w) = status := by
  rw [Trie.mem_nodes hord, Trie.get_append hnode, Trie.has_append, hnode]
  refine and_congr_right fun _ => ?_
  constructor
  · intro ⟨c, hc, hv⟩
    exact ⟨⟨node, rfl, Trie.has_iff.mpr ⟨c, hc⟩⟩, (Trie.get_of_find hc).trans hv⟩
  · intro ⟨⟨d, hd, hhas⟩, hv⟩
    obtain rfl := Option.some.inj hd
    obtain ⟨c, hc⟩ := Trie.has_iff.mp hhas
    exact ⟨c, hc, (Trie.get_of_find hc).symm.trans hv⟩

theorem get_merged_src (h : Apart src dst) (r : Path) :
    (merged src dst files node).get (src ++ r) = 0 := by
  have hother : src ++ r ≠ dst ∧ ∀ e ∈ node.nodes, src ++ r ≠ landing dst e.1 := by
    refine ⟨fun heq => h.not_below ⟨r, heq⟩, fun e he heq => ?_⟩
    exact h.disjoint (prefix_landing (Trie.ne_nil_of_mem_nodes he)) ⟨r, heq⟩
  rw [get_merged_other hother, Trie.get_detach _ h.src_ne_nil, if_pos (List.prefix_append src r)]

theorem get_merged_far (h : Apart src dst) {p : Path} (hsrc : ¬src <+: p)
    (hdst : ¬dst <+: p) : (merged src dst files node).get p = files.get p := by
  have hother : p ≠ dst ∧ ∀ e ∈ node.nodes, p ≠ landing dst e.1 := by
    refine ⟨fun heq => hdst (heq ▸ List.prefix_rfl), fun e he heq => hdst ?_⟩
    rw [heq]
    exact prefix_landing (Trie.ne_nil_of_mem_nodes he)
  rw [get_merged_other hother, Trie.get_detach _ h.src_ne_nil, if_neg hsrc]

section Shallow

variable (hshallow : ∀ n m, ¬T.Has (src ++ [n, m]))
include hshallow

theorem not_has_deep {r : Path} (hr : 2 ≤ r.length) : ¬T.Has (src ++ r) := by
  match r, hr with
  | n :: m :: r, _ =>
    intro hhas
    have hsplit : src ++ n :: m :: r = (src ++ [n, m]) ++ r := by simp
    rw [hsplit] at hhas
    exact hshallow n m hhas.above

/-- Where nothing is two levels below the source, a node is put where its file arrives, or
neither is there. -/
theorem has_landing {w r : Path} (hw : w ≠ []) (hland : dst ++ r = landing dst w) :
    T.Has (src ++ r) ↔ T.Has (src ++ w) := by
  cases w with
  | nil => exact absurd rfl hw
  | cons n w =>
    rw [landing_cons] at hland
    obtain rfl := List.append_cancel_left hland
    cases w with
    | nil => rfl
    | cons m w =>
      -- two levels down neither path exists
      have hleft :
          ¬T.Has (src ++ ((List.replicate (m :: w).length dst).flatten ++ n :: m :: w)) := by
        apply not_has_deep hshallow
        simp only [List.length_append, List.length_cons]
        omega
      have hright : ¬T.Has (src ++ n :: m :: w) := by
        apply not_has_deep hshallow
        rw [List.length_cons, List.length_cons]
        omega
      exact iff_of_false hleft hright

end Shallow

/-- Nothing is put two levels below the destination. -/
theorem landing_ne_pair (hdst : dst ≠ []) (w : Path) (n m : Name) :
    dst ++ [n, m] ≠ landing dst w := by
  intro heq
  have hlength := congrArg List.length heq
  have hpos := List.length_pos_of_ne_nil hdst
  rw [length_landing, List.length_append, List.length_cons, List.length_singleton] at hlength
  -- every level adds the length of the destination and one
  match hw : w.length with
  | 0 =>
    rw [hw] at hlength
    omega
  | 1 =>
    rw [hw] at hlength
    omega
  | k + 2 =>
    rw [hw, Nat.succ_mul, Nat.succ_mul] at hlength
    omega

/-- A source that the base does not have is marked as created, file by file. -/
theorem flags_src (h : Renames T T' src dst) (hf : Faithful T₁ T files) (hbase : ¬T₁.Has src)
    (r : Path) : ((files.get (src ++ r)).created = true ↔ T.Has (src ++ r)) ∧
      (files.get (src ++ r)).deleted = false := by
  have hne : src ++ r ≠ [] := by simp [h.apart.src_ne_nil]
  have hno : ¬T₁.Has (src ++ r) := fun hhas => hbase hhas.above
  have hcreated := hf.created_iff (src ++ r) hne
  have hdeleted := hf.deleted_iff (src ++ r) hne
  simp only [hno, not_false_eq_true, and_true] at hcreated
  simp only [hno, false_and, iff_false, Bool.not_eq_true] at hdeleted
  exact ⟨hcreated, hdeleted⟩

/-- With nodes for both the difference stays faithful exactly when the base tree has the
destination but not the source, and `merge` puts every status right. -/
theorem merged_faithful_iff (h : Renames T T' src dst) (hf : Faithful T₁ T files)
    (hord : node.Ordered) (hnode : files.find src = some node) (hdst : files.Has dst) :
    Faithful T₁ T' (merged src dst files node) ↔
      ¬T₁.Has src ∧ T₁.Has dst ∧ Merges T₁ T files node src dst := by
  rw [h.faithful_iff hf fun _ => get_merged_far h.apart, tidy_merged_iff h.apart hf hord]
  simp only [get_merged_src h.apart, Status.created_zero, Status.deleted_zero]
  constructor
  · intro ⟨htidy, hatsrc, hatdst⟩
    have hbase : ¬T₁.Has src := by
      have hdeleted := (hatsrc []).2
      rw [List.append_nil] at hdeleted
      exact fun hhas => absurd (hdeleted.mpr hhas) Bool.false_ne_true
    have hknown : T₁.Has dst := by
      have hcreated := (hatdst []).1
      rw [List.append_nil, List.append_nil, get_merged_dst h.apart hord hdst] at hcreated
      by_contra hno
      exact absurd (hcreated.mpr ⟨h.exists_src, hno⟩) Bool.false_ne_true
    have hshallow : ∀ n m, ¬T.Has (src ++ [n, m]) := by
      intro n m hhas
      -- no node is put there, and the status from before is wrong
      have hother : dst ++ [n, m] ≠ dst ∧ ∀ e ∈ node.nodes, dst ++ [n, m] ≠ landing dst e.1 :=
        ⟨by simp, fun e _ => landing_ne_pair h.apart.dst_ne_nil e.1 n m⟩
      obtain ⟨hcreated, hdeleted⟩ := hatdst [n, m]
      rw [get_merged_other hother, get_detach_dst h.apart] at hcreated hdeleted
      obtain ⟨hcreated', hdeleted'⟩ := h.pending_dst hf [n, m]
      rw [hcreated'] at hcreated
      rw [hdeleted'] at hdeleted
      have hT₁ : ¬T₁.Has (dst ++ [n, m]) := fun hhas' => (hdeleted.mp hhas').2 hhas
      exact Bool.false_ne_true (hcreated.mpr ⟨hhas, hT₁⟩)
    refine ⟨hbase, hknown, hshallow, ?_, ?_, ?_⟩
    · intro before w status after hnodes hhas
      have hmem : (w, status) ∈ node.nodes := by simp [hnodes]
      obtain ⟨hw, -, -⟩ := (mem_nodes_src hord hnode).mp hmem
      obtain ⟨r, hr⟩ := prefix_landing hw
      have hcreated := (hatdst r).1
      rw [hr, get_merged_landing h.apart hord hnodes, has_landing hshallow hw hr] at hcreated
      by_contra hno
      push Not at hno
      rw [if_neg hno.2] at hcreated
      exact Bool.false_ne_true (hcreated.mpr ⟨hhas, hno.1⟩)
    · intro before w status after hnodes hhas hT₁
      have hmem : (w, status) ∈ node.nodes := by simp [hnodes]
      obtain ⟨hw, -, hstatus⟩ := (mem_nodes_src hord hnode).mp hmem
      obtain ⟨r, hr⟩ := prefix_landing hw
      have hdeleted := (hatdst r).2
      rw [hr, get_merged_landing h.apart hord hnodes, has_landing hshallow hw hr] at hdeleted
      have hmarked := hdeleted.mpr ⟨hT₁, hhas⟩
      split_ifs at hmarked
      · rw [← hstatus, (flags_src h hf hbase w).2] at hmarked
        exact Bool.false_ne_true hmarked
      · exact Bool.false_ne_true hmarked
    · intro before w after hnodes hunmet
      exact htidy before w 0 after hnodes hunmet rfl
  · intro ⟨hbase, hknown, hm⟩
    refine ⟨?_, fun r => ?_, fun r => ?_⟩
    · intro before w status after hnodes hunmet hzero
      exact hm.covered before w after (hzero ▸ hnodes) hunmet
    · have hno : ¬T₁.Has (src ++ r) := fun hhas => hbase hhas.above
      simp [hno]
    · by_cases hnil : r = []
      · subst hnil
        rw [List.append_nil, List.append_nil, get_merged_dst h.apart hord hdst]
        simp [hknown, h.exists_src]
      · by_cases hput : ∃ e ∈ node.nodes, dst ++ r = landing dst e.1
        · obtain ⟨⟨w, status⟩, hmem, hr⟩ := hput
          obtain ⟨before, after, hnodes⟩ := List.append_of_mem hmem
          obtain ⟨hw, -, hstatus⟩ := (mem_nodes_src hord hnode).mp hmem
          rw [has_landing hm.shallow hw hr]
          simp only at hr
          rw [hr, get_merged_landing h.apart hord hnodes]
          obtain ⟨hcreated, hdeleted⟩ := flags_src h hf hbase w
          rw [hstatus] at hcreated hdeleted
          by_cases hhas : T.Has (src ++ w)
          · split_ifs with hunmet
            · have hnew : ¬T₁.Has (landing dst w) := by
                rw [← hr, ← hf.no_node (by simp [h.apart.dst_ne_nil]) (hr ▸ hunmet.1)]
                exact h.not_has_dst r
              simp [hcreated, hdeleted, hhas, hnew]
            · have hold := (hm.arrives before w status after hnodes hhas).resolve_right hunmet
              simp [hhas, hold]
          · have hnew := hm.absent before w status after hnodes hhas
            split_ifs
            · simp [hcreated, hdeleted, hhas, hnew]
            · simp [hhas, hnew]
        · -- nothing is put there, and no file arrives
          push Not at hput
          have hnone : ¬T.Has (src ++ r) := by
            intro hhas
            match r, hnil with
            | [n], _ =>
              have hnew : ¬T₁.Has (src ++ [n]) := fun hT₁ => hbase hT₁.above
              have hnodehas := hf.node_of_new (by simp) hhas hnew
              refine hput _
                ((mem_nodes_src hord hnode).mpr ⟨List.cons_ne_nil n [], hnodehas, rfl⟩) ?_
              exact (landing_singleton dst n).symm
            | n :: m :: r, _ => exact not_has_deep hm.shallow (by simp) hhas
          have hother : dst ++ r ≠ dst ∧ ∀ e ∈ node.nodes, dst ++ r ≠ landing dst e.1 :=
            ⟨by simp [hnil], hput⟩
          obtain ⟨hcreated, hdeleted⟩ := h.pending_dst hf r
          rw [get_merged_other hother, get_detach_dst h.apart, hcreated, hdeleted]
          simp [hnone]

end Snapper.Btrfs
