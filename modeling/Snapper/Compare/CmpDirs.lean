import Snapper.Compare.CmpFiles
import Snapper.General.MergeJoin

/-!
# Comparing two directory trees

`cmpDirs` walks two trees together.  In each directory the sorted names of both
sides are merged: a name of one side only is `lonesome`, a name of both sides is a
`twosome`.  The reports are listed in the order in which the callback is called.
-/

namespace Snapper

/-- One call of the callback `cmpdirs_cb_t`. -/
abbrev Report := Str × Status

/-- `filter`: the directory in which snapper keeps its own files. -/
def filter (name : Str) : Bool := name = str "/.snapshots"

mutual
/-- Report everything below a directory. -/
def listSubdirs : Tree → Str → Status → List Report
  | .node _ es, path, status => listEntries es path status
/-- The loop of `listSubdirs` over the entries of the directory. -/
def listEntries : List (Name × Tree) → Str → Status → List Report
  | [], _, _ => []
  | (n, t) :: es, path, status =>
    ((path ++ slash :: n, status) ::
      if t.isDir then listSubdirs t (path ++ slash :: n) status else []) ++
    listEntries es path status
end

/-- The devices of the two compared directories. -/
structure CmpData where
  dev1 : Nat
  dev2 : Nat

/-- A file of one side only. -/
def lonesome (path : Str) (name : Name) (t : Tree) (status : Status) : List Report :=
  (path ++ slash :: name, status) ::
    if t.isDir then listSubdirs t (path ++ slash :: name) status else []

/-- A file of both sides.  `worker` is `cmpDirsWorker` for the directories below. -/
def twosome (cmpData : CmpData) (worker : Tree → Tree → Str → List Report) (path : Str)
    (name : Name) (t1 t2 : Tree) : List Report :=
  let status :=
    if t1.inode.dev = cmpData.dev1 ∧ t2.inode.dev = cmpData.dev2 then
      cmpFiles t1.inode t2.inode
    else .zero
  (if status ≠ .zero then [(path ++ slash :: name, status)] else []) ++
  if status.type = false then
    if t1.isDir then
      if t1.inode.dev = cmpData.dev1 ∧ t2.inode.dev = cmpData.dev2 then
        worker t1 t2 (path ++ slash :: name)
      else []
    else []
  else
    (if t1.isDir then
      if t1.inode.dev = cmpData.dev1 then
        listSubdirs t1 (path ++ slash :: name) .DELETED
      else []
    else []) ++
    (if t2.isDir then
      if t2.inode.dev = cmpData.dev2 then
        listSubdirs t2 (path ++ slash :: name) .CREATED
      else []
    else [])

/-- The `while` loop of `cmpDirsWorker` over the two sorted listings, from the
cursors `first1` and `first2` on. -/
def cmpDirsLoop (cmpData : CmpData) (two : Name → Tree → Tree → List Report) (path : Str) :
    List (Name × Tree) → List (Name × Tree) → List Report
  | [], [] => []
  | [], (n2, t2) :: r =>
    if filter (path ++ slash :: n2) then cmpDirsLoop cmpData two path [] r
    else
      (if t2.inode.dev = cmpData.dev2 then lonesome path n2 t2 .CREATED else []) ++
        cmpDirsLoop cmpData two path [] r
  | (n1, t1) :: l, [] =>
    if filter (path ++ slash :: n1) then cmpDirsLoop cmpData two path l []
    else
      (if t1.inode.dev = cmpData.dev1 then lonesome path n1 t1 .DELETED else []) ++
        cmpDirsLoop cmpData two path l []
  | (n1, t1) :: l, (n2, t2) :: r =>
    if filter (path ++ slash :: n1) then cmpDirsLoop cmpData two path l ((n2, t2) :: r)
    else if filter (path ++ slash :: n2) then cmpDirsLoop cmpData two path ((n1, t1) :: l) r
    else if n2 < n1 then
      (if t2.inode.dev = cmpData.dev2 then lonesome path n2 t2 .CREATED else []) ++
        cmpDirsLoop cmpData two path ((n1, t1) :: l) r
    else if n1 < n2 then
      (if t1.inode.dev = cmpData.dev1 then lonesome path n1 t1 .DELETED else []) ++
        cmpDirsLoop cmpData two path l ((n2, t2) :: r)
    else
      -- neither name is below the other, so they are equal
      two n1 t1 t2 ++ cmpDirsLoop cmpData two path l r
termination_by l r => l.length + r.length

/-- `sort(entries.begin(), entries.end())` -/
def sortEntries (es : List (Name × Tree)) : List (Name × Tree) :=
  es.insertionSort fun x y => x.1 ≤ y.1

/-- `cmpDirsWorker`; `fuel` bounds the directory levels below `dir1`. -/
def cmpDirsWorker (cmpData : CmpData) : Nat → Tree → Tree → Str → List Report
  | 0, _, _, _ => []
  | fuel + 1, dir1, dir2, path =>
    cmpDirsLoop cmpData (twosome cmpData (cmpDirsWorker cmpData fuel) path) path
      (sortEntries dir1.entries) (sortEntries dir2.entries)

/-- The calls of the callback in `cmpDirs(dir1, dir2, cb)`. -/
def cmpDirs (dir1 dir2 : Tree) : List Report :=
  cmpDirsWorker { dev1 := dir1.inode.dev, dev2 := dir2.inode.dev } (dir1.height + 1) dir1 dir2 []

/-! ## The loop is a merge join -/

open General

/-- What one visit of the merged listings reports. -/
def visit (cmpData : CmpData) (two : Name → Tree → Tree → List Report) (path : Str) :
    Name × Joined Tree Tree → List Report
  | (n, .left t) => if t.inode.dev = cmpData.dev1 then lonesome path n t .DELETED else []
  | (n, .right t) => if t.inode.dev = cmpData.dev2 then lonesome path n t .CREATED else []
  | (n, .both t1 t2) => two n t1 t2

/-- The entries of a listing that are compared. -/
def keepEntries (path : Str) (es : List (Name × Tree)) : List (Name × Tree) :=
  es.filter fun e => !filter (path ++ slash :: e.1)

theorem keepEntries_cons_of_filter {path : Str} {n : Name} {t : Tree} {es : List (Name × Tree)}
    (h : filter (path ++ slash :: n) = true) :
    keepEntries path ((n, t) :: es) = keepEntries path es := by
  simp [keepEntries, h]

theorem keepEntries_cons_of_not_filter {path : Str} {n : Name} {t : Tree}
    {es : List (Name × Tree)} (h : ¬filter (path ++ slash :: n) = true) :
    keepEntries path ((n, t) :: es) = (n, t) :: keepEntries path es := by
  simp [keepEntries, h]

/-- Skipping the filtered names, the loop visits the merged listings in order. -/
theorem cmpDirsLoop_eq (cmpData : CmpData) (two : Name → Tree → Tree → List Report) (path : Str)
    (l r : List (Name × Tree)) :
    cmpDirsLoop cmpData two path l r =
      (mergeJoin (keepEntries path l) (keepEntries path r)).flatMap (visit cmpData two path) := by
  -- one side at its end, an ignored name on one side, then the three orders of the names
  induction l, r using cmpDirsLoop.induct path with
  | case1 => simp [cmpDirsLoop, keepEntries, mergeJoin]
  | case2 n2 t2 r hf ih =>
    rw [cmpDirsLoop, if_pos hf, ih, keepEntries_cons_of_filter hf]
  | case3 n2 t2 r hf ih =>
    rw [cmpDirsLoop, if_neg hf, ih, keepEntries_cons_of_not_filter hf]
    simp only [keepEntries, List.filter_nil, mergeJoin, List.flatMap_cons, visit]
  | case4 n1 t1 l hf ih =>
    rw [cmpDirsLoop, if_pos hf, ih, keepEntries_cons_of_filter hf]
  | case5 n1 t1 l hf ih =>
    rw [cmpDirsLoop, if_neg hf, ih, keepEntries_cons_of_not_filter hf]
    simp only [keepEntries, List.filter_nil, mergeJoin, List.flatMap_cons, visit]
  | case6 n1 t1 l n2 t2 r hf ih =>
    rw [cmpDirsLoop, if_pos hf, ih, keepEntries_cons_of_filter hf]
  | case7 n1 t1 l n2 t2 r hf1 hf2 ih =>
    rw [cmpDirsLoop, if_neg hf1, if_pos hf2, ih, keepEntries_cons_of_filter hf2]
  | case8 n1 t1 l n2 t2 r hf1 hf2 hlt ih =>
    rw [cmpDirsLoop, if_neg hf1, if_neg hf2, if_pos hlt, ih, keepEntries_cons_of_not_filter hf1,
      keepEntries_cons_of_not_filter hf2, mergeJoin, if_pos hlt]
    rfl
  | case9 n1 t1 l n2 t2 r hf1 hf2 hge hlt ih =>
    rw [cmpDirsLoop, if_neg hf1, if_neg hf2, if_neg hge, if_pos hlt, ih,
      keepEntries_cons_of_not_filter hf1, keepEntries_cons_of_not_filter hf2, mergeJoin,
      if_neg hge, if_pos hlt]
    rfl
  | case10 n1 t1 l n2 t2 r hf1 hf2 hge hge' ih =>
    have heq : n1 = n2 := le_antisymm (not_lt.mp hge) (not_lt.mp hge')
    subst heq
    rw [cmpDirsLoop, if_neg hf1, if_neg hf2, if_neg hge, if_neg hge, ih,
      keepEntries_cons_of_not_filter hf1, keepEntries_cons_of_not_filter hf1, mergeJoin,
      if_neg hge, if_neg hge]
    rfl

/-! ## The sorted listings -/

theorem mem_sortEntries {es : List (Name × Tree)} {e : Name × Tree} :
    e ∈ sortEntries es ↔ e ∈ es :=
  List.mem_insertionSort _

/-- Distinct names are sorted strictly. -/
theorem sortEntries_keysSorted {es : List (Name × Tree)} (h : (es.map Prod.fst).Nodup) :
    KeysSorted (sortEntries es) := by
  have hle : (sortEntries es).Pairwise fun x y => x.1 ≤ y.1 := by
    have : IsTrans (Name × Tree) fun x y => x.1 ≤ y.1 := ⟨fun _ _ _ => le_trans⟩
    have : Std.Total fun x y : Name × Tree => x.1 ≤ y.1 := ⟨fun x y => le_total x.1 y.1⟩
    exact List.pairwise_insertionSort _ es
  have hne : (sortEntries es).Pairwise fun x y => x.1 ≠ y.1 := by
    have hperm := (List.perm_insertionSort (fun x y : Name × Tree => x.1 ≤ y.1) es).map Prod.fst
    exact List.pairwise_map.mp (hperm.nodup_iff.mpr h)
  exact hle.imp₂ (fun x y hxy hne => lt_of_le_of_ne hxy hne) hne

theorem keepEntries_keysSorted {path : Str} {es : List (Name × Tree)} (h : KeysSorted es) :
    KeysSorted (keepEntries path es) :=
  h.filter _

theorem mem_keepEntries {path : Str} {es : List (Name × Tree)} {n : Name} {t : Tree} :
    (n, t) ∈ keepEntries path es ↔ (n, t) ∈ es ∧ filter (path ++ slash :: n) = false := by
  simp [keepEntries]

end Snapper
