import Snapper.Compare.CmpDirs

/-!
# Comparing in the other direction

Exchanging the two trees inverts the status of every report and changes nothing else, not
even the order of the calls.  The recursion of `cmpDirsWorker` only enters pairs of
directories, so it ends on the shallower of the two trees and either height is enough fuel.

This module also says what the names in the reports are made of.  None of it needs the
trees to be on one device.
-/

namespace Snapper

open General

/-- The same reports, seen from the other side. -/
def invertReports (reports : List Report) : List Report :=
  reports.map fun report => (report.1, report.2.invert)

@[simp] theorem invertReports_nil : invertReports [] = [] := rfl

@[simp] theorem invertReports_cons (report : Report) (reports : List Report) :
    invertReports (report :: reports) =
      (report.1, report.2.invert) :: invertReports reports := rfl

@[simp] theorem invertReports_append (reports reports' : List Report) :
    invertReports (reports ++ reports') = invertReports reports ++ invertReports reports' :=
  List.map_append

theorem invertReports_flatMap {ι : Type} (items : List ι) (f : ι → List Report) :
    invertReports (items.flatMap f) = items.flatMap fun x => invertReports (f x) :=
  List.map_flatMap

/-- The two devices in the other order. -/
def CmpData.swap (cmpData : CmpData) : CmpData :=
  { dev1 := cmpData.dev2, dev2 := cmpData.dev1 }

/-! ## One routine at a time -/

mutual
/-- Inverting the reports of a subtree that is walked alone inverts their status. -/
theorem listSubdirs_invert (t : Tree) (path : Str) (status : Status) :
    invertReports (listSubdirs t path status) = listSubdirs t path status.invert := by
  cases t with
  | node i es =>
    rw [listSubdirs, listSubdirs]
    exact listEntries_invert es path status
/-- The same for the entries of a directory, one after the other. -/
theorem listEntries_invert (es : List (Name × Tree)) (path : Str) (status : Status) :
    invertReports (listEntries es path status) = listEntries es path status.invert := by
  match es with
  | [] => rfl
  | (n, t) :: es =>
    have hbelow : invertReports
        (if t.isDir then listSubdirs t (path ++ slash :: n) status else []) =
        if t.isDir then listSubdirs t (path ++ slash :: n) status.invert else [] := by
      split
      · exact listSubdirs_invert t _ status
      · rfl
    simp only [listEntries, invertReports_append, invertReports_cons, hbelow,
      listEntries_invert es path status]
end

theorem lonesome_invert (path : Str) (name : Name) (t : Tree) (status : Status) :
    invertReports (lonesome path name t status) = lonesome path name t status.invert := by
  unfold lonesome
  rw [invertReports_cons]
  split
  · rw [listSubdirs_invert]
  · rfl

/-- The status of two files of both sides is its own inverse. -/
theorem cmpFiles_invert (f1 f2 : Inode) : (cmpFiles f1 f2).invert = cmpFiles f2 f1 := by
  rw [(cmpFiles_both f1 f2).invert_eq, cmpFiles_comm]

/-- For an entry that both trees have, the walk the other way round reports the inverted statuses,
if that is so for the directories below. -/
theorem twosome_invert {cmpData : CmpData} {worker worker' : Tree → Tree → Str → List Report}
    (hworker : ∀ t1 t2 path, invertReports (worker t1 t2 path) = worker' t2 t1 path)
    (path : Str) (name : Name) (t1 t2 : Tree) :
    invertReports (twosome cmpData worker path name t1 t2) =
      twosome cmpData.swap worker' path name t2 t1 := by
  unfold twosome CmpData.swap
  by_cases hdev : t1.inode.dev = cmpData.dev1 ∧ t2.inode.dev = cmpData.dev2
  · -- both files are on the compared devices
    have hlist : ∀ (t : Tree) (status : Status), invertReports
        (if t.isDir then listSubdirs t (path ++ slash :: name) status else []) =
        if t.isDir then listSubdirs t (path ++ slash :: name) status.invert else [] := by
      intro t status
      split
      · exact listSubdirs_invert t _ status
      · rfl
    have hown : invertReports (if cmpFiles t1.inode t2.inode ≠ .zero then
          [(path ++ slash :: name, cmpFiles t1.inode t2.inode)] else []) =
        if cmpFiles t2.inode t1.inode ≠ .zero then
          [(path ++ slash :: name, cmpFiles t2.inode t1.inode)] else [] := by
      rw [cmpFiles_comm t2.inode]
      split
      · rw [invertReports_cons, cmpFiles_invert, cmpFiles_comm t2.inode]
        rfl
      · rfl
    simp only [hdev, and_self, if_true, invertReports_append, hown]
    congr 1
    rw [cmpFiles_comm t2.inode]
    by_cases hfmt : t1.inode.fmt = t2.inode.fmt
    · have htype : (cmpFiles t1.inode t2.inode).type = false := by simp [cmpFiles, hfmt]
      have hdir : t1.isDir = t2.isDir := by simp [Tree.isDir, hfmt]
      simp only [htype, hdir, if_true]
      split
      · exact hworker t1 t2 _
      · rfl
    · have htype : (cmpFiles t1.inode t2.inode).type = true := by simp [cmpFiles, hfmt]
      simp only [htype, Bool.true_eq_false, if_false, invertReports_append, hlist,
        Status.invert_DELETED, Status.invert_CREATED]
      -- at most one of the two files is a directory, so the order of the lists is the same
      by_cases h1 : t1.isDir = true
      · have h2 : t2.isDir = false := by
          simp only [Tree.isDir, decide_eq_true_eq, decide_eq_false_iff_not] at h1 ⊢
          exact fun h2 => hfmt (h1.trans h2.symm)
        simp [h1, h2]
      · simp [h1]
  · -- a mount point on either side: nothing is reported
    have hdev' : ¬(t2.inode.dev = cmpData.dev2 ∧ t1.inode.dev = cmpData.dev1) :=
      fun h => hdev h.symm
    have hzero : Status.zero.type = false := rfl
    simp [hdev, hdev', hzero]

/-- Visiting an entry of the join with the trees the other way round reports the inverted
statuses. -/
theorem visit_invert {cmpData : CmpData} {two two' : Name → Tree → Tree → List Report}
    (htwo : ∀ n t1 t2, invertReports (two n t1 t2) = two' n t2 t1) (path : Str)
    (x : Name × Joined Tree Tree) :
    invertReports (visit cmpData two path x) = visit cmpData.swap two' path (x.1, x.2.swap) := by
  obtain ⟨n, v⟩ := x
  cases v with
  | left t =>
    show invertReports (if t.inode.dev = cmpData.dev1 then lonesome path n t .DELETED else []) =
      if t.inode.dev = cmpData.dev1 then lonesome path n t .CREATED else []
    by_cases hdev : t.inode.dev = cmpData.dev1
    · rw [if_pos hdev, if_pos hdev]
      exact lonesome_invert path n t .DELETED
    · rw [if_neg hdev, if_neg hdev]
      rfl
  | right t =>
    show invertReports (if t.inode.dev = cmpData.dev2 then lonesome path n t .CREATED else []) =
      if t.inode.dev = cmpData.dev2 then lonesome path n t .DELETED else []
    by_cases hdev : t.inode.dev = cmpData.dev2
    · rw [if_pos hdev, if_pos hdev]
      exact lonesome_invert path n t .CREATED
    · rw [if_neg hdev, if_neg hdev]
      rfl
  | both t1 t2 => exact htwo n t1 t2

/-- The walk the other way round reports the same paths with the inverted statuses, in the same
order. -/
theorem cmpDirsWorker_invert (cmpData : CmpData) (fuel : Nat) (t1 t2 : Tree) (path : Str) :
    invertReports (cmpDirsWorker cmpData fuel t1 t2 path) =
      cmpDirsWorker cmpData.swap fuel t2 t1 path := by
  induction fuel generalizing t1 t2 path with
  | zero => rfl
  | succ fuel ih =>
    rw [cmpDirsWorker, cmpDirsWorker, cmpDirsLoop_eq, cmpDirsLoop_eq, invertReports_flatMap,
      mergeJoin_swap (keepEntries path (sortEntries t1.entries)), List.flatMap_map]
    congr 1
    funext x
    exact visit_invert (twosome_invert ih path) path x

/-! ## Fuel -/

theorem twosome_congr {cmpData : CmpData} {worker worker' : Tree → Tree → Str → List Report}
    {path : Str} {name : Name} {t1 t2 : Tree}
    (h : worker t1 t2 (path ++ slash :: name) = worker' t1 t2 (path ++ slash :: name)) :
    twosome cmpData worker path name t1 t2 = twosome cmpData worker' path name t1 t2 := by
  unfold twosome
  rw [h]

/-- More fuel than directory levels below the shallower directory makes no difference. -/
theorem cmpDirsWorker_fuel (cmpData : CmpData) {fuel fuel' : Nat} {t1 t2 : Tree} {path : Str}
    (hfuel : min t1.height t2.height < fuel) (hfuel' : min t1.height t2.height < fuel') :
    cmpDirsWorker cmpData fuel t1 t2 path = cmpDirsWorker cmpData fuel' t1 t2 path := by
  induction fuel generalizing fuel' t1 t2 path with
  | zero => exact absurd hfuel (Nat.not_lt_zero _)
  | succ fuel ih =>
    cases fuel' with
    | zero => exact absurd hfuel' (Nat.not_lt_zero _)
    | succ fuel' =>
      rw [cmpDirsWorker, cmpDirsWorker, cmpDirsLoop_eq, cmpDirsLoop_eq]
      apply List.flatMap_congr
      intro x hx
      obtain ⟨n, v⟩ := x
      cases v with
      | left t => rfl
      | right t => rfl
      | both c1 c2 =>
        -- both files are entries, so one of them is below the shallower directory
        obtain ⟨hc1, hc2⟩ := mergeJoin_sound _ _ hx
        have hc1 := mem_sortEntries.mp (mem_keepEntries.mp hc1).1
        have hc2 := mem_sortEntries.mp (mem_keepEntries.mp hc2).1
        have h1 : c1.height < t1.height := by
          cases t1
          exact Tree.height_lt_of_mem hc1
        have h2 : c2.height < t2.height := by
          cases t2
          exact Tree.height_lt_of_mem hc2
        show twosome cmpData _ path n c1 c2 = twosome cmpData _ path n c1 c2
        apply twosome_congr
        exact ih (by omega) (by omega)

/-- `cmpDirs` of the exchanged directories makes the same calls with inverted statuses. -/
theorem cmpDirs_swap (t1 t2 : Tree) : cmpDirs t2 t1 = invertReports (cmpDirs t1 t2) := by
  unfold cmpDirs
  rw [cmpDirsWorker_invert]
  exact cmpDirsWorker_fuel _ (by omega) (by omega)

/-! ## Names in the reports -/

section Names

variable {P : Name → Prop}

/-- Every name in a tree satisfies `P`. -/
def Tree.Names (P : Name → Prop) (t : Tree) : Prop := t.All fun _ ns => ∀ n ∈ ns, P n

/-- A report below `path` whose names satisfy `P`, with a status as a comparison gives it. -/
def Named (P : Name → Prop) (path : Str) (report : Report) : Prop :=
  (∃ p : Path, p ≠ [] ∧ (∀ n ∈ p, P n) ∧ report.1 = path ++ pathName p) ∧ report.2.Reported

theorem Tree.Names.name {t c : Tree} (h : t.Names P) {n : Name} (hc : (n, c) ∈ t.entries) :
    P n :=
  Tree.All.root h n (List.mem_map.mpr ⟨_, hc, rfl⟩)

theorem Tree.Names.child {t c : Tree} (h : t.Names P) {n : Name} (hc : (n, c) ∈ t.entries) :
    c.Names P :=
  Tree.All.child h hc

theorem Named.own {path : Str} {n : Name} (hn : P n) {status : Status} (hst : status.Reported) :
    Named P path (path ++ slash :: n, status) :=
  ⟨⟨[n], by simp, by simpa using hn, by simp⟩, hst⟩

/-- A report below an entry of a directory is a report below the directory. -/
theorem Named.ofEntry {path : Str} {n : Name} (hn : P n) {report : Report}
    (h : Named P (path ++ slash :: n) report) : Named P path report := by
  obtain ⟨⟨p, _, hp, hname⟩, hst⟩ := h
  refine ⟨⟨n :: p, by simp, ?_, by rw [hname]; simp⟩, hst⟩
  intro m hm
  obtain rfl | hm := List.mem_cons.mp hm
  · exact hn
  · exact hp m hm

private theorem mem_ite_nil {c : Prop} [Decidable c] {reports : List Report} {report : Report} :
    report ∈ (if c then reports else []) ↔ c ∧ report ∈ reports := by
  by_cases hc : c <;> simp [hc]

private theorem mem_of_mem_ite {c : Prop} [Decidable c] {reports reports' : List Report}
    {report : Report} (h : report ∈ if c then reports else reports') :
    report ∈ reports ∨ report ∈ reports' := by
  split at h
  · exact Or.inl h
  · exact Or.inr h

/-- Every report of a subtree that is walked alone has a name whose parts are names of the tree,
and a status that is reported. -/
theorem listSubdirs_named {t : Tree} (ht : t.Names P) {path : Str} {status : Status}
    (hst : status.Reported) : ∀ report ∈ listSubdirs t path status, Named P path report := by
  -- over the tree, and in it over the entries of the directory
  induction ht generalizing path with
  | @node i es hnames hes ih =>
    rw [listSubdirs]
    clear hes
    induction es with
    | nil => simp [listEntries]
    | cons e es ihes =>
      obtain ⟨n, t⟩ := e
      have hn : P n := hnames n (by simp)
      intro report hreport
      rw [listEntries] at hreport
      obtain hreport | hreport := List.mem_append.mp hreport
      · obtain rfl | hreport := List.mem_cons.mp hreport
        · exact Named.own hn hst
        · obtain ⟨_, hreport⟩ := mem_ite_nil.mp hreport
          exact (ih (n, t) (by simp) report hreport).ofEntry hn
      · refine ihes (fun m hm => hnames m ?_) (fun e he => ih e (List.mem_cons_of_mem _ he))
          report hreport
        simp only [List.map_cons, List.mem_cons]
        exact Or.inr hm

/-- A file that one tree has alone is reported with names of the tree, and so is what is below it.
-/
theorem lonesome_named {t : Tree} (ht : t.Names P) {path : Str} {n : Name} (hn : P n)
    {status : Status} (hst : status.Reported) :
    ∀ report ∈ lonesome path n t status, Named P path report := by
  intro report hreport
  unfold lonesome at hreport
  obtain rfl | hreport := List.mem_cons.mp hreport
  · exact Named.own hn hst
  · obtain ⟨_, hreport⟩ := mem_ite_nil.mp hreport
    exact (listSubdirs_named ht hst report hreport).ofEntry hn

/-- The status of `twosome` is that of `cmpFiles` unless a mount point is met. -/
private theorem reported_of_ne_zero {f1 f2 : Inode} {c : Prop} [Decidable c]
    (h : (if c then cmpFiles f1 f2 else .zero) ≠ Status.zero) :
    (if c then cmpFiles f1 f2 else .zero).Reported := by
  by_cases hc : c
  · rw [if_pos hc]
    exact Or.inr (Or.inr (cmpFiles_both f1 f2))
  · rw [if_neg hc] at h
    exact absurd rfl h

/-- The same for an entry that both trees have, given that the walk of the two directories is so.
-/
theorem twosome_named {cmpData : CmpData} {worker : Tree → Tree → Str → List Report} {path : Str}
    {n : Name} {t1 t2 : Tree} (h1 : t1.Names P) (h2 : t2.Names P) (hn : P n)
    (hworker : ∀ report ∈ worker t1 t2 (path ++ slash :: n),
      Named P (path ++ slash :: n) report) :
    ∀ report ∈ twosome cmpData worker path n t1 t2, Named P path report := by
  intro report hreport
  -- where the types differ each directory is walked alone
  have hlist : ∀ (t : Tree) (dev : Nat) (status : Status), t.Names P → status.Reported →
      report ∈ (if t.isDir then
        if t.inode.dev = dev then listSubdirs t (path ++ slash :: n) status else [] else []) →
      Named P path report := by
    intro t dev status ht hst hmem
    obtain ⟨_, hmem⟩ := mem_ite_nil.mp hmem
    obtain ⟨_, hmem⟩ := mem_ite_nil.mp hmem
    exact (listSubdirs_named ht hst report hmem).ofEntry hn
  obtain hown | hbelow := List.mem_append.mp hreport
  · obtain ⟨hzero, hown⟩ := mem_ite_nil.mp hown
    obtain rfl := List.mem_singleton.mp hown
    exact Named.own hn (reported_of_ne_zero hzero)
  · obtain hbelow | hbelow := mem_of_mem_ite hbelow
    · obtain ⟨_, hbelow⟩ := mem_ite_nil.mp hbelow
      obtain ⟨_, hbelow⟩ := mem_ite_nil.mp hbelow
      exact (hworker report hbelow).ofEntry hn
    · obtain hbelow | hbelow := List.mem_append.mp hbelow
      · exact hlist t1 _ _ h1 (Or.inr (Or.inl rfl)) hbelow
      · exact hlist t2 _ _ h2 (Or.inl rfl) hbelow

/-- Where all names of both trees satisfy a property, so do those in the reports.  The induction
is on the fuel, for all pairs of trees. -/
theorem cmpDirsWorker_named (cmpData : CmpData) (fuel : Nat) {t1 t2 : Tree} (h1 : t1.Names P)
    (h2 : t2.Names P) (path : Str) :
    ∀ report ∈ cmpDirsWorker cmpData fuel t1 t2 path, Named P path report := by
  induction fuel generalizing t1 t2 path with
  | zero =>
    intro report hreport
    cases hreport
  | succ fuel ih =>
    intro report hreport
    rw [cmpDirsWorker, cmpDirsLoop_eq] at hreport
    obtain ⟨⟨n, v⟩, hx, hreport⟩ := List.mem_flatMap.mp hreport
    -- an entry of the join is one of the left list, of the right one or of both
    have hsound := mergeJoin_sound _ _ hx
    have hentry : ∀ {t c : Tree}, (n, c) ∈ keepEntries path (sortEntries t.entries) →
        (n, c) ∈ t.entries := fun hc => mem_sortEntries.mp (mem_keepEntries.mp hc).1
    cases v with
    | left c =>
      have hc := hentry hsound
      obtain ⟨_, hreport⟩ := mem_ite_nil.mp hreport
      exact lonesome_named (h1.child hc) (h1.name hc) (Or.inr (Or.inl rfl)) report hreport
    | right c =>
      have hc := hentry hsound
      obtain ⟨_, hreport⟩ := mem_ite_nil.mp hreport
      exact lonesome_named (h2.child hc) (h2.name hc) (Or.inl rfl) report hreport
    | both c1 c2 =>
      have hc1 := hentry hsound.1
      have hc2 := hentry hsound.2
      have hworker := ih (h1.child hc1) (h2.child hc2) (path ++ slash :: n)
      exact twosome_named (h1.child hc1) (h2.child hc2) (h1.name hc1) hworker report hreport

/-- A report of `cmpDirs` is made of names of the trees. -/
theorem cmpDirs_named {t1 t2 : Tree} (h1 : t1.Names P) (h2 : t2.Names P) :
    ∀ report ∈ cmpDirs t1 t2, Named P [] report :=
  cmpDirsWorker_named _ _ h1 h2 []

end Names

end Snapper
