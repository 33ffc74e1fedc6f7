import Mathlib.Data.List.Pairwise
import Snapper.Info.Info

/-!
# Loading the snapshots

`Snapshots::initialize` fills the list from the directories in `.snapshots`.  A directory is
known by its name, which is read as a number like any text; later the directory of a snapshot
is found under the plain decimal form of its number.

## Main results

- `wellLoaded_iff`: the list is as the rest of the program expects it exactly when every
  directory that is loaded has a plain decimal name
-/

namespace Snapper

/-! ## The list -/

/-- What is in `.snapshots`: names with the document of their `info.xml`, `none` where there
is no directory, no such file or no well-formed document. -/
structure InfosDir where
  entries : List (Name × Option (List XmlNode))
  distinct : (entries.map Prod.fst).Nodup

section Read

variable (scanDatetime : Str → Int64) (checkSnapshot : UInt32 → Bool) (unset : Name → UInt32)

/-- One round of the loop of `Snapshots::read`; an `IOErrorException` ends the round. -/
def readEntry (e : Name × Option (List XmlNode)) : Option Snapshot :=
  e.2.bind (readInfo scanDatetime checkSnapshot (unset e.1) e.1)

/-- `Snapshots::initialize`, with `Snapshots::read`: the current snapshot is in the list before
the others are read, and all are sorted. -/
def initializeSnapshots (dir : InfosDir) : List Snapshot :=
  (.current :: dir.entries.filterMap (readEntry scanDatetime checkSnapshot unset)).insertionSort
    fun a b => a.num ≤ b.num

/-- The list as the rest of the program expects it: the numbers ascend strictly from the
current snapshot on, and each snapshot is that of the directory named for its number. -/
structure WellLoaded (dir : InfosDir) : Prop where
  ascending : (initializeSnapshots scanDatetime checkSnapshot unset dir).Pairwise fun a b =>
    a.num < b.num
  current : (initializeSnapshots scanDatetime checkSnapshot unset dir).head? = some Snapshot.current
  named : ∀ s ∈ initializeSnapshots scanDatetime checkSnapshot unset dir, s ≠ Snapshot.current →
    ∃ doc, (decString s.num.toNat, doc) ∈ dir.entries ∧
      readEntry scanDatetime checkSnapshot unset (decString s.num.toNat, doc) = some s

/-- What `read` checks before it adds the snapshot of a directory. -/
structure Loadable (name : Name) (root : List XmlNode) (num : UInt32) : Prop where
  typed : ∃ tmp type, getChildValue (str "type") (getChildNode (str "snapshot") root) = some tmp ∧
    SnapshotType.ofStr tmp = some type
  numbered : ∃ tmp, getChildValue (str "num") (getChildNode (str "snapshot") root) = some tmp ∧
    extract tmp (unset name) = num
  nonzero : num ≠ 0
  dated : ∃ tmp, getChildValue (str "date") (getChildNode (str "snapshot") root) = some tmp ∧
    scanDatetime tmp ≠ -1
  named : extract name num = num
  checked : checkSnapshot num = true

/-- No directory is loaded whose name is not the decimal form of its number. -/
def PlainNames (dir : InfosDir) : Prop :=
  ∀ name root num, (name, some root) ∈ dir.entries →
    Loadable scanDatetime checkSnapshot unset name root num → name = decString num.toNat

end Read

/-! ## What one directory gives -/

section Entries

variable {scanDatetime : Str → Int64} {checkSnapshot : UInt32 → Bool} {unset : Name → UInt32}
  {name : Name} {root : List XmlNode} {num : UInt32} {s : Snapshot} {dir : InfosDir}

/-- A directory that passes the checks gives a snapshot of its number. -/
theorem Loadable.readEntry (h : Loadable scanDatetime checkSnapshot unset name root num) :
    ∃ s, readEntry scanDatetime checkSnapshot unset (name, some root) = some s ∧ s.num = num := by
  obtain ⟨tmp, type, htype, hvalue⟩ := h.typed
  obtain ⟨tmp', hnum, hextract⟩ := h.numbered
  obtain ⟨tmp'', hdate, hscan⟩ := h.dated
  refine ⟨(Snapshot.new type num (scanDatetime tmp'')).readFields
    (getChildNode (str "snapshot") root), ?_, rfl⟩
  have hfields : ((Snapshot.new type num (scanDatetime tmp'')).readFields
      (getChildNode (str "snapshot") root)).num = num := rfl
  simp only [Snapper.readEntry, Option.bind_some, readInfo, htype, hvalue, hnum, hextract,
    h.nonzero, if_false, hdate, hscan, h.named, ne_eq, not_true_eq_false, hfields, h.checked,
      if_true]

/-- Only a directory that passes the checks gives a snapshot. -/
theorem loadable_of_readEntry
    (h : readEntry scanDatetime checkSnapshot unset (name, some root) = some s) :
    Loadable scanDatetime checkSnapshot unset name root s.num := by
  -- check after check, as the function makes them
  simp only [readEntry, Option.bind_some, readInfo] at h
  split at h
  · cases h
  · rename_i type htype
    obtain ⟨tmp, hvalue, hof⟩ := Option.bind_eq_some_iff.mp htype
    split at h
    · cases h
    · rename_i tmp' hnum
      by_cases hzero : extract tmp' (unset name) = 0
      · rw [if_pos hzero] at h
        cases h
      · rw [if_neg hzero] at h
        split at h
        · cases h
        · rename_i tmp'' hdate
          split_ifs at h with hscan hname hcheck
          cases h
          exact ⟨⟨tmp, type, hvalue, hof⟩, ⟨tmp', hnum, rfl⟩, hzero, ⟨tmp'', hdate, hscan⟩,
            not_not.mp hname, hcheck⟩

/-- What is in the list. -/
theorem mem_initializeSnapshots : s ∈ initializeSnapshots scanDatetime checkSnapshot unset dir ↔
    s = Snapshot.current ∨ ∃ name root, (name, some root) ∈ dir.entries ∧
      readEntry scanDatetime checkSnapshot unset (name, some root) = some s := by
  rw [initializeSnapshots, List.mem_insertionSort, List.mem_cons, List.mem_filterMap]
  refine or_congr_right ⟨?_, ?_⟩
  · rintro ⟨⟨name, doc⟩, hmem, hread⟩
    cases doc with
    | none => cases hread
    | some root => exact ⟨name, root, hmem, hread⟩
  · rintro ⟨name, root, hmem, hread⟩
    exact ⟨(name, some root), hmem, hread⟩

/-- A snapshot that was read is not the current one. -/
theorem readEntry_ne_zero
    (h : readEntry scanDatetime checkSnapshot unset (name, some root) = some s) : s.num ≠ 0 :=
  (loadable_of_readEntry h).nonzero

/-- The current snapshot stays in front. -/
theorem initializeSnapshots_eq : initializeSnapshots scanDatetime checkSnapshot unset dir =
    Snapshot.current :: (dir.entries.filterMap
      (readEntry scanDatetime checkSnapshot unset)).insertionSort fun a b => a.num ≤ b.num := by
  rw [initializeSnapshots, List.insertionSort_cons]
  cases (dir.entries.filterMap (readEntry scanDatetime checkSnapshot unset)).insertionSort
      fun a b => a.num ≤ b.num with
  | nil => rfl
  | cons s l =>
    have hzero : Snapshot.current.num ≤ s.num := UInt32.le_iff_toNat_le.mpr (Nat.zero_le _)
    rw [List.orderedInsert_cons, if_pos hzero]

/-- Sorted numbers ascend strictly when no number stands twice. -/
theorem insertionSort_ascending_iff {l : List Snapshot} :
    ((l.insertionSort fun a b => a.num ≤ b.num).Pairwise fun a b => a.num < b.num) ↔
      l.Pairwise fun a b => a.num ≠ b.num := by
  have hperm := List.perm_insertionSort (fun a b : Snapshot => a.num ≤ b.num) l
  have hnodup : ∀ {l : List Snapshot}, (l.Pairwise fun a b => a.num ≠ b.num) ↔
      (l.map Snapshot.num).Nodup := List.pairwise_map.symm
  rw [hnodup, ← (hperm.map Snapshot.num).nodup_iff, ← hnodup]
  constructor
  · exact fun h => h.imp fun hlt => ne_of_lt hlt
  · intro h
    have : IsTrans Snapshot fun a b => a.num ≤ b.num := ⟨fun _ _ _ => le_trans⟩
    have : Std.Total fun a b : Snapshot => a.num ≤ b.num := ⟨fun a b => le_total a.num b.num⟩
    have hle := List.pairwise_insertionSort (fun a b : Snapshot => a.num ≤ b.num) l
    exact hle.imp₂ (fun _ _ hab hne => lt_of_le_of_ne hab hne) h

end Entries

/-! ## Plain names -/

section Plain

variable {scanDatetime : Str → Int64} {checkSnapshot : UInt32 → Bool} {unset : Name → UInt32}
  {dir : InfosDir}

/-- Two directories with plain names give snapshots of different numbers. -/
theorem PlainNames.nums_distinct (h : PlainNames scanDatetime checkSnapshot unset dir) :
    (dir.entries.filterMap (readEntry scanDatetime checkSnapshot unset)).Pairwise
      fun a b => a.num ≠ b.num := by
  have hname : ∀ e ∈ dir.entries, ∀ s, readEntry scanDatetime checkSnapshot unset e = some s →
      e.1 = decString s.num.toNat := by
    rintro ⟨name, doc⟩ he s hs
    cases doc with
    | none => cases hs
    | some root => exact h name root s.num he (loadable_of_readEntry hs)
  rw [List.pairwise_filterMap]
  have hnames : dir.entries.Pairwise fun a b => a.1 ≠ b.1 := List.pairwise_map.mp dir.distinct
  refine hnames.imp_of_mem fun ha hb hne s hs s' hs' heq => hne ?_
  rw [hname _ ha s hs, hname _ hb s' hs', heq]

/-- Of directories with plain names every one that passes the checks gives one snapshot, under its
own number. -/
theorem PlainNames.wellLoaded (h : PlainNames scanDatetime checkSnapshot unset dir) :
    WellLoaded scanDatetime checkSnapshot unset dir where
  ascending := by
    rw [initializeSnapshots_eq, List.pairwise_cons]
    refine ⟨fun s hs => ?_, insertionSort_ascending_iff.mpr h.nums_distinct⟩
    obtain ⟨⟨name, doc⟩, -, hread⟩ := List.mem_filterMap.mp ((List.mem_insertionSort _).mp hs)
    cases doc with
    | none => cases hread
    | some root =>
      exact lt_of_le_of_ne (UInt32.le_iff_toNat_le.mpr (Nat.zero_le _))
        (readEntry_ne_zero hread).symm
  current := by
    rw [initializeSnapshots_eq]
    rfl
  named := by
    intro s hs hne
    obtain ⟨name, root, hmem, hread⟩ := (mem_initializeSnapshots.mp hs).resolve_left hne
    have hname := h name root s.num hmem (loadable_of_readEntry hread)
    exact ⟨some root, hname ▸ hmem, hname ▸ hread⟩

/-- A directory of another name would stand for a snapshot that is there twice. -/
theorem WellLoaded.plainNames (h : WellLoaded scanDatetime checkSnapshot unset dir) :
    PlainNames scanDatetime checkSnapshot unset dir := by
  intro name root num hmem hload
  by_contra hname
  obtain ⟨s, hread, rfl⟩ := hload.readEntry
  have hne : s ≠ Snapshot.current := fun heq => readEntry_ne_zero hread (heq ▸ rfl)
  obtain ⟨doc, hmem', hread'⟩ :=
    h.named s (mem_initializeSnapshots.mpr (Or.inr ⟨name, root, hmem, hread⟩)) hne
  have hascending := h.ascending
  rw [initializeSnapshots_eq, List.pairwise_cons] at hascending
  have hdistinct := insertionSort_ascending_iff.mp hascending.2
  rw [List.pairwise_filterMap] at hdistinct
  -- both directories give this snapshot
  have hsymm : Std.Symm fun a b : Name × Option (List XmlNode) =>
      ∀ s, readEntry scanDatetime checkSnapshot unset a = some s →
        ∀ s', readEntry scanDatetime checkSnapshot unset b = some s' → s.num ≠ s'.num :=
    ⟨fun _ _ hab s hs s' hs' heq => hab s' hs' s hs heq.symm⟩
  refine hdistinct.forall hmem hmem' ?_ s hread s hread' rfl
  intro heq
  exact hname (congrArg Prod.fst heq)

end Plain

/-- The snapshots are loaded well exactly when every directory that is loaded has the plain
decimal name of its number. -/
theorem wellLoaded_iff (scanDatetime : Str → Int64) (checkSnapshot : UInt32 → Bool)
    (unset : Name → UInt32) (dir : InfosDir) :
    WellLoaded scanDatetime checkSnapshot unset dir ↔
      PlainNames scanDatetime checkSnapshot unset dir :=
  ⟨WellLoaded.plainNames, PlainNames.wellLoaded⟩

/-- The `info.xml` of a single snapshot with the number 1. -/
def infoOne : List XmlNode :=
  [.element (str "snapshot") [textChild (str "type") (str "single"),
    textChild (str "num") (str "1"), textChild (str "date") (str "1970-01-01 00:00:00")]]

/-- A copy of the directory `1` under the name `01` is loaded as a second snapshot 1. -/
theorem copied_directory_loaded :
    ¬WellLoaded (fun _ => 0) (fun _ => true) (fun _ => 0)
      ⟨[(str "1", some infoOne), (str "01", some infoOne)], by decide⟩ := by
  intro h
  have hascending := h.ascending
  have htwice : (initializeSnapshots (fun _ => 0) (fun _ => true) (fun _ => 0)
      ⟨[(str "1", some infoOne), (str "01", some infoOne)], by decide⟩).map Snapshot.num =
      [0, 1, 1] := by decide
  have hnums := List.pairwise_map.mpr hascending
  rw [htwice] at hnums
  exact absurd hnums (by decide)

end Snapper
