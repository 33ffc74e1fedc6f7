import Snapper.Server.Files
import Snapper.Server.Finding

/-!
# The list in memory and the infos on disk

A loaded config keeps its snapshots in memory.  What is on disk is in the list as well, with the
same number, type, date and pre number; and the two are the same but for a change that is still
to be written.  So an info that is written again is the info of the same snapshot.

## Main results

* `handle_coherent`: every handler keeps list and disk together and the infos on disk.
-/

namespace Snapper

/-- What a snapshot is: the fields that no request changes.  The pre number counts for post
snapshots only, for `info.xml` has it for these only. -/
structure Core where
  num : UInt32
  type : SnapshotType
  date : Int64
  preNum : UInt32
  deriving DecidableEq

/-- These fields of a snapshot, as its `info.xml` has them. -/
def Snapshot.core (s : Snapshot) : Core where
  num := s.num
  type := s.type
  date := s.date
  preNum := if s.type = .POST then s.preNum else 0

/-- A snapshot of a config. -/
structure Deposit where
  configName : Str
  core : Core

end Snapper

namespace Snapper.Server

open General Act

/-! ## The invariant -/

/-- Some numbers of each config, which is given by its address and its name. -/
abbrev Entries := Nat → Str → UInt32 → Prop

/-- A snapshot of the list is the one on disk, and is the same where no change is pending.  A
pending change is about the other fields, so the core agrees even then. -/
def Matches (s s' : Snapshot) : Prop :=
  s.core = s'.core ∧ (s.infoModified = false → Snapshot.stored s = s')

/-- What is in the list and on disk under one number is one snapshot.  What is on disk is in the
list of a loaded config if its entry is one of those that could be read all along. -/
structure MetaSnapper.Coherent (seen : Entries) (m : MetaSnapper) : Prop where
  same : ∀ s ∈ m.snapshots, ∀ s' ∈ m.disk.infos, s.num = s'.num → Matches s s'
  listed : m.isLoaded = true → ∀ s' ∈ m.disk.infos, seen m.id m.configName s'.num → m.Has s'.num

/-- The snapshot is on disk. -/
def Disk.Stores (core : Core) (disk : Disk) : Prop := ∃ s ∈ disk.infos, s.core = core

/-- The config has this address, and the snapshot is on its disk. -/
def MetaSnapper.Archives (id : Nat) (core : Core) (m : MetaSnapper) : Prop :=
  m.id = id ∧ m.disk.Stores core

/-- Lists and disks go together, some entries of `.snapshots` can be read, and some snapshots are
on disk.  `seen` has the entries that are to be readable and `held` the snapshots that are to
stay, so that the same invariant serves for the snapshots that must not get lost. -/
structure Daemon.Coherent (seen : Entries) (held : Nat → Deposit → Prop)
    (d : Daemon) : Prop where
  base : d.Base
  coherent : ∀ m ∈ d.metaSnappers, m.Coherent seen
  legible : ∀ m ∈ d.metaSnappers, ∀ num, seen m.id m.configName num → num ∉ m.disk.unreadable
  held : ∀ id kept, held id kept → d.Finds kept.configName (MetaSnapper.Archives id kept.core)

/-- A change of a snapshot in memory that is not to be written, or marks the snapshot. -/
structure Marks (f : Snapshot → Snapshot) : Prop where
  core : ∀ s, (f s).core = s.core
  same : ∀ s, (f s).infoModified = false →
    s.infoModified = false ∧ Snapshot.stored (f s) = Snapshot.stored s

section Fields

variable {s : Snapshot}

theorem core_num : s.core.num = s.num := rfl

/-- What `info.xml` leaves out is not part of the core. -/
theorem stored_core : (Snapshot.stored s).core = s.core := by
  by_cases htype : s.type = .POST
  · simp [Snapshot.core, Snapshot.stored, htype]
  · simp [Snapshot.core, Snapshot.stored, htype]

theorem Marks.num {f : Snapshot → Snapshot} (h : Marks f) (s : Snapshot) : (f s).num = s.num :=
  congrArg Core.num (h.core s)

/-- The uid is in `info.xml`, so setting it leaves a change to be written. -/
theorem setUid_marks {val : UInt32} : Marks (Snapshot.setUid val) :=
  ⟨fun _ => rfl, fun _ h => by cases h⟩

/-- The description is in `info.xml`. -/
theorem setDescription_marks {val : Str} : Marks (Snapshot.setDescription val) :=
  ⟨fun _ => rfl, fun _ h => by cases h⟩

/-- The cleanup algorithm is in `info.xml`. -/
theorem setCleanup_marks {val : Str} : Marks (Snapshot.setCleanup val) :=
  ⟨fun _ => rfl, fun _ h => by cases h⟩

/-- The userdata are in `info.xml`. -/
theorem setUserdata_marks {val : StrMap} : Marks (Snapshot.setUserdata val) :=
  ⟨fun _ => rfl, fun _ h => by cases h⟩

/-- Mounts are not a matter of the `info.xml`. -/
theorem checkMounted_marks {mounted : Bool} : Marks (Snapshot.checkMounted mounted) := by
  constructor
  · intro s
    rw [Snapshot.checkMounted]
    split <;> rfl
  · intro s h
    rw [Snapshot.checkMounted] at h ⊢
    split at h
    · next hchecked =>
      rw [if_pos hchecked]
      exact ⟨h, rfl⟩
    · next hchecked =>
      rw [if_neg hchecked]
      exact ⟨h, rfl⟩

/-- A count in memory; the mark of a pending change stays what it was. -/
theorem countMount_marks {userRequest : Bool} : Marks (Snapshot.countMount userRequest) := by
  cases userRequest with
  | true => exact ⟨fun _ => rfl, fun _ h => ⟨h, rfl⟩⟩
  | false => exact ⟨fun _ => rfl, fun _ h => ⟨h, rfl⟩⟩

/-- A count in memory; the mark of a pending change stays what it was. -/
theorem countUmount_marks {userRequest : Bool} : Marks (Snapshot.countUmount userRequest) := by
  cases userRequest with
  | true => exact ⟨fun _ => rfl, fun _ h => ⟨h, rfl⟩⟩
  | false => exact ⟨fun _ => rfl, fun _ h => ⟨h, rfl⟩⟩

end Fields

/-! ## Changes of a config -/

section Config

variable {seen : Entries} {m : MetaSnapper} {f : Snapshot → Snapshot} {num : UInt32}
  {s s' : Snapshot} {core : Core}

/-- Changing a snapshot in place keeps which numbers are in the list. -/
theorem has_update {k : UInt32} (hf : ∀ s, (f s).num = s.num) :
    (m.setSnapshots (update Snapshot.num k f)).Has num ↔ m.Has num := by
  rw [has_iff, has_iff, setSnapshots_update, map_update hf]

/-- A snapshot goes with its own `info.xml`, also while a change is pending. -/
theorem matches_stored (hstored : Snapshot.stored s = Snapshot.stored s')
    (hcore : s.core = s'.core) :
    Matches s (Snapshot.stored s') :=
  ⟨hcore.trans stored_core.symm, fun _ => hstored⟩

/-- What was the snapshot on disk still is after such a change. -/
theorem Marks.matches (hf : Marks f) (h : Matches s s') : Matches (f s) s' := by
  refine ⟨(hf.core s).trans h.1, fun hmodified => ?_⟩
  obtain ⟨hclean, hstored⟩ := hf.same s hmodified
  exact hstored.trans (h.2 hclean)

/-- The list and the disk are all that it is about. -/
theorem MetaSnapper.Coherent.of_same {m' : MetaSnapper} (h : m.Coherent seen)
    (hid : m'.id = m.id) (hname : m'.configName = m.configName)
    (hsnapper : m'.snapper = m.snapper) (hdisk : m'.disk = m.disk) : m'.Coherent seen where
  same := by
    rw [MetaSnapper.snapshots, hsnapper, hdisk]
    exact h.same
  listed := by
    rw [MetaSnapper.isLoaded, hsnapper, hdisk, hid, hname]
    intro hloaded s' hs' hseen
    rw [MetaSnapper.Has, MetaSnapper.snapshots, hsnapper]
    exact h.listed hloaded s' hs' hseen

/-- The list after a change of one snapshot, on the same disk. -/
theorem coherent_setSnapshots (hf : Marks f) (h : m.Coherent seen) :
    (m.setSnapshots (update Snapshot.num num f)).Coherent seen where
  same := by
    rw [setSnapshots_update]
    intro s hs s' hs' hnum
    obtain ⟨q, hq, ⟨-, rfl⟩ | ⟨-, rfl⟩⟩ := mem_update hs
    · exact hf.matches (h.same q hq s' hs' ((hf.num q).symm.trans hnum))
    · exact h.same s hq s' hs' hnum
  listed := by
    intro hloaded s' hs' hseen
    rw [setSnapshots_isLoaded] at hloaded
    exact (has_update hf.num).mpr (h.listed hloaded s' hs' hseen)

/-- A list that is just read has what could be read, as it is on disk. -/
theorem coherent_read {id : Nat} (hnumbered : m.Numbered)
    (hlegible : ∀ num, seen m.id m.configName num → num ∉ m.disk.unreadable) :
    ({ m with snapper := some ⟨id, m.disk.read⟩ } : MetaSnapper).Coherent seen where
  same := by
    intro s hs s' hs' hnum
    rcases mem_read.mp hs with rfl | hread
    · -- no `info.xml` belongs to the current system
      exact absurd hnum.symm (hnumbered.disk.nonzero s' hs')
    · have hmem := mem_infos_of_readable hread
      obtain rfl := List.inj_on_of_nodup_map hnumbered.disk.nodup hmem hs' hnum
      exact ⟨rfl, fun _ => hnumbered.disk.stored s hs'⟩
  listed _ s' hs' hseen :=
    ⟨s', mem_read.mpr (Or.inr (mem_readable.mpr ⟨hs', hlegible s'.num hseen⟩)), rfl⟩

/-- Infos may get lost: what is left on disk is still in the list. -/
theorem coherent_lose {disk : Disk} (h : m.Coherent seen)
    (hinfos : ∀ s ∈ disk.infos, s ∈ m.disk.infos) :
    ({ m with disk := disk } : MetaSnapper).Coherent seen where
  same s hs s' hs' := h.same s hs s' (hinfos s' hs')
  listed hloaded s' hs' := h.listed hloaded s' (hinfos s' hs')

/-- A config without a list agrees with any disk. -/
theorem coherent_unloaded (hunloaded : m.snapper = none) : m.Coherent seen where
  same := by
    intro s hs
    rw [MetaSnapper.snapshots, hunloaded] at hs
    cases hs
  listed := by
    intro hloaded
    rw [MetaSnapper.isLoaded, hunloaded] at hloaded
    cases hloaded

/-- Writing the info of a snapshot replaces what was on disk under its number. -/
theorem mem_write {disk : Disk} :
    s' ∈ (disk.write s).infos ↔ (s' ∈ disk.infos ∧ s'.num ≠ s.num) ∨ s' = Snapshot.stored s := by
  simp [Disk.write]

/-- `flushInfo` writes a snapshot of the list and marks it as written.  Under this number the list
and the disk then have the same, and under the others what they had. -/
theorem coherent_flush (hnodup : (m.snapshots.map Snapshot.num).Nodup) (hs : s ∈ m.snapshots)
    (h : m.Coherent seen) :
    ({ m.setSnapshots (update Snapshot.num s.num Snapshot.flushed) with
      disk := m.disk.write s } : MetaSnapper).Coherent seen := by
  have hlist : ({ m.setSnapshots (update Snapshot.num s.num Snapshot.flushed) with
      disk := m.disk.write s } : MetaSnapper).snapshots =
        update Snapshot.num s.num Snapshot.flushed m.snapshots := setSnapshots_update
  constructor
  · rw [hlist]
    intro q' hq' s' hs' hnum
    obtain ⟨q, hq, ⟨hqnum, rfl⟩ | ⟨hqnum, rfl⟩⟩ := mem_update hq'
    · -- the list has one snapshot with this number
      obtain rfl := List.inj_on_of_nodup_map hnodup hq hs hqnum
      rcases mem_write.mp hs' with ⟨-, hne⟩ | rfl
      · exact absurd hnum.symm hne
      · exact matches_stored rfl rfl
    · rcases mem_write.mp hs' with ⟨hold, -⟩ | rfl
      · exact h.same q' hq s' hold hnum
      · exact absurd hnum hqnum
  · intro _ s' hs' hseen
    have hloaded : m.isLoaded = true := isLoaded_of_mem hs
    apply (has_update (f := Snapshot.flushed) (by intro; rfl)).mpr
    rcases mem_write.mp hs' with ⟨hold, -⟩ | rfl
    · exact h.listed hloaded s' hold hseen
    · exact ⟨s, hs, rfl⟩

/-- A new snapshot is written and put into the list.  Its number is new to the list, so that it
replaces no info of another one that is shown. -/
theorem coherent_insert (hlist : ¬ m.Has s.num) (h : m.Coherent seen) :
    ({ m.setSnapshots (· ++ [s.flushed]) with
      disk := m.disk.write s } : MetaSnapper).Coherent seen := by
  have hsnapshots : ∀ q, q ∈ (m.setSnapshots (· ++ [s.flushed])).snapshots →
      q ∈ m.snapshots ∨ q = s.flushed := by
    intro q hq
    have hloaded : m.isLoaded = true := by
      have hload := isLoaded_of_mem hq
      rwa [setSnapshots_isLoaded] at hload
    rw [setSnapshots_snapshots hloaded] at hq
    simpa using hq
  -- the two agree under the new number, and there was none in the list before
  constructor
  · intro q hq s' hs' hnum
    rcases hsnapshots q hq with hq | rfl
    · rcases mem_write.mp hs' with ⟨hold, -⟩ | rfl
      · exact h.same q hq s' hold hnum
      · exact absurd ⟨q, hq, hnum⟩ hlist
    · rcases mem_write.mp hs' with ⟨-, hne⟩ | rfl
      · exact absurd hnum.symm hne
      · exact matches_stored rfl rfl
  · intro hloaded s' hs' hseen
    have hloaded' : m.isLoaded = true := by
      have hload : (m.setSnapshots (· ++ [s.flushed])).isLoaded = true := hloaded
      rwa [setSnapshots_isLoaded] at hload
    show ∃ q ∈ (m.setSnapshots (· ++ [s.flushed])).snapshots, _
    rw [setSnapshots_snapshots hloaded']
    rcases mem_write.mp hs' with ⟨hold, -⟩ | rfl
    · obtain ⟨q, hq, hnum⟩ := h.listed hloaded' s' hold hseen
      exact ⟨q, List.mem_append_left _ hq, hnum⟩
    · exact ⟨s.flushed, List.mem_append_right _ (List.mem_singleton_self _), rfl⟩

/-- A snapshot without info leaves the list.  The disk has nothing under this number any more, so
the list still has all that is on disk. -/
theorem coherent_erase {stays : Bool} (hnumbered : m.Numbered)
    (hinfos : ∀ s ∈ m.disk.infos, s.num ≠ num)
    (h : m.Coherent seen) : ({ m.setSnapshots (·.eraseP (·.num = num)) with
      disk := m.disk.removeDir num stays } : MetaSnapper).Coherent seen := by
  -- the list gets shorter
  have hmem : ∀ q, q ∈ (m.setSnapshots (·.eraseP (·.num = num))).snapshots → q ∈ m.snapshots := by
    intro q hq
    have hloaded : m.isLoaded = true := by
      have hload := isLoaded_of_mem hq
      rwa [setSnapshots_isLoaded] at hload
    rw [setSnapshots_snapshots hloaded] at hq
    exact List.mem_of_mem_eraseP hq
  constructor
  · exact fun q hq s' hs' hnum => h.same q (hmem q hq) s' hs' hnum
  · intro hloaded s' hs' hseen
    have hloaded' : m.isLoaded = true := by
      have hload : (m.setSnapshots (·.eraseP (·.num = num))).isLoaded = true := hloaded
      rwa [setSnapshots_isLoaded] at hload
    obtain ⟨s, hs, hnum⟩ := h.listed hloaded' s' hs' hseen
    show ∃ q ∈ (m.setSnapshots (·.eraseP (·.num = num))).snapshots, _
    rw [setSnapshots_snapshots hloaded']
    refine ⟨s, (mem_eraseP_iff hnumbered.nodup).mpr ⟨hs, ?_⟩, hnum⟩
    rw [hnum]
    exact hinfos s' hs'

/-- The write of a snapshot of the list changes no core on disk. -/
theorem stores_write (hcoherent : m.Coherent seen) (hs : s ∈ m.snapshots)
    (h : m.disk.Stores core) : (m.disk.write s).Stores core := by
  obtain ⟨s', hs', rfl⟩ := h
  by_cases hnum : s.num = s'.num
  · exact ⟨Snapshot.stored s, mem_write.mpr (Or.inr rfl),
      stored_core.trans (hcoherent.same s hs s' hs' hnum).1⟩
  · exact ⟨s', mem_write.mpr (Or.inl ⟨hs', Ne.symm hnum⟩), rfl⟩

/-- A pending change is written while it is still marked. -/
theorem coherent_write (hnodup : (m.snapshots.map Snapshot.num).Nodup) (hs : s ∈ m.snapshots)
    (h : m.Coherent seen) : ({ m with disk := m.disk.write s } : MetaSnapper).Coherent seen where
  same := by
    intro q hq s' hs' hnum
    rcases mem_write.mp hs' with ⟨hold, -⟩ | rfl
    · exact h.same q hq s' hold hnum
    · obtain rfl := List.inj_on_of_nodup_map hnodup hq hs hnum
      exact matches_stored rfl rfl
  listed := by
    intro hloaded s' hs' hseen
    rcases mem_write.mp hs' with ⟨hold, -⟩ | rfl
    · exact h.listed hloaded s' hold hseen
    · exact ⟨s, hs, rfl⟩

/-- So are several of them, one after the other, and what is on disk stays there. -/
theorem coherent_writes {l : List Snapshot} (hnodup : (m.snapshots.map Snapshot.num).Nodup)
    (hl : ∀ s ∈ l, s ∈ m.snapshots) (h : m.Coherent seen) :
    ({ m with disk := l.foldl (fun disk s => disk.write s) m.disk } : MetaSnapper).Coherent seen ∧
      ∀ core, m.disk.Stores core → (l.foldl (fun disk s => disk.write s) m.disk).Stores core := by
  induction l generalizing m with
  | nil => exact ⟨h, fun _ => id⟩
  | cons s l ih =>
    have hs := hl s List.mem_cons_self
    -- the list stays as it is, only the disk has changed
    obtain ⟨hcoherent, hstores⟩ := ih (m := { m with disk := m.disk.write s }) hnodup
      (fun s' hs' => hl s' (List.mem_cons_of_mem s hs')) (coherent_write hnodup hs h)
    exact ⟨hcoherent, fun core hstored => hstores core (stores_write h hs hstored)⟩

end Config

/-! ## Changes of the daemon -/

section Daemon

variable {seen : Entries} {held : Nat → Deposit → Prop} {d d' : Daemon} {id : Nat}
  {f : MetaSnapper → MetaSnapper}
  {num : UInt32} {s : Snapshot} {env : Env} {configName : Str}

/-- A change of one config: the other configs have their lists and disks, and the snapshots that
are to stay are found under the same name as before. -/
theorem Daemon.Coherent.modMeta (h : d.Coherent seen held)
    (hname : ∀ m, (f m).configName = m.configName)
    (hbase : (d.modMeta id f).Base) (hid : ∀ m, (f m).id = m.id)
    (hcoherent : ∀ m, d.metaSnapper id = some m → m.Coherent seen → (f m).Coherent seen)
    (hread : ∀ m, (f m).disk.unreadable = m.disk.unreadable)
    (hheld : ∀ m kept, d.metaSnapper id = some m → held id kept → m.disk.Stores kept.core →
      (f m).disk.Stores kept.core) : (d.modMeta id f).Coherent seen held where
  base := hbase
  coherent := by
    intro m' hm'
    -- a config of afterwards is the changed one or another one
    obtain ⟨m, hm, ⟨rfl, rfl⟩ | ⟨-, rfl⟩⟩ := mem_update hm'
    · exact hcoherent m (h.base.addresses.metaSnapper_of_mem hm) (h.coherent m hm)
    · exact h.coherent m' hm
  legible := by
    intro m' hm' num hseen
    obtain ⟨m, hm, ⟨-, rfl⟩ | ⟨-, rfl⟩⟩ := mem_update hm'
    · rw [hread m]
      rw [hid m, hname m] at hseen
      exact h.legible m hm num hseen
    · exact h.legible m' hm num hseen
  held := by
    intro id' kept hkept
    apply finds_modMeta (h.held id' kept hkept) hname
    rintro m hfind rfl ⟨rfl, hdisk⟩
    have hm := h.base.addresses.metaSnapper_of_find hfind
    exact ⟨hid m, hheld m kept hm hkept hdisk⟩

/-- Nothing is asked of the rest of the state. -/
theorem Daemon.Coherent.of_same (h : d.Coherent seen held) (hbase : d'.Base)
    (hmetas : d'.metaSnappers = d.metaSnappers) : d'.Coherent seen held where
  base := hbase
  coherent := by
    rw [hmetas]
    exact h.coherent
  legible := by
    rw [hmetas]
    exact h.legible
  held := by
    intro id kept hkept
    exact finds_of_same hmetas (h.held id kept hkept)

/-- Counts and times are no matter of lists and disks. -/
theorem Daemon.Coherent.count (h : d.Coherent seen held) (hid : ∀ m, (f m).id = m.id)
    (hbase : (d.modMeta id f).Base) (hsnapper : ∀ m, (f m).snapper = m.snapper)
    (hname : ∀ m, (f m).configName = m.configName) (hdisk : ∀ m, (f m).disk = m.disk) :
    (d.modMeta id f).Coherent seen held := by
  refine h.modMeta hname hbase hid ?_ (fun m => congrArg Disk.unreadable (hdisk m)) ?_
  · exact fun m _ hm => hm.of_same (hid m) (hname m) (hsnapper m) (hdisk m)
  · intro m kept _ _ hkept
    rw [hdisk]
    exact hkept

/-- A change of one snapshot in memory. -/
theorem Daemon.Coherent.modSnapshot {g : Snapshot → Snapshot} (h : d.Coherent seen held)
    (hg : Marks g) : (d.modSnapshot id num g).Coherent seen held :=
  h.modMeta (by intro; rfl) (h.base.modSnapshot hg.num) (by intro; rfl)
    (fun _ _ hm => coherent_setSnapshots hg hm) (by intro; rfl) fun _ _ _ _ hkept => hkept

/-- Loading reads the list from the disk; what is to be readable can be read. -/
theorem Daemon.Coherent.load (h : d.Coherent seen held) : (d.load id).Coherent seen held := by
  have hmod : ({ d with nextId := d.nextId + 1 } : Daemon).Coherent seen held := by
    refine h.of_same ?_ rfl
    exact h.base.of_same rfl (Nat.le_succ _) h.base.addresses.names
  refine Daemon.Coherent.modMeta hmod (by intro; rfl) h.base.load (by intro; rfl) ?_
    (by intro; rfl) fun _ _ _ _ hkept => hkept
  intro m hm _
  exact coherent_read (h.base.of_metaSnapper hm) (h.legible m (mem_of_metaSnapper hm))

/-- A change of the disk that keeps the infos, or loses some that are not asked for. -/
theorem Daemon.Coherent.modDisk {g : Disk → Disk} (h : d.Coherent seen held)
    (hbase : (d.modDisk id g).Base)
    (hinfos : ∀ disk, ∀ s ∈ (g disk).infos, s ∈ disk.infos)
    (hread : ∀ disk, (g disk).unreadable = disk.unreadable)
    (hheld : ∀ m kept, d.metaSnapper id = some m → held id kept → m.disk.Stores kept.core →
      (g m.disk).Stores kept.core) : (d.modDisk id g).Coherent seen held :=
  h.modMeta (by intro; rfl) hbase (by intro; rfl) (fun _ _ hm => coherent_lose hm (hinfos _))
    (fun m => hread m.disk) hheld

/-- The info of a snapshot that is deleted goes first. -/
theorem Daemon.Coherent.loseInfo (h : d.Coherent seen held)
    (hnot : ∀ kept, held id kept → kept.core.num ≠ num) :
    (d.loseInfo id num).Coherent seen held := by
  refine h.modDisk (h.base.filter_infos _) (fun _ s hs => (List.mem_filter.mp hs).1)
    (by intro; rfl) ?_
  rintro m kept - hkept ⟨s, hs, hcore⟩
  have hne : s.num ≠ num := by
    rw [← core_num, hcore]
    exact hnot kept hkept
  exact ⟨s, List.mem_filter.mpr ⟨hs, by simpa using hne⟩, hcore⟩

/-- The entry of a snapshot goes last, when its info is gone. -/
theorem Daemon.Coherent.erase {m : MetaSnapper} {stays : Bool} (h : d.Coherent seen held)
    (hm : d.metaSnapper id = some m) (hinfos : ∀ s ∈ m.disk.infos, s.num ≠ num) :
    (d.erase id num stays).Coherent seen held := by
  obtain rfl := id_of_metaSnapper hm
  refine h.modMeta (by intro; rfl) (h.base.erase hm hinfos) (by intro; rfl) ?_
    (by intro; rfl) fun _ _ _ _ hkept => hkept
  intro m' hm' hcoherent
  obtain rfl := Option.some.inj (hm.symm.trans hm')
  exact coherent_erase (h.base.of_metaSnapper hm) hinfos hcoherent

/-- The two changes of `flushInfo`. -/
theorem Daemon.Coherent.flush (h : d.Coherent seen held) (hs : d.snapshot id num = some s)
    (hnum : s.num ≠ 0) :
    ((d.modDisk id (Disk.write s)).modSnapshot id num Snapshot.flushed).Coherent seen held := by
  obtain ⟨m, hm, hmem, rfl⟩ := mem_of_snapshot hs
  have hbase : ((d.modDisk id (Disk.write s)).modSnapshot id s.num Snapshot.flushed).Base :=
    ((Edit.write hm hmem hnum).base h.base).modSnapshot (by intro; rfl)
  rw [Daemon.modSnapshot, Daemon.modDisk, modMeta_modMeta (by intro; rfl)] at hbase ⊢
  refine h.modMeta (by intro; rfl) hbase (by intro; rfl) ?_ (by intro; rfl) ?_
  · intro m' hm' hcoherent
    obtain rfl := Option.some.inj (hm.symm.trans hm')
    exact coherent_flush (h.base.of_metaSnapper hm).nodup hmem hcoherent
  · intro m' kept hm' _ hkept
    obtain rfl := Option.some.inj (hm.symm.trans hm')
    exact stores_write (h.coherent m (mem_of_metaSnapper hm)) hmem hkept

/-- One more snapshot is to be on disk. -/
def More (held : Nat → Deposit → Prop) (id : Nat) (kept : Deposit) : Nat → Deposit → Prop :=
  fun id' kept' => held id' kept' ∨ (id' = id ∧ kept' = kept)

/-- A new snapshot is on disk from then on, so that it may be asked to stay. -/
theorem Daemon.Coherent.insert {m : MetaSnapper} (h : d.Coherent seen held)
    (hfind : d.find configName = some m) (hid : m.id = id) (hlist : ¬ m.Has s.num)
    (hdir : s.num ∈ m.disk.dirs)
    (hinfos : ∀ s' ∈ m.disk.infos, s'.num ≠ s.num) (hnum : s.num ≠ 0) :
    (d.insert id s).Coherent seen (More held id ⟨configName, s.core⟩) := by
  subst hid
  have hm := h.base.addresses.metaSnapper_of_find hfind
  have hinsert : (d.insert m.id s).Coherent seen held := by
    refine h.modMeta (by intro; rfl) (h.base.insert hm hlist hdir hnum) (by intro; rfl) ?_
      (by intro; rfl) ?_
    · intro m' hm' hcoherent
      obtain rfl := Option.some.inj (hm.symm.trans hm')
      exact coherent_insert hlist hcoherent
    rintro m' kept hm' _ ⟨s', hs', hcore⟩
    obtain rfl := Option.some.inj (hm.symm.trans hm')
    exact ⟨s', mem_write.mpr (Or.inl ⟨hs', hinfos s' hs'⟩), hcore⟩
  -- what was there is still on disk, and the new one is
  refine ⟨hinsert.base, hinsert.coherent, hinsert.legible, ?_⟩
  rintro id' kept (hkept | ⟨rfl, rfl⟩)
  · exact hinsert.held id' kept hkept
  · refine ⟨_, (find_modMeta (by intro; rfl)).trans (congrArg _ hfind), ?_⟩
    dsimp only
    rw [if_pos rfl]
    exact ⟨rfl, Snapshot.stored s, mem_write.mpr (Or.inr rfl), stored_core⟩

end Daemon

/-! ## Handlers that keep them together -/

section Handlers

variable {seen : Entries} {held : Nat → Deposit → Prop} {env : Env} {me configName : Str} {id : Nat}
  {num : UInt32}
  {m : MetaSnapper} {α β : Type}

/-- Lists and disks still go together afterwards, also where the action throws. -/
def KeepsCoherent (seen : Entries) (held : Nat → Deposit → Prop) (c : Handler α) : Prop :=
  Spec (Daemon.Coherent seen held) c (fun _ => Daemon.Coherent seen held) fun _ =>
    Daemon.Coherent seen held

namespace KeepsCoherent

theorem bind {c : Handler α} {k : α → Handler β} (hc : KeepsCoherent seen held c)
    (hk : ∀ a, KeepsCoherent seen held (k a)) : KeepsCoherent seen held (c >>= k) := Spec.bind hc hk

theorem pure {a : α} : KeepsCoherent seen held (pure a : Handler α) := Spec.pure fun _ h => h

theorem throw {e : Exception} : KeepsCoherent seen held (throw e : Handler α) :=
  Spec.throw fun _ h => h

theorem read {f : Daemon → α} : KeepsCoherent seen held (Act.read f : Handler α) :=
  Spec.read fun _ h => h

theorem modify {f : Daemon → Daemon} (h : ∀ d, d.Coherent seen held → (f d).Coherent seen held) :
    KeepsCoherent seen held (Act.modify f) := Spec.modify h

theorem ite {p : Prop} [Decidable p] {c c' : Handler α} (hc : KeepsCoherent seen held c)
    (hc' : KeepsCoherent seen held c') : KeepsCoherent seen held (if p then c else c') :=
  Spec.ite (fun _ => hc) fun _ => hc'

theorem throwIf {b : Bool} {e : Exception} : KeepsCoherent seen held (Act.throwIf b e) :=
  Spec.throwIf (fun _ _ h => h) fun _ _ h => h

end KeepsCoherent

theorem call_coherent {c : Call} : KeepsCoherent seen held (call env c) := by
  rw [call]
  split
  · exact KeepsCoherent.pure
  · exact KeepsCoherent.throw

theorem findConfig_coherent : KeepsCoherent seen held (findConfig configName) := by
  apply KeepsCoherent.bind KeepsCoherent.read
  intro m
  cases m with
  | none => exact KeepsCoherent.throw
  | some m => exact KeepsCoherent.pure

theorem getUnixUserid_coherent {again : Bool} : KeepsCoherent seen held (getUnixUserid env again) :=
  call_coherent.bind fun _ => KeepsCoherent.pure

theorem checkRoot_coherent : KeepsCoherent seen held (checkRoot env) :=
  getUnixUserid_coherent.bind fun _ => KeepsCoherent.throwIf

theorem checkPermission_coherent : KeepsCoherent seen held (checkPermission env m) :=
  getUnixUserid_coherent.bind fun _ => KeepsCoherent.throwIf

theorem sendReply_coherent {reply : Reply} : KeepsCoherent seen held (sendReply me reply) :=
  KeepsCoherent.modify fun _ h =>
    h.of_same (h.base.of_same rfl le_rfl h.base.addresses.names) rfl

theorem signal_coherent {msg : Sent} : KeepsCoherent seen held (signal msg) :=
  KeepsCoherent.modify fun _ h =>
    h.of_same (h.base.of_same rfl le_rfl h.base.addresses.names) rfl

theorem Daemon.Coherent.use {d : Daemon} (h : d.Coherent seen held) (now : Int) :
    (d.modMeta id fun m => { m with lastUsed := now }).Coherent seen held :=
  h.count (by intro; rfl) ((Edit.use id now).base h.base) (fun _ => rfl) (fun _ => rfl) fun _ => rfl

theorem Daemon.Coherent.openedAt {d : Daemon} (h : d.Coherent seen held) :
    (d.openedAt env id).Coherent seen held := by
  rw [Daemon.openedAt]
  split
  · exact h
  · next m _ =>
    have hload : (if m.isLoaded = true then d else d.load m.id).Coherent seen held := by
      split
      · exact h
      · exact h.load
    exact hload.use env.now

/-- Where the config is loaded for the request, its list is what could be read of the disk. -/
theorem getSnapper_coherent : KeepsCoherent seen held (getSnapper env id) := by
  intro d h
  have hcases : (getSnapper env id).run d = _ ∨ _ := getSnapper_cases
  rcases hcases with hrun | ⟨e, hrun⟩
  · rw [hrun]
    exact h.openedAt
  · rw [hrun]
    exact h

/-- The common beginning of the handlers looks, loads and notes the time. -/
theorem openConfig_coherent : KeepsCoherent seen held (openConfig env configName) :=
  findConfig_coherent.bind fun _ => checkPermission_coherent.bind fun _ =>
    getSnapper_coherent.bind fun _ => KeepsCoherent.pure

/-- The config that is opened is served. -/
theorem openConfig_serves : Spec (Daemon.Coherent seen held) (openConfig env configName)
    (fun m d => d.Coherent seen held ∧ d.Serves configName m) fun _ => Daemon.Coherent seen held :=
  (openConfig_through.and_spec openConfig_coherent).conseq (fun _ h => ⟨h, h.base⟩)
    (fun _ _ h => h) fun _ _ h => h

theorem findSnapshot_coherent : KeepsCoherent seen held (findSnapshot id num) := KeepsCoherent.read

theorem getSnapshot_coherent : KeepsCoherent seen held (getSnapshot id num) := by
  apply findSnapshot_coherent.bind
  intro s
  cases s with
  | none => exact KeepsCoherent.throw
  | some s => exact KeepsCoherent.pure

theorem setField_coherent {f : Snapshot → Snapshot} (hf : Marks f) :
    KeepsCoherent seen held (setField id num f) :=
  KeepsCoherent.ite KeepsCoherent.throw (KeepsCoherent.modify fun _ h => h.modSnapshot hf)

theorem setUserdata_coherent {userdata : StrMap} :
    KeepsCoherent seen held (setUserdata id num userdata) :=
  KeepsCoherent.ite KeepsCoherent.throw (setField_coherent setUserdata_marks)

/-- `flushInfo` with its three outcomes: nothing to write, an info that could not be written, or
one that was. -/
theorem flushInfo_coherent {again : Bool} :
    KeepsCoherent seen held (flushInfo env id num again) := by
  apply Spec.bind (Q := fun found d => d.Coherent seen held ∧ d.snapshot id num = found)
  · exact Spec.read fun _ h => ⟨h, rfl⟩
  intro found
  cases found with
  | none => exact Spec.pure fun _ h => h.1
  | some s =>
    apply Spec.ite
    · intro _
      -- the current snapshot is refused, and the rest of the function may count on another number
      apply Spec.bind (Q := fun _ d => (d.Coherent seen held ∧ d.snapshot id num = some s) ∧
        s.num ≠ 0)
      · apply Spec.throwIf
        · exact fun _ _ h => h.1
        · intro hcurrent d h
          exact ⟨h, by simpa [Snapshot.isCurrent] using hcurrent⟩
      intro _
      apply Spec.bind (Q := fun _ d => (d.Coherent seen held ∧ d.snapshot id num = some s) ∧
        s.num ≠ 0)
      · rw [call]
        split
        · exact Spec.pure fun _ h => h
        · exact Spec.throw fun _ h => h.1.1
      intro _ d h
      exact h.1.1.flush h.1.2 h.2
    · intro _
      exact Spec.pure fun _ h => h.1

/-! ## Creation -/

/-- The directory for the next number is made on disk, without an info in it. -/
theorem nextNumber_coherent : KeepsCoherent seen held (nextNumber env id) := by
  apply KeepsCoherent.bind KeepsCoherent.read
  intro snapshots
  apply Spec.bind (Q := fun found d => d.Coherent seen held ∧ d.metaSnapper id = found)
  · exact Spec.read fun _ h => ⟨h, rfl⟩
  intro found
  dsimp only
  split
  · exact Spec.throw fun _ h => h.1
  -- the directory may be there already, and then the next number is tried
  · next num hnum =>
    apply Spec.bind (Q := fun _ d => d.Coherent seen held)
    · rw [call]
      split
      · exact Spec.pure fun _ h => h.1
      · exact Spec.throw fun _ h => h.1
    · intro _
      apply KeepsCoherent.bind _ fun _ => KeepsCoherent.pure
      apply KeepsCoherent.modify
      intro d h
      refine h.modDisk ?_ (fun _ _ hs => hs) (by intro; rfl) fun _ _ _ _ hkept => hkept
      apply h.base.modDisk
      · intro m _ hnumbered
        refine ⟨hnumbered.disk.nodup, hnumbered.disk.nonzero, ?_, hnumbered.disk.stored⟩
        intro s hs
        exact List.mem_append_left _ (hnumbered.disk.dirs s hs)
      · intro m _ s _ hdir _
        exact List.mem_append_left _ hdir

/-- The snapshot is made and its info written before it comes into the list.  When the file system
fails its directory is removed; when the info cannot be written, its directory may be left, and in
both cases nothing is under this number. -/
theorem createHelper_coherent {s : Snapshot} {core : Core} (hs : s.num = num)
    (hcore : s.core = core) :
    Spec (fun d => d.Coherent seen held ∧ d.Serves configName m ∧ d.Fresh m.id num)
      (createHelper env m.id s) (fun _ => Daemon.Coherent seen (More held m.id ⟨configName, core⟩))
      fun _ => Daemon.Coherent seen held := by
  subst hs hcore
  apply Spec.bind (Q := fun _ d =>
    (d.Coherent seen held ∧ d.Serves configName m ∧ d.Fresh m.id s.num) ∧ s.num ≠ 0)
  · apply Spec.throwIf
    · exact fun _ _ h => h.1
    · intro hcurrent d h
      exact ⟨h, by simpa [Snapshot.isCurrent] using hcurrent⟩
  intro _
  -- the directory was made for this snapshot, and nothing has its number
  have hremove : ∀ e : Exception,
      Spec (fun d => (d.Coherent seen held ∧ d.Serves configName m ∧ d.Fresh m.id s.num) ∧
        s.num ≠ 0)
        (removeDir env m.id s.num >>= fun _ => throw e : Handler PUnit)
        (fun _ => Daemon.Coherent seen (More held m.id ⟨configName, s.core⟩))
        fun _ => Daemon.Coherent seen held := by
    intro e
    apply Spec.bind (Q := fun _ => Daemon.Coherent seen held)
    · apply Spec.modify
      rintro d ⟨⟨h, -, m', hm, -, hinfos, hlist⟩, hnum⟩
      have hremove : Create d (d.modDisk m.id (Disk.removeDir s.num (env.stays s.num))) :=
        Create.removeDir hm (hlist hnum) hinfos
      exact h.modDisk (hremove.base h.base) (fun _ _ hs => hs) (by intro; rfl)
        fun _ _ _ _ hkept => hkept
    · exact fun _ => Spec.throw fun _ h => h
  have hcall : ∀ c, Spec
      (fun d => (d.Coherent seen held ∧ d.Serves configName m ∧ d.Fresh m.id s.num) ∧ s.num ≠ 0)
      (call env c)
      (fun _ d => (d.Coherent seen held ∧ d.Serves configName m ∧ d.Fresh m.id s.num) ∧ s.num ≠ 0)
      fun _ => Daemon.Coherent seen held := by
    intro c
    rw [call]
    split
    · exact Spec.pure fun _ h => h
    · exact Spec.throw fun _ h => h.1.1
  split
  · exact hremove _
  · exact Spec.throw fun _ h => h.1.1
  · split
    · exact Spec.bind (hcall _) fun _ => hremove _
    · exact Spec.throw fun _ h => h.1.1
    · apply Spec.modify
      rintro d ⟨⟨h, hserves, m', hm, hdir, hinfos, hlist⟩, hnum⟩
      obtain ⟨-, m'', hfind, hid, -⟩ := hserves
      obtain rfl := eq_of_find h.base hfind hm hid
      exact h.insert hfind hid (hlist hnum) hdir hinfos hnum

/-- The core of a snapshot that is created now. -/
def newCore (env : Env) (type : SnapshotType) (preNum num : UInt32) : Core where
  num := num
  type := type
  date := env.time
  preNum := if type = .POST then preNum else 0

/-- The number of the new snapshot is fresh, so the helper puts it on disk and into the list. -/
theorem createSnapshot_coherent {type : SnapshotType} {preNum : UInt32} {description : Str} :
    Spec (fun d => d.Coherent seen held ∧ d.Serves configName m)
      (createSnapshot env m.id type preNum description)
      (fun num => Daemon.Coherent seen (More held m.id ⟨configName, newCore env type preNum num⟩))
      fun _ => Daemon.Coherent seen held := by
  apply Spec.bind (nextNumber_through.and_spec nextNumber_coherent)
  intro num
  apply Spec.bind (Q := fun _ =>
    Daemon.Coherent seen (More held m.id ⟨configName, newCore env type preNum num⟩))
  · have hhelper : Spec (fun d => d.Coherent seen held ∧ d.Serves configName m ∧ d.Fresh m.id num)
        (createHelper env m.id { Snapshot.new type num env.time with
          preNum := preNum, description := description, infoModified := true })
        (fun _ => Daemon.Coherent seen (More held m.id ⟨configName, newCore env type preNum num⟩))
        fun _ => Daemon.Coherent seen held := createHelper_coherent rfl rfl
    exact hhelper.conseq (fun _ h => h) (fun _ _ h => h) fun _ _ h => h
  · exact fun _ => Spec.pure fun _ h => h

/-- Cleanup and userdata come after the creation and are written by `flushInfo`. -/
theorem finishCreate_coherent {cleanup : Str} {userdata : StrMap} :
    KeepsCoherent seen held (finishCreate env id num cleanup userdata) :=
  getUnixUserid_coherent.bind fun _ => (setField_coherent setUid_marks).bind fun _ =>
    (setField_coherent setCleanup_marks).bind fun _ =>
      setUserdata_coherent.bind fun _ => flushInfo_coherent

end Handlers

end Snapper.Server
