import Snapper.Server.Access

/-!
# Edits

Most of what a handler does to the state is an edit: something is sent, a config is loaded or
used, a snapshot gets other fields.  Edits keep which configs and snapshots there are and how
often they are in use.

## Main results

* `Edit.base`: the addresses and numbers stay well-formed.
* `openConfig_through`: the common beginning of the handlers makes edits only.
-/

namespace Snapper.Server

open General

/-! ## Well-formed numbers -/

/-- Numbers stand once, and where a snapshot is, a directory is.  This is why the next number, the
first one without a directory, is new to the list. -/
structure MetaSnapper.Numbered (m : MetaSnapper) : Prop where
  disk : m.disk.WF
  nodup : (m.snapshots.map Snapshot.num).Nodup
  dirs : ∀ s ∈ m.snapshots, s.num = 0 ∨ s.num ∈ m.disk.dirs

/-- What always holds of addresses and numbers, in every reachable state. -/
structure Daemon.Base (d : Daemon) : Prop where
  addresses : d.Addresses
  numbered : ∀ m ∈ d.metaSnappers, m.Numbered

/-- The address of the `Snapper`, if there is one. -/
def MetaSnapper.snapperId (m : MetaSnapper) : Option Nat := m.snapper.map Loaded.id

/-- A snapshot with this number is in the list. -/
def MetaSnapper.Has (num : UInt32) (m : MetaSnapper) : Prop := ∃ s ∈ m.snapshots, s.num = num

section Lists

variable {m : MetaSnapper} {num : UInt32} {s : Snapshot} {f : List Snapshot → List Snapshot}
  {g : Snapshot → Snapshot} {disk : Disk}

@[simp] theorem setSnapshots_snapperId : (m.setSnapshots f).snapperId = m.snapperId := by
  cases hsnapper : m.snapper with
  | none => simp [MetaSnapper.setSnapshots, MetaSnapper.snapperId, hsnapper]
  | some loaded => simp [MetaSnapper.setSnapshots, MetaSnapper.snapperId, hsnapper]

@[simp] theorem setSnapshots_isLoaded : (m.setSnapshots f).isLoaded = m.isLoaded := by
  simp [MetaSnapper.setSnapshots, MetaSnapper.isLoaded]

/-- The new list, where there is one. -/
theorem setSnapshots_snapshots (h : m.isLoaded = true) :
    (m.setSnapshots f).snapshots = f m.snapshots := by
  obtain ⟨loaded, hsnapper⟩ := Option.isSome_iff_exists.mp h
  simp [MetaSnapper.setSnapshots, MetaSnapper.snapshots, hsnapper]

/-- Changing one snapshot of a list changes it in the list. -/
theorem setSnapshots_update :
    (m.setSnapshots (update Snapshot.num num g)).snapshots =
      update Snapshot.num num g m.snapshots := by
  cases hsnapper : m.snapper with
  | none => simp [MetaSnapper.setSnapshots, MetaSnapper.snapshots, hsnapper, update]
  | some loaded => simp [MetaSnapper.setSnapshots, MetaSnapper.snapshots, hsnapper]

/-- A config with a snapshot is loaded. -/
theorem isLoaded_of_mem (hs : s ∈ m.snapshots) : m.isLoaded = true := by
  cases hsnapper : m.snapper with
  | none => simp [MetaSnapper.snapshots, hsnapper] at hs
  | some loaded => simp [MetaSnapper.isLoaded, hsnapper]

/-- The numbers in the list, as far as they matter. -/
theorem has_iff : m.Has num ↔ num ∈ m.snapshots.map Snapshot.num := by
  simp [MetaSnapper.Has]

/-- Only the numbers of the list and the disk matter. -/
theorem numbered_of_nums {m' : MetaSnapper} (h : m.Numbered) (hdisk : m'.disk = m.disk)
    (hnums : m'.snapshots.map Snapshot.num = m.snapshots.map Snapshot.num) : m'.Numbered where
  disk := by
    rw [hdisk]
    exact h.disk
  nodup := by
    rw [hnums]
    exact h.nodup
  dirs := by
    intro s hs
    have hnum : s.num ∈ m.snapshots.map Snapshot.num := by
      rw [← hnums]
      exact List.mem_map_of_mem hs
    obtain ⟨s', hs', hnum'⟩ := List.mem_map.mp hnum
    rw [hdisk, ← hnum']
    exact h.dirs s' hs'

/-- What is read from a disk has each number once, the current system included. -/
theorem read_nodup (h : disk.WF) : (disk.read.map Snapshot.num).Nodup := by
  rw [Disk.read, List.map_cons, List.nodup_cons]
  constructor
  · -- the current snapshot is not on disk
    rintro hmem
    obtain ⟨s, hs, hnum⟩ := List.mem_map.mp hmem
    exact h.nonzero s (mem_infos_of_readable ((List.mem_insertionSort _).mp hs)) hnum
  · have hperm := List.perm_insertionSort (fun a b : Snapshot => a.num ≤ b.num) disk.readable
    have hsub : (disk.readable.map Snapshot.num).Sublist (disk.infos.map Snapshot.num) :=
      List.filter_sublist.map Snapshot.num
    exact (hperm.map Snapshot.num).nodup_iff.mpr (hsub.nodup h.nodup)

end Lists

/-! ## What changes of one config keep -/

section ModMeta

variable {d d' : Daemon} {id : Nat} {num : UInt32} {configName name : Str}
  {f : MetaSnapper → MetaSnapper} {g : Client → Client} {m m' : MetaSnapper}

/-- A config of the new state is the changed one or an old one. -/
theorem mem_modMeta (h : m' ∈ (d.modMeta id f).metaSnappers) :
    ∃ m ∈ d.metaSnappers, (m.id = id ∧ m' = f m) ∨ (m.id ≠ id ∧ m' = m) := mem_update h

/-- A config of the list is found under its address. -/
theorem Daemon.Base.metaSnapper_of_mem (h : d.Base) (hm : m ∈ d.metaSnappers) :
    d.metaSnapper m.id = some m := h.addresses.metaSnapper_of_mem hm

theorem Daemon.Base.of_metaSnapper (h : d.Base) (hm : d.metaSnapper id = some m) : m.Numbered :=
  h.numbered m (mem_of_lookup hm)

/-- What is found under an address has the address. -/
theorem id_of_metaSnapper (hm : d.metaSnapper id = some m) : m.id = id := key_of_lookup hm

theorem mem_of_metaSnapper (hm : d.metaSnapper id = some m) : m ∈ d.metaSnappers :=
  mem_of_lookup hm

theorem mem_of_find (hm : d.find configName = some m) : m ∈ d.metaSnappers := mem_of_lookup hm

/-- What is found under a name has the name. -/
theorem configName_of_find (hm : d.find configName = some m) : m.configName = configName :=
  key_of_lookup hm

theorem mem_of_client {c : Client} (hc : d.client name = some c) : c ∈ d.clients :=
  mem_of_lookup hc

theorem name_of_client {c : Client} (hc : d.client name = some c) : c.name = name :=
  key_of_lookup hc

/-- A change of one config, whose `Snapper` stays, goes or is a new one.  A new one gets an
address that was not used yet, so that it is distinct from those of the other configs. -/
theorem Daemon.Base.modMeta_nextId {n : Nat} (h : d.Base) (hn : d.nextId ≤ n)
    (hid : ∀ m, (f m).id = m.id)
    (hsnapper : ∀ m, d.metaSnapper id = some m → ∀ i, (f m).snapperId = some i →
      m.snapperId = some i ∨ (d.nextId ≤ i ∧ i < n))
    (hnumbered : ∀ m, d.metaSnapper id = some m → m.Numbered → (f m).Numbered) :
    ({ d.modMeta id f with nextId := n } : Daemon).Base := by
  -- each config of the new state comes from one of the old state
  have horigin : ∀ m' ∈ (d.modMeta id f).metaSnappers, ∃ m ∈ d.metaSnappers,
      m'.id = m.id ∧ (m.Numbered → m'.Numbered) ∧ ∀ i, m'.snapperId = some i →
        m.snapperId = some i ∨ (m.id = id ∧ d.nextId ≤ i ∧ i < n) := by
    intro m' hm'
    obtain ⟨m, hm, ⟨hmid, rfl⟩ | ⟨-, rfl⟩⟩ := mem_modMeta hm'
    · have hlookup := h.metaSnapper_of_mem hm
      rw [hmid] at hlookup
      refine ⟨m, hm, hid m, hnumbered m hlookup, fun i hi => ?_⟩
      exact (hsnapper m hlookup i hi).imp_right fun hnew => ⟨hmid, hnew⟩
    · exact ⟨m', hm, rfl, fun hnum => hnum, fun i hi => Or.inl hi⟩
  have hloaded : ∀ {m' : MetaSnapper} {loaded}, m'.snapper = some loaded →
      m'.snapperId = some loaded.id := by
    intro m' loaded hsome
    simp [MetaSnapper.snapperId, hsome]
  have hold : ∀ {m : MetaSnapper} {i}, m ∈ d.metaSnappers → m.snapperId = some i →
      ∃ loaded, m.snapper = some loaded ∧ loaded.id = i ∧ i < d.nextId := by
    intro m i hm hsome
    obtain ⟨loaded, hsnap, rfl⟩ : ∃ loaded, m.snapper = some loaded ∧ loaded.id = i := by
      simpa [MetaSnapper.snapperId] using hsome
    exact ⟨loaded, hsnap, rfl, h.addresses.snappers m hm loaded hsnap⟩
  refine ⟨⟨?_, ?_, ?_, ?_, h.addresses.names⟩, ?_⟩
  · show ((update MetaSnapper.id id f d.metaSnappers).map MetaSnapper.id).Nodup
    rw [map_update hid]
    exact h.addresses.ids
  · intro m' hm'
    obtain ⟨m, hm, hsame, -, -⟩ := horigin m' hm'
    rw [hsame]
    exact lt_of_lt_of_le (h.addresses.nextId m hm) hn
  · intro m' hm' loaded hsome
    show loaded.id < n
    obtain ⟨m, hm, -, -, hsnap⟩ := horigin m' hm'
    rcases hsnap _ (hloaded hsome) with hsame | ⟨-, -, hlt⟩
    · obtain ⟨-, -, -, hlt⟩ := hold hm hsame
      exact lt_of_lt_of_le hlt hn
    · exact hlt
  · intro m₁ hm₁ m₂ hm₂ loaded₁ loaded₂ hsome₁ hsome₂ heq
    obtain ⟨n₁, hn₁, hid₁, -, hsnap₁⟩ := horigin m₁ hm₁
    obtain ⟨n₂, hn₂, hid₂, -, hsnap₂⟩ := horigin m₂ hm₂
    rw [hid₁, hid₂]
    have h₁ := hsnap₁ _ (hloaded hsome₁)
    have h₂ := hsnap₂ _ (hloaded hsome₂)
    rw [heq] at h₁
    -- a new address is not among the old ones
    rcases h₁ with h₁ | ⟨hid₁, hge, -⟩
    · obtain ⟨l₁, hl₁, hlid₁, hlt⟩ := hold hn₁ h₁
      rcases h₂ with h₂ | ⟨-, hge, -⟩
      · obtain ⟨l₂, hl₂, hlid₂, -⟩ := hold hn₂ h₂
        exact h.addresses.distinct n₁ hn₁ n₂ hn₂ l₁ l₂ hl₁ hl₂ (hlid₁.trans hlid₂.symm)
      · omega
    · rcases h₂ with h₂ | ⟨hid₂, -, -⟩
      · obtain ⟨-, -, -, hlt⟩ := hold hn₂ h₂
        omega
      · rw [hid₁, hid₂]
  · intro m' hm'
    obtain ⟨m, hm, -, hnum, -⟩ := horigin m' hm'
    exact hnum (h.numbered m hm)

/-- A change of one config, whose `Snapper` stays or goes. -/
theorem Daemon.Base.modMeta (h : d.Base) (hid : ∀ m, (f m).id = m.id)
    (hsnapper : ∀ m, (f m).snapperId = m.snapperId ∨ (f m).snapperId = none)
    (hnumbered : ∀ m, d.metaSnapper id = some m → m.Numbered → (f m).Numbered) :
    (d.modMeta id f).Base := by
  apply h.modMeta_nextId le_rfl hid _ hnumbered
  intro m _ i hi
  rcases hsnapper m with hsame | hnone
  · exact Or.inl (hsame.symm.trans hi)
  · rw [hnone] at hi
    cases hi

/-- A change of a snapshot that keeps its number. -/
theorem Daemon.Base.modSnapshot {g : Snapshot → Snapshot} (h : d.Base)
    (hnum : ∀ s, (g s).num = s.num) : (d.modSnapshot id num g).Base := by
  apply h.modMeta (by intro; rfl)
  · intro m
    exact Or.inl setSnapshots_snapperId
  · intro m _ hm
    apply numbered_of_nums hm
    · rfl
    · rw [setSnapshots_update, map_update hnum]

/-- Loading makes a `Snapper` with a new address, and its list has each number once. -/
theorem Daemon.Base.load (h : d.Base) : (d.load id).Base := by
  apply h.modMeta_nextId (Nat.le_succ _) (by intro; rfl)
  · intro m _ i hi
    obtain rfl : d.nextId = i := by simpa [MetaSnapper.snapperId] using hi
    exact Or.inr ⟨le_rfl, Nat.lt_succ_self _⟩
  · intro m _ hm
    refine ⟨hm.disk, read_nodup hm.disk, ?_⟩
    intro s hs
    rcases mem_read.mp hs with rfl | hs
    · exact Or.inl rfl
    · exact Or.inr (hm.disk.dirs s (mem_infos_of_readable hs))

/-- Nothing is asked of the rest of the state. -/
theorem Daemon.Base.of_same (h : d.Base) (hmetas : d'.metaSnappers = d.metaSnappers)
    (hnext : d.nextId ≤ d'.nextId) (hnames : (d'.clients.map Client.name).Nodup) : d'.Base := by
  constructor
  · constructor
    · rw [hmetas]
      exact h.addresses.ids
    · intro m hm
      rw [hmetas] at hm
      exact lt_of_lt_of_le (h.addresses.nextId m hm) hnext
    · intro m hm loaded hsome
      rw [hmetas] at hm
      exact lt_of_lt_of_le (h.addresses.snappers m hm loaded hsome) hnext
    · rw [hmetas]
      exact h.addresses.distinct
    · exact hnames
  · rw [hmetas]
    exact h.numbered

/-- A change of one client that keeps its name. -/
theorem Daemon.Base.modClient (h : d.Base) (hname : ∀ c, (g c).name = c.name) :
    (d.modClient name g).Base := by
  apply h.of_same
  · rfl
  · rfl
  · show ((update Client.name name g d.clients).map Client.name).Nodup
    rw [map_update hname]
    exact h.addresses.names

/-- A change of the counts. -/
theorem Daemon.Base.count {counts : MetaSnapper → MetaSnapper} (h : d.Base)
    (hcounts : ∀ m, (counts m).id = m.id ∧ (counts m).snapper = m.snapper ∧
      (counts m).disk = m.disk) (hmetas : d'.metaSnappers = d.metaSnappers.map counts)
    (hnext : d'.nextId = d.nextId) (hclients : d'.clients = d.clients) : d'.Base := by
  -- every config is an old one with another counter
  have horigin : ∀ m' ∈ d'.metaSnappers, ∃ m ∈ d.metaSnappers, m' = counts m := by
    intro m' hm'
    rw [hmetas] at hm'
    obtain ⟨m, hm, rfl⟩ := List.mem_map.mp hm'
    exact ⟨m, hm, rfl⟩
  constructor
  -- addresses, numbers and names are read off the old configs
  · constructor
    · rw [hmetas, List.map_map, List.map_congr_left (g := MetaSnapper.id)]
      · exact h.addresses.ids
      · intro m _
        exact (hcounts m).1
    · intro m' hm'
      obtain ⟨m, hm, rfl⟩ := horigin m' hm'
      rw [(hcounts m).1, hnext]
      exact h.addresses.nextId m hm
    · intro m' hm' loaded hsome
      obtain ⟨m, hm, rfl⟩ := horigin m' hm'
      rw [hnext]
      exact h.addresses.snappers m hm loaded ((hcounts m).2.1.symm.trans hsome)
    · intro m₁ hm₁ m₂ hm₂ loaded₁ loaded₂ hsome₁ hsome₂ heq
      obtain ⟨n₁, hn₁, rfl⟩ := horigin m₁ hm₁
      obtain ⟨n₂, hn₂, rfl⟩ := horigin m₂ hm₂
      rw [(hcounts n₁).1, (hcounts n₂).1]
      exact h.addresses.distinct n₁ hn₁ n₂ hn₂ loaded₁ loaded₂
        ((hcounts n₁).2.1.symm.trans hsome₁) ((hcounts n₂).2.1.symm.trans hsome₂) heq
    · rw [hclients]
      exact h.addresses.names
  · intro m' hm'
    obtain ⟨m, hm, rfl⟩ := horigin m' hm'
    apply numbered_of_nums (h.numbered m hm) (hcounts m).2.2
    rw [MetaSnapper.snapshots, (hcounts m).2.1]
    rfl

/-- Writing an info replaces the one of the same number. -/
theorem Disk.WF.write {disk : Disk} {s : Snapshot} (h : disk.WF) (hnum : s.num ≠ 0)
    (hdir : s.num ∈ disk.dirs) : (disk.write s).WF := by
  constructor
  · show ((disk.infos.filter (·.num ≠ s.num) ++ [Snapshot.stored s]).map Snapshot.num).Nodup
    rw [List.map_append, List.nodup_append]
    refine ⟨(List.filter_sublist.map _).nodup h.nodup, by simp, ?_⟩
    -- the old info of this number is gone
    rintro num hold _ hnew rfl
    obtain ⟨s', hs', rfl⟩ := List.mem_map.mp hold
    have hne : s'.num ≠ s.num := by simpa using (List.mem_filter.mp hs').2
    exact hne (by simpa [Snapshot.stored] using hnew)
  · intro s' hs'
    rcases List.mem_append.mp hs' with hold | hnew
    · exact h.nonzero s' (List.mem_filter.mp hold).1
    · obtain rfl := List.mem_singleton.mp hnew
      exact hnum
  · intro s' hs'
    rcases List.mem_append.mp hs' with hold | hnew
    · exact h.dirs s' (List.mem_filter.mp hold).1
    · obtain rfl := List.mem_singleton.mp hnew
      exact hdir
  · intro s' hs'
    rcases List.mem_append.mp hs' with hold | hnew
    · exact h.stored s' (List.mem_filter.mp hold).1
    · obtain rfl := List.mem_singleton.mp hnew
      by_cases htype : s.type = .POST
      · simp [Snapshot.stored, htype]
      · simp [Snapshot.stored, htype]

/-- Infos may be lost. -/
theorem Disk.WF.filter_infos {disk : Disk} (h : disk.WF) (p : Snapshot → Bool) :
    ({ disk with infos := disk.infos.filter p } : Disk).WF where
  nodup := (List.filter_sublist.map _).nodup h.nodup
  nonzero s hs := h.nonzero s (List.mem_filter.mp hs).1
  dirs s hs := h.dirs s (List.mem_filter.mp hs).1
  stored s hs := h.stored s (List.mem_filter.mp hs).1

/-- The directory of a number without an info may go. -/
theorem Disk.WF.removeDir {disk : Disk} {num : UInt32} {stays : Bool} (h : disk.WF)
    (hinfos : ∀ s ∈ disk.infos, s.num ≠ num) :
    (disk.removeDir num stays).WF where
  nodup := h.nodup
  nonzero := h.nonzero
  dirs s hs := mem_removeDir (h.dirs s hs) (hinfos s hs)
  stored := h.stored

/-- A change of the disk that keeps the directories of the snapshots. -/
theorem Daemon.Base.modDisk {f : Disk → Disk} {id : Nat} (h : d.Base)
    (hwf : ∀ m, d.metaSnapper id = some m → m.Numbered → (f m.disk).WF)
    (hdirs : ∀ m, d.metaSnapper id = some m → ∀ s ∈ m.snapshots, s.num ∈ m.disk.dirs →
      s.num ≠ 0 → s.num ∈ (f m.disk).dirs) : (d.modDisk id f).Base := by
  apply h.modMeta (by intro; rfl)
  · intro m
    exact Or.inl rfl
  · intro m hm hnum
    refine ⟨hwf m hm hnum, hnum.nodup, ?_⟩
    intro s hs
    by_cases hzero : s.num = 0
    · exact Or.inl hzero
    · exact Or.inr (hdirs m hm s hs ((hnum.dirs s hs).resolve_left hzero) hzero)

/-- Two changes of one config. -/
theorem modMeta_modMeta {g : MetaSnapper → MetaSnapper} (hid : ∀ m, (f m).id = m.id) :
    (d.modMeta id f).modMeta id g = d.modMeta id fun m => g (f m) := by
  have hlist : update MetaSnapper.id id g (update MetaSnapper.id id f d.metaSnappers) =
      update MetaSnapper.id id (fun m => g (f m)) d.metaSnappers := update_update hid
  show ({ d with metaSnappers := _ } : Daemon) = { d with metaSnappers := _ }
  rw [← hlist]
  rfl

/-- What is found by name after a change of one config. -/
theorem find_modMeta (hname : ∀ m, (f m).configName = m.configName) :
    (d.modMeta id f).find configName =
      (d.find configName).map fun m => if m.id = id then f m else m := lookup_update hname

/-- What is found by address after a change of one config. -/
theorem metaSnapper_modMeta_ite (hid : ∀ m, (f m).id = m.id) {id' : Nat} :
    (d.modMeta id f).metaSnapper id' =
      (d.metaSnapper id').map fun m => if m.id = id then f m else m := lookup_update hid

end ModMeta

/-! ## Edits -/

/-- A change that keeps which configs and snapshots there are and their use counts.  Whatever a
handler does before it creates, deletes, mounts or compares is a sequence of edits. -/
inductive Edit : Daemon → Daemon → Prop
  | send {d} (msg : Sent) : Edit d (d.send msg)
  | load {d id m} (hm : d.metaSnapper id = some m) (hunloaded : m.snapper = none)
      (hfind : d.find m.configName = some m) : Edit d (d.load id)
  | use {d} (id : Nat) (now : Int) : Edit d (d.modMeta id fun m => { m with lastUsed := now })
  | edit {d} (id : Nat) (num : UInt32) {f : Snapshot → Snapshot} (hnum : ∀ s, (f s).num = s.num)
      (hcount : ∀ s, (f s).mountUseCount = s.mountUseCount) : Edit d (d.modSnapshot id num f)
  | write {d id m s} (hm : d.metaSnapper id = some m) (hs : s ∈ m.snapshots) (hnum : s.num ≠ 0) :
      Edit d (d.modDisk id (Disk.write s))

/-- The config of this name is the one that `meta_snappers.find` returned, and it is loaded. -/
def Daemon.Serves (configName : Str) (m : MetaSnapper) (d : Daemon) : Prop :=
  d.Base ∧ ∃ m', d.find configName = some m' ∧ m'.id = m.id ∧ m'.configInfo = m.configInfo ∧
    m'.isLoaded = true

/-- A snapshot with this number is in the list of the config. -/
def Daemon.Has (id : Nat) (num : UInt32) (d : Daemon) : Prop :=
  ∃ m, d.metaSnapper id = some m ∧ m.Has num

section Edit

variable {d d' : Daemon} {id : Nat} {num : UInt32} {configName : Str} {m : MetaSnapper}

/-- An edit keeps addresses and numbers well-formed. -/
theorem Edit.base (h : Edit d d') (hd : d.Base) : d'.Base := by
  cases h with
  | send msg => exact hd.of_same rfl le_rfl hd.addresses.names
  | load hm hunloaded hfind => exact hd.load
  | use id now =>
    apply hd.modMeta (by intro; rfl)
    · intro m
      exact Or.inl rfl
    · intro m _ hm
      exact numbered_of_nums hm rfl rfl
  | edit id num hnum hcount => exact hd.modSnapshot hnum
  | @write id m s hm hs hnum =>
    apply hd.modDisk
    · intro m' hm' hnumbered
      obtain rfl := Option.some.inj (hm.symm.trans hm')
      exact hnumbered.disk.write hnum ((hnumbered.dirs s hs).resolve_left hnum)
    · intro m' _ s' _ hdir _
      exact hdir

/-- What is found by name after an edit is the same config, as often in use, and still loaded if
it was. -/
theorem Edit.find (h : Edit d d') (hm : d.find configName = some m) :
    ∃ m', d'.find configName = some m' ∧ m'.id = m.id ∧ m'.configInfo = m.configInfo ∧
      m'.counter = m.counter ∧ (m.isLoaded = true → m'.isLoaded = true) := by
  -- no edit changes the name or the counter, and none unloads
  cases h with
  | send msg => exact ⟨m, hm, rfl, rfl, rfl, id⟩
  | load hm' hunloaded hfind =>
    refine ⟨_, (find_modMeta (by intro; rfl)).trans (congrArg _ hm), ?_⟩
    dsimp only
    split
    · exact ⟨rfl, rfl, rfl, fun _ => rfl⟩
    · exact ⟨rfl, rfl, rfl, id⟩
  | use id' now =>
    refine ⟨_, (find_modMeta (by intro; rfl)).trans (congrArg _ hm), ?_⟩
    dsimp only
    split
    · exact ⟨rfl, rfl, rfl, id⟩
    · exact ⟨rfl, rfl, rfl, id⟩
  | edit id' num hnum hcount =>
    refine ⟨_, (find_modMeta (by intro; rfl)).trans (congrArg _ hm), ?_⟩
    dsimp only
    split
    · refine ⟨rfl, rfl, rfl, fun hloaded => ?_⟩
      rw [setSnapshots_isLoaded]
      exact hloaded
    · exact ⟨rfl, rfl, rfl, id⟩
  | write hm' hs hnum =>
    refine ⟨_, (find_modMeta (by intro; rfl)).trans (congrArg _ hm), ?_⟩
    dsimp only
    split
    · exact ⟨rfl, rfl, rfl, id⟩
    · exact ⟨rfl, rfl, rfl, id⟩

/-- An edit keeps the config of the handler loaded. -/
theorem Edit.serves (h : Edit d d') (hd : d.Serves configName m) : d'.Serves configName m := by
  obtain ⟨hbase, m₁, hfind, hid, hinfo, hloaded⟩ := hd
  obtain ⟨m₂, hfind', hid', hinfo', -, hloaded'⟩ := h.find hfind
  exact ⟨h.base hbase, m₂, hfind', hid'.trans hid, hinfo'.trans hinfo, hloaded' hloaded⟩

/-- An edit removes no snapshot of a loaded config. -/
theorem Edit.has (h : Edit d d') (hd : d.Has id num) : d'.Has id num := by
  obtain ⟨m, hm, s, hs, hnum⟩ := hd
  cases h with
  | send msg => exact ⟨m, hm, s, hs, hnum⟩
  | load hm' hunloaded hfind =>
    refine ⟨_, (metaSnapper_modMeta_ite (by intro; rfl)).trans (congrArg _ hm), ?_⟩
    dsimp only
    split
    · -- the config that was loaded had no snapshots before
      next heq =>
      obtain rfl := (id_of_metaSnapper hm).symm.trans heq
      obtain rfl := Option.some.inj (hm.symm.trans hm')
      simp [MetaSnapper.snapshots, hunloaded] at hs
    · exact ⟨s, hs, hnum⟩
  | use id' now =>
    refine ⟨_, (metaSnapper_modMeta_ite (by intro; rfl)).trans (congrArg _ hm), ?_⟩
    dsimp only
    split
    · exact ⟨s, hs, hnum⟩
    · exact ⟨s, hs, hnum⟩
  | edit id' num' hnum' hcount =>
    refine ⟨_, (metaSnapper_modMeta_ite (by intro; rfl)).trans (congrArg _ hm), ?_⟩
    dsimp only
    split
    · rw [has_iff, setSnapshots_update, map_update hnum', ← has_iff]
      exact ⟨s, hs, hnum⟩
    · exact ⟨s, hs, hnum⟩
  | write hm' hs' hnum' =>
    refine ⟨_, (metaSnapper_modMeta_ite (by intro; rfl)).trans (congrArg _ hm), ?_⟩
    dsimp only
    split
    · exact ⟨s, hs, hnum⟩
    · exact ⟨s, hs, hnum⟩

end Edit

/-! ## Handlers that make edits -/

section Edits

variable {env : Env} {me configName : Str} {d : Daemon} {id : Nat} {num : UInt32}
  {m : MetaSnapper} {R : Daemon → Daemon → Prop} {P : Daemon → Prop}

open Act

/-- A call that leaves the daemon does not change its state. -/
theorem call_through {c : Call} : Through R P (call env c) fun _ => P := by
  rw [call]
  split
  · exact Through.pure fun _ h => h
  · exact Through.throw

/-- Finding a config by its name changes nothing and gives the config of that name. -/
theorem findConfig_through :
    Through R P (findConfig configName) fun m d => P d ∧ d.find configName = some m := by
  apply Through.bind (Q := fun found d => P d ∧ d.find configName = found)
  · exact Through.read fun _ h => ⟨h, rfl⟩
  · intro found
    cases found with
    | none => exact Through.throw
    | some m => exact Through.pure fun _ h => h

/-- The permission is checked without any change. -/
theorem checkPermission_through : Through R P (checkPermission env m) fun _ => P := by
  apply Through.bind (Q := fun _ => P)
  · apply Through.bind call_through
    intro _
    exact Through.pure fun _ h => h
  · intro uid
    exact Through.throwIf fun _ _ h => h

/-- So is the permission of root. -/
theorem checkRoot_through : Through R P (checkRoot env) fun _ => P := by
  apply Through.bind (Q := fun _ => P)
  · apply Through.bind call_through
    intro _
    exact Through.pure fun _ h => h
  · intro uid
    exact Through.throwIf fun _ _ h => h

/-- Loading a config for a handler is an edit, and the config is served from then on. -/
theorem getSnapper_through :
    Through Edit (fun d => d.Base ∧ d.find configName = some m) (getSnapper env m.id)
      fun _ d => d.Serves configName m := by
  -- both branches end with the config being used
  have huse : Through Edit (Daemon.Serves configName m)
      (Act.modify (Daemon.modMeta m.id fun m => { m with lastUsed := env.now }) : Handler PUnit)
      fun _ => Daemon.Serves configName m := by
    apply Through.modify
    intro d h
    have hedit : Edit d _ := Edit.use m.id env.now
    exact ⟨hedit, hedit.serves h⟩
  apply Through.bind (Q := fun found d =>
    d.Base ∧ d.find configName = some m ∧ found = some m)
  · exact Through.read fun d h => ⟨h.1, h.2, h.1.addresses.metaSnapper_of_find h.2⟩
  · intro found
    apply Through.of_fact (p := found = some m)
    · exact fun d h => h.2.2
    rintro rfl
    apply Through.ite
    · intro hloaded
      apply huse.conseq
      · exact fun d h => ⟨h.1, m, h.2.1, rfl, rfl, hloaded⟩
      · exact fun _ _ h => h
    · intro hloaded
      apply Through.bind call_through
      intro _
      apply Through.bind (Q := fun _ => Daemon.Serves configName m)
      · apply Through.modify
        rintro d ⟨hbase, hfind, -⟩
        have hm : d.metaSnapper m.id = some m := hbase.addresses.metaSnapper_of_find hfind
        have hunloaded : m.snapper = none := by simpa [MetaSnapper.isLoaded] using hloaded
        have hname : d.find m.configName = some m := by
          rw [configName_of_find hfind]
          exact hfind
        refine ⟨Edit.load hm hunloaded hname, hbase.load, ?_⟩
        refine ⟨_, (find_modMeta (by intro; rfl)).trans (congrArg _ hfind), ?_⟩
        simp [MetaSnapper.isLoaded]
      · intro _
        exact huse

/-- The common beginning of the handlers makes edits only, and serves the config of the name. -/
theorem openConfig_through :
    Through Edit Daemon.Base (openConfig env configName) fun m d => d.Serves configName m := by
  apply Through.bind findConfig_through
  intro m
  apply Through.bind checkPermission_through
  intro _
  apply Through.bind getSnapper_through
  intro _
  exact Through.pure fun _ h => h

theorem findSnapshot_through :
    Through R P (findSnapshot id num) fun found d => P d ∧ d.snapshot id num = found :=
  Through.read fun _ h => ⟨h, rfl⟩

/-- The snapshot that is found is in the list. -/
theorem getSnapshot_through :
    Through R P (getSnapshot id num) fun s d => P d ∧ d.snapshot id num = some s := by
  apply Through.bind findSnapshot_through
  intro found
  cases found with
  | none => exact Through.throw
  | some s => exact Through.pure fun _ h => h

/-- A setter changes no number and no count. -/
theorem setField_through {f : Snapshot → Snapshot} (hP : ∀ d d', Edit d d' → P d → P d')
    (hnum : ∀ s, (f s).num = s.num) (hcount : ∀ s, (f s).mountUseCount = s.mountUseCount) :
    Through Edit P (setField id num f) fun _ => P := by
  apply Through.ite
  · intro _
    exact Through.throw
  · intro _
    apply Through.modify
    intro d h
    have hedit : Edit d (d.modSnapshot id num f) := Edit.edit id num hnum hcount
    exact ⟨hedit, hP d _ hedit h⟩

/-- Userdata are checked before they are set. -/
theorem setUserdata_through {userdata : StrMap} (hP : ∀ d d', Edit d d' → P d → P d') :
    Through Edit P (setUserdata id num userdata) fun _ => P := by
  apply Through.ite
  · intro _
    exact Through.throw
  · intro _
    exact setField_through hP (fun _ => rfl) (fun _ => rfl)

/-- A snapshot that is found is one of the list and has the number. -/
theorem mem_of_snapshot {s : Snapshot} (h : d.snapshot id num = some s) :
    ∃ m, d.metaSnapper id = some m ∧ s ∈ m.snapshots ∧ s.num = num := by
  have hmem : s ∈ d.snapshots id := mem_of_lookup h
  cases hm : d.metaSnapper id with
  | none => simp [Daemon.snapshots, hm] at hmem
  | some m =>
    rw [snapshots_of_metaSnapper hm] at hmem
    exact ⟨m, rfl, hmem, key_of_lookup h⟩

/-- Writing an info changes the disk and then the mark of the snapshot. -/
theorem flushInfo_through {again : Bool} (hP : ∀ d d', Edit d d' → P d → P d') :
    Through Edit P (flushInfo env id num again) fun _ => P := by
  apply Through.bind findSnapshot_through
  intro found
  -- along the text of the function: nothing to do, an exception, or the write
  cases found with
  | none => exact Through.pure fun _ h => h.1
  | some s =>
    apply Through.ite
    · intro _
      apply Through.bind (Q := fun _ d => (P d ∧ d.snapshot id num = some s) ∧ s.num ≠ 0)
      · apply Through.throwIf
        intro hcurrent d h
        exact ⟨h, by simpa [Snapshot.isCurrent] using hcurrent⟩
      · intro _
        apply Through.bind call_through
        intro _
        apply Through.bind (Q := fun _ => P)
        · apply Through.modify
          rintro d ⟨⟨h, hs⟩, hnum⟩
          obtain ⟨m, hm, hmem, -⟩ := mem_of_snapshot hs
          -- the info gets to the disk, as the snapshot is found in the list
          have hedit : Edit d (d.modDisk id (Disk.write s)) := Edit.write hm hmem hnum
          exact ⟨hedit, hP d _ hedit h⟩
        · intro _
          apply Through.modify
          intro d h
          have hedit : Edit d (d.modSnapshot id num Snapshot.flushed) :=
            Edit.edit id num (fun _ => rfl) (fun _ => rfl)
          exact ⟨hedit, hP d _ hedit h⟩
    · intro _
      exact Through.pure fun _ h => h.1

theorem checkMounted_num {mounted : Bool} (s : Snapshot) :
    (s.checkMounted mounted).num = s.num := by
  rw [Snapshot.checkMounted]
  split <;> rfl

/-- Whether the user has mounted the snapshot is marked, and its count stays. -/
theorem checkMounted_edit {mounted : Bool} :
    Edit d (d.modSnapshot id num (Snapshot.checkMounted mounted)) := by
  apply Edit.edit
  · exact checkMounted_num
  · intro s
    rw [Snapshot.checkMounted]
    split <;> rfl

/-- Seeing whether the snapshot is mounted. -/
theorem checkMounted_through {s : Snapshot}
    (hsee : ∀ d, R d (d.modSnapshot id s.num
      (Snapshot.checkMounted (env.isSnapshotMounted s.num))))
    (hP : ∀ d d', R d d' → P d → P d') :
    Through R P (checkMounted env id configName s) fun _ d => P d ∧ s.num ≠ 0 := by
  apply Through.ite
  · intro _
    exact Through.throw
  · intro hcurrent
    have hnum : s.num ≠ 0 := by simpa [Snapshot.isCurrent] using hcurrent
    -- the mark is set with the answer, of the file system or of before
    have hmark : Through R P (Act.modify (Daemon.modSnapshot id s.num
        (Snapshot.checkMounted (env.isSnapshotMounted s.num))) : Handler PUnit)
        fun _ d => P d ∧ s.num ≠ 0 :=
      Through.modify fun d h => ⟨hsee d, hP d _ (hsee d) h, hnum⟩
    apply Through.ite
    · intro _
      exact hmark
    · intro _
      apply Through.bind call_through
      intro _
      exact hmark

end Edits

end Snapper.Server
