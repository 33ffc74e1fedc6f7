import Snapper.Server.Edits

/-!
# What a request can change

Each request goes through a sequence of changes, also when it ends with an exception.  A
change says what the handler has checked before it.

## Main results

* `Change.base`: a change keeps addresses and numbers well-formed.
* `handle_through`: each handler makes changes of its request only.
-/

namespace Snapper.Server

open General

/-- The request mounts or unmounts and is counted. -/
def Request.counted : Request → Bool
  | .mountSnapshot _ _ userRequest => !userRequest
  | .umountSnapshot _ _ userRequest => !userRequest
  | _ => false

/-- The request deletes snapshots. -/
def Request.erases : Request → Bool
  | .deleteSnapshots .. => true
  | _ => false

/-- The request gives a comparison back. -/
def Request.releases : Request → Bool
  | .deleteComparison .. => true
  | _ => false

theorem releases_of_erases {request : Request} (h : request.erases = true) :
    request.releases = false := by
  cases request <;> first | rfl | cases h

/-- The worker of the client is between two tasks. -/
def Daemon.Idle (name : Str) (d : Daemon) : Prop :=
  ∃ c, d.client name = some c ∧ c.worker = .waiting

/-- The config is not in use, nor is the snapshot. -/
structure Daemon.Deletable (m : MetaSnapper) (num : UInt32) (d : Daemon) : Prop where
  find : d.metaSnapper m.id = some m
  config : m.counter = 0
  snapshot : d.snapshotInUse m.configName num = false

/-- The two snapshots are in the list of a loaded config. -/
def Task.Sound (d : Daemon) (task : Task) : Prop :=
  d.Has task.metaSnapper task.snapshot1 ∧ d.Has task.metaSnapper task.snapshot2

/-- The comparison is of a loaded config and of iterators to snapshots in its list. -/
def Making.Sound (d : Daemon) (making : Making) : Prop :=
  (∃ m, d.metaSnapper making.metaSnapper = some m ∧ m.snapperId = some making.snapper) ∧
    (∀ num, making.snapshot1 = some num → d.Has making.metaSnapper num) ∧
    ∀ num, making.snapshot2 = some num → d.Has making.metaSnapper num

/-- A change while a snapshot is created. -/
inductive Create : Daemon → Daemon → Prop
  | edit {d d'} (h : Edit d d') : Create d d'
  | makeDir {d id m num} (hm : d.metaSnapper id = some m) (hnum : num ∉ m.disk.dirs) :
      Create d (d.modDisk id fun disk => { disk with dirs := disk.dirs ++ [num] })
  | removeDir {d id m num stays} (hm : d.metaSnapper id = some m) (hlist : ¬ m.Has num)
      (hinfos : ∀ s ∈ m.disk.infos, s.num ≠ num) :
      Create d (d.modDisk id (Disk.removeDir num stays))
  | insert {d id m s} (hm : d.metaSnapper id = some m) (hlist : ¬ m.Has s.num)
      (hdir : s.num ∈ m.disk.dirs) (hnum : s.num ≠ 0) (hcount : s.mountUseCount = 0) :
      Create d (d.insert id s)

/-- A change while snapshots are mounted or unmounted. -/
inductive Recount : Daemon → Daemon → Prop
  | edit {d d'} (h : Edit d d') : Recount d d'
  | recount {d} (id : Nat) (num : UInt32) {f : Snapshot → Snapshot}
      (hnum : ∀ s, (f s).num = s.num) : Recount d (d.modSnapshot id num f)

/-- A change by a request of a client. -/
inductive Change (me : Str) (request : Request) : Daemon → Daemon → Prop
  | create {d d'} (h : Create d d') : Change me request d d'
  | mount {d d'} (hrequest : request.counted = true) (h : Recount d d') : Change me request d d'
  | loseInfo {d m num} (hrequest : request.erases = true) (h : d.Deletable m num) :
      Change me request d (d.loseInfo m.id num)
  | erase {d m num stays} (hrequest : request.erases = true) (h : d.Deletable m num)
      (hinfos : ∀ s ∈ m.disk.infos, s.num ≠ num) : Change me request d (d.erase m.id num stays)
  | lock {d configName} (h : request = .lockConfig configName) :
      Change me request d
        (d.modClient me fun c => { c with locks := Insert.insert configName c.locks })
  | unlock {d configName} (h : request = .unlockConfig configName) :
      Change me request d (d.modClient me fun c => { c with locks := c.locks.erase configName })
  | addMount {d configName num m} (h : request = .mountSnapshot configName num false)
      (hserves : d.Serves configName m) (hhas : d.Has m.id num) (hnum : num ≠ 0) :
      Change me request d (d.modClient me (Client.addMount configName num))
  | removeMount {d configName num} (h : request = .umountSnapshot configName num false) :
      Change me request d (d.modClient me (Client.removeMount configName num))
  | addTask {d task} (h : task.Sound d) :
      Change me request d (incUseCount task.metaSnapper { d with tasks := d.tasks ++ [task] })
  | createConfig {d env configName} (hnew : d.find configName = none) :
      Change me request d { d with
        metaSnappers := d.metaSnappers ++ [d.createdConfig env configName]
        nextId := d.nextId + 1 }
  | removeConfig {d m configName terminated} (h : request = .deleteConfig configName)
      (hm : d.find configName = some m) (hcounter : m.counter = 0) :
      Change me request d { d with
        metaSnappers := d.metaSnappers.filter (·.id ≠ m.id)
        terminated := terminated }
  | loseInfos {d m configName} {undeleted : List UInt32} (h : request = .deleteConfig configName)
      (hm : d.find configName = some m) (hcounter : m.counter = 0) :
      Change me request d
        (d.modDisk m.id fun disk => { disk with infos := disk.infos.filter (·.num ∈ undeleted) })
  | startComparison {d making} (hidle : d.Idle me) (h : making.Sound d)
      (hmounted : making.mounted = false) :
      Change me request d ((incUseCount making.metaSnapper d).modClient me fun c =>
        { c with worker := .comparing making })
  | endComparison {d c comparison} (env : Env) (hrequest : request.releases = true)
    (hc : d.client me = some c)
      (hcomparison : comparison ∈ c.comparisons) :
      Change me request d
        ((decUseCount env comparison.snapper d).modClient me (Client.eraseComparison comparison))

section Change

variable {me : Str} {request : Request} {d d' : Daemon}

theorem Daemon.Base.incUseCount {id : Nat} (h : d.Base) : (incUseCount id d).Base := by
  apply h.modMeta (by intro; rfl)
  · intro m
    exact Or.inl rfl
  · intro m _ hm
    exact numbered_of_nums hm rfl rfl

theorem Daemon.Base.decUseCount {env : Env} {snapper : Nat} (h : d.Base) :
    (decUseCount env snapper d).Base := by
  have hcounts : ∀ m : MetaSnapper,
      (if m.isEqual snapper then m.dec env else m).id = m.id ∧
      (if m.isEqual snapper then m.dec env else m).snapper = m.snapper ∧
      (if m.isEqual snapper then m.dec env else m).disk = m.disk := by
    intro m
    split
    · exact ⟨rfl, rfl, rfl⟩
    · exact ⟨rfl, rfl, rfl⟩
  exact h.count hcounts rfl rfl rfl

/-- A config without a `Snapper` is added under a new address. -/
theorem Daemon.Base.createConfig {env : Env} {configName : Str} (h : d.Base) :
    ({ d with metaSnappers := d.metaSnappers ++ [d.createdConfig env configName]
              nextId := d.nextId + 1 } : Daemon).Base := by
  have hmem : ∀ m ∈ d.metaSnappers ++ [d.createdConfig env configName],
      m ∈ d.metaSnappers ∨ m = d.createdConfig env configName := by
    intro m hm
    rcases List.mem_append.mp hm with hm | hm
    · exact Or.inl hm
    · exact Or.inr (List.mem_singleton.mp hm)
  constructor
  · constructor
    · show ((d.metaSnappers ++ [d.createdConfig env configName]).map MetaSnapper.id).Nodup
      rw [List.map_append, List.nodup_append]
      -- the new id is `nextId`, which no old config has reached
      refine ⟨h.addresses.ids, by simp, ?_⟩
      rintro id hold _ hnew rfl
      obtain ⟨m, hm, rfl⟩ := List.mem_map.mp hold
      have hid : m.id = d.nextId := by simpa [Daemon.createdConfig] using hnew
      have hlt := h.addresses.nextId m hm
      omega
    · intro m hm
      rcases hmem m hm with hm | rfl
      · exact Nat.lt_succ_of_lt (h.addresses.nextId m hm)
      · exact Nat.lt_succ_self _
    · intro m hm loaded hsome
      rcases hmem m hm with hm | rfl
      · exact Nat.lt_succ_of_lt (h.addresses.snappers m hm loaded hsome)
      · cases hsome
    · intro m hm m' hm' loaded loaded' hsome hsome' heq
      rcases hmem m hm with hm | rfl
      · rcases hmem m' hm' with hm' | rfl
        · exact h.addresses.distinct m hm m' hm' loaded loaded' hsome hsome' heq
        · cases hsome'
      · cases hsome
    · exact h.addresses.names
  · intro m hm
    rcases hmem m hm with hm | rfl
    · exact h.numbered m hm
    · exact ⟨env.createdDisk_wf, List.nodup_nil, by intro s hs; cases hs⟩

theorem Daemon.Base.filter (h : d.Base) (p : MetaSnapper → Bool) (terminated : Bool) :
    ({ d with
        metaSnappers := d.metaSnappers.filter p
        terminated := terminated } : Daemon).Base := by
  have hmem : ∀ m ∈ d.metaSnappers.filter p, m ∈ d.metaSnappers := fun m hm =>
    (List.mem_filter.mp hm).1
  constructor
  · constructor
    · exact (List.filter_sublist.map _).nodup h.addresses.ids
    · exact fun m hm => h.addresses.nextId m (hmem m hm)
    · exact fun m hm => h.addresses.snappers m (hmem m hm)
    · exact fun m hm m' hm' => h.addresses.distinct m (hmem m hm) m' (hmem m' hm')
    · exact h.addresses.names
  · exact fun m hm => h.numbered m (hmem m hm)

/-- Infos that are lost. -/
theorem Daemon.Base.filter_infos {id : Nat} (h : d.Base) (p : Snapshot → Bool) :
    (d.modDisk id fun disk => { disk with infos := disk.infos.filter p }).Base := by
  apply h.modDisk
  · intro m _ hnumbered
    exact hnumbered.disk.filter_infos p
  · intro m _ s _ hdir _
    exact hdir

/-- A new snapshot at the end of the list. -/
theorem Daemon.Base.insert {id : Nat} {m : MetaSnapper} {s : Snapshot} (h : d.Base)
    (hm : d.metaSnapper id = some m) (hlist : ¬ m.Has s.num) (hdir : s.num ∈ m.disk.dirs)
    (hnum : s.num ≠ 0) : (d.insert id s).Base := by
  apply h.modMeta (by intro; rfl)
  · intro m
    exact Or.inl (setSnapshots_snapperId (f := (· ++ [s.flushed])))
  · intro m' hm' hnumbered
    obtain rfl := Option.some.inj (hm.symm.trans hm')
    refine ⟨hnumbered.disk.write hnum hdir, ?_, ?_⟩
    · show (((m.setSnapshots (· ++ [s.flushed])).snapshots).map Snapshot.num).Nodup
      cases hloaded : m.isLoaded with
      | false =>
        have hnone : m.snapper = none := by simpa [MetaSnapper.isLoaded] using hloaded
        simp [MetaSnapper.setSnapshots, MetaSnapper.snapshots, hnone]
      | true =>
        rw [setSnapshots_snapshots hloaded, List.map_append, List.nodup_append]
        -- the number was free in the list
        refine ⟨hnumbered.nodup, by simp, ?_⟩
        rintro num hold _ hnew rfl
        obtain ⟨s', hs', rfl⟩ := List.mem_map.mp hold
        exact hlist ⟨s', hs', by simpa [Snapshot.flushed] using hnew⟩
    · intro s' hs'
      have hloaded : m.isLoaded = true := by
        have hload : (m.setSnapshots (· ++ [s.flushed])).isLoaded = true := isLoaded_of_mem hs'
        rwa [setSnapshots_isLoaded] at hload
      have hs'' : s' ∈ m.snapshots ++ [s.flushed] := by
        rw [← setSnapshots_snapshots (f := (· ++ [s.flushed])) hloaded]
        exact hs'
      -- the new snapshot has the directory that was made for it
      rcases List.mem_append.mp hs'' with hold | hnew
      · exact hnumbered.dirs s' hold
      · obtain rfl := List.mem_singleton.mp hnew
        exact Or.inr hdir

/-- A snapshot that is no longer on disk leaves the list. -/
theorem Daemon.Base.erase {m : MetaSnapper} {num : UInt32} {stays : Bool} (h : d.Base)
    (hm : d.metaSnapper m.id = some m) (hinfos : ∀ s ∈ m.disk.infos, s.num ≠ num) :
    (d.erase m.id num stays).Base := by
  apply h.modMeta (by intro; rfl)
  · intro m
    exact Or.inl (setSnapshots_snapperId (f := (·.eraseP (·.num = num))))
  · intro m' hm' hnumbered
    obtain rfl := Option.some.inj (hm.symm.trans hm')
    -- the list is a part of the old one, without the number
    have hsub : ∀ s ∈ (m.setSnapshots (·.eraseP (·.num = num))).snapshots,
        s ∈ m.snapshots ∧ s.num ≠ num := by
      intro s hs
      have hloaded : m.isLoaded = true := by
        have hload : (m.setSnapshots (·.eraseP (·.num = num))).isLoaded = true :=
          isLoaded_of_mem hs
        rwa [setSnapshots_isLoaded] at hload
      rw [setSnapshots_snapshots hloaded] at hs
      exact (mem_eraseP_iff hnumbered.nodup).mp hs
    refine ⟨hnumbered.disk.removeDir hinfos, ?_, ?_⟩
    · show ((m.setSnapshots (·.eraseP (·.num = num))).snapshots.map Snapshot.num).Nodup
      cases hloaded : m.isLoaded with
      | false =>
        have hnone : m.snapper = none := by simpa [MetaSnapper.isLoaded] using hloaded
        simp [MetaSnapper.setSnapshots, MetaSnapper.snapshots, hnone]
      | true =>
        rw [setSnapshots_snapshots hloaded]
        exact (List.eraseP_sublist.map _).nodup hnumbered.nodup
    · intro s hs
      obtain ⟨hold, hne⟩ := hsub s hs
      rcases hnumbered.dirs s hold with hzero | hdir
      · exact Or.inl hzero
      · exact Or.inr (mem_removeDir hdir hne)

theorem Create.base (h : Create d d') (hd : d.Base) : d'.Base := by
  cases h with
  | edit h => exact h.base hd
  | @makeDir id m num hm hnum =>
    apply hd.modDisk
    · intro m' hm' hnumbered
      refine ⟨hnumbered.disk.nodup, hnumbered.disk.nonzero, ?_, hnumbered.disk.stored⟩
      intro s hs
      exact List.mem_append_left _ (hnumbered.disk.dirs s hs)
    · intro m' _ s _ hdir _
      exact List.mem_append_left _ hdir
  | @removeDir id m num stays hm hlist hinfos =>
    apply hd.modDisk
    · intro m' hm' hnumbered
      obtain rfl := Option.some.inj (hm.symm.trans hm')
      exact hnumbered.disk.removeDir hinfos
    · intro m' hm' s hs hdir _
      obtain rfl := Option.some.inj (hm.symm.trans hm')
      -- a directory is only taken away again while no snapshot has its number
      have hne : s.num ≠ num := fun hnum => hlist ⟨s, hs, hnum⟩
      exact mem_removeDir hdir hne
  | insert hm hlist hdir hnum hcount => exact hd.insert hm hlist hdir hnum

theorem Recount.base (h : Recount d d') (hd : d.Base) : d'.Base := by
  cases h with
  | edit h => exact h.base hd
  | recount id num hnum => exact hd.modSnapshot hnum

/-- Every change of a request keeps the ground of the daemon: addresses, numbers and disks. -/
theorem Change.base (h : Change me request d d') (hd : d.Base) : d'.Base := by
  cases h with
  | create h => exact h.base hd
  | mount hrequest h => exact h.base hd
  | loseInfo hrequest h => exact hd.filter_infos _
  | erase hrequest h hinfos => exact hd.erase h.find hinfos
  | lock h => exact hd.modClient (by intro; rfl)
  | unlock h => exact hd.modClient (by intro; rfl)
  | addMount h hserves hhas hnum => exact hd.modClient (by intro; rfl)
  | removeMount h =>
    apply hd.modClient
    intro c
    -- the name of the client stays, whether the mount goes, counts down or was not there
    rw [Client.removeMount]
    split
    · rfl
    · split
      · rfl
      · rfl
  | @addTask task h =>
    have htasks : ({ d with tasks := d.tasks ++ [task] } : Daemon).Base :=
      hd.of_same rfl le_rfl hd.addresses.names
    exact htasks.incUseCount
  | createConfig hnew => exact hd.createConfig
  | removeConfig h hm hcounter => exact hd.filter _ _
  | loseInfos h hm hcounter => exact hd.filter_infos _
  | startComparison hidle h hmounted => exact hd.incUseCount.modClient (by intro; rfl)
  | endComparison env hrequest hc hcomparison => exact hd.decUseCount.modClient (by intro; rfl)

/-- A change while a snapshot is created leaves the configs as they are served. -/
theorem Create.serves {configName : Str} {m : MetaSnapper} (h : Create d d')
    (hd : d.Serves configName m) : d'.Serves configName m := by
  have hbase : d'.Base := h.base hd.1
  obtain ⟨hbase', m', hfind, hid, hinfo, hloaded⟩ := hd
  cases h with
  | edit h => exact h.serves ⟨hbase', m', hfind, hid, hinfo, hloaded⟩
  | makeDir hm hnum =>
    -- in each case one config changes, and neither in name nor in address
    refine ⟨hbase, _, (find_modMeta (by intro; rfl)).trans (congrArg _ hfind), ?_⟩
    dsimp only
    split
    · exact ⟨hid, hinfo, hloaded⟩
    · exact ⟨hid, hinfo, hloaded⟩
  | removeDir hm hlist hinfos =>
    refine ⟨hbase, _, (find_modMeta (by intro; rfl)).trans (congrArg _ hfind), ?_⟩
    dsimp only
    split
    · exact ⟨hid, hinfo, hloaded⟩
    · exact ⟨hid, hinfo, hloaded⟩
  | @insert id m s hm hlist hdir hnum hcount =>
    refine ⟨hbase, _, (find_modMeta (by intro; rfl)).trans (congrArg _ hfind), ?_⟩
    dsimp only
    split
    · exact ⟨hid, hinfo, (setSnapshots_isLoaded (f := (· ++ [s.flushed]))).trans hloaded⟩
    · exact ⟨hid, hinfo, hloaded⟩

/-- A change while a snapshot is created removes none. -/
theorem Create.has {id : Nat} {num : UInt32} (h : Create d d') (hd : d.Has id num) :
    d'.Has id num := by
  obtain ⟨m, hm, s, hs, hnum⟩ := hd
  cases h with
  | edit h => exact h.has ⟨m, hm, s, hs, hnum⟩
  | makeDir hm' hnum' =>
    refine ⟨_, (metaSnapper_modMeta_ite (by intro; rfl)).trans (congrArg _ hm), ?_⟩
    dsimp only
    split
    · exact ⟨s, hs, hnum⟩
    · exact ⟨s, hs, hnum⟩
  | removeDir hm' hlist hinfos =>
    refine ⟨_, (metaSnapper_modMeta_ite (by intro; rfl)).trans (congrArg _ hm), ?_⟩
    dsimp only
    split
    · exact ⟨s, hs, hnum⟩
    · exact ⟨s, hs, hnum⟩
  | @insert id' m' s' hm' hlist hdir hnum' hcount =>
    refine ⟨_, (metaSnapper_modMeta_ite (by intro; rfl)).trans (congrArg _ hm), ?_⟩
    dsimp only
    split
    · refine ⟨s, ?_, hnum⟩
      -- the new snapshot goes to the end of the list
      have hlist' : (m.setSnapshots (· ++ [s'.flushed])).snapshots = m.snapshots ++ [s'.flushed] :=
        setSnapshots_snapshots (isLoaded_of_mem hs)
      show s ∈ (m.setSnapshots (· ++ [s'.flushed])).snapshots
      rw [hlist']
      exact List.mem_append_left _ hs
    · exact ⟨s, hs, hnum⟩

theorem Recount.serves {configName : Str} {m : MetaSnapper} (h : Recount d d')
    (hd : d.Serves configName m) : d'.Serves configName m := by
  cases h with
  | edit h => exact h.serves hd
  | recount id num hnum =>
    obtain ⟨hbase, m', hfind, hid, hinfo, hloaded⟩ := hd
    refine ⟨hbase.modSnapshot hnum, _, (find_modMeta (by intro; rfl)).trans (congrArg _ hfind), ?_⟩
    dsimp only
    split
    · exact ⟨hid, hinfo, setSnapshots_isLoaded.trans hloaded⟩
    · exact ⟨hid, hinfo, hloaded⟩

theorem Recount.has {id : Nat} {num : UInt32} (h : Recount d d') (hd : d.Has id num) :
    d'.Has id num := by
  cases h with
  | edit h => exact h.has hd
  | recount id' num' hnum' =>
    obtain ⟨m, hm, hhas⟩ := hd
    refine ⟨_, (metaSnapper_modMeta_ite (by intro; rfl)).trans (congrArg _ hm), ?_⟩
    dsimp only
    split
    · rw [has_iff, setSnapshots_update, map_update hnum', ← has_iff]
      exact hhas
    · exact hhas

end Change

/-! ## Creation -/

section Creation

variable {env : Env} {configName description : Str} {m : MetaSnapper} {num : UInt32}
  {R : Daemon → Daemon → Prop} {P : Daemon → Prop}

open Act

/-- The number has a directory and nothing else. -/
def Daemon.Fresh (id : Nat) (num : UInt32) (d : Daemon) : Prop :=
  ∃ m, d.metaSnapper id = some m ∧ num ∈ m.disk.dirs ∧ (∀ s ∈ m.disk.infos, s.num ≠ num) ∧
    (num ≠ 0 → ¬ m.Has num)

/-- What is served is found by its address. -/
theorem Daemon.Serves.metaSnapper {d : Daemon} (h : d.Serves configName m) :
    ∃ m', d.metaSnapper m.id = some m' ∧ m'.isLoaded = true ∧ m'.configName = configName := by
  obtain ⟨hbase, m', hfind, hid, -, hloaded⟩ := h
  have hm' := hbase.addresses.metaSnapper_of_find hfind
  rw [hid] at hm'
  exact ⟨m', hm', hloaded, configName_of_find hfind⟩

/-- `nextNumber` leaves a number that no snapshot of the list has. -/
theorem nextNumber_through :
    Through Create (Daemon.Serves configName m) (nextNumber env m.id)
      fun num d => d.Serves configName m ∧ d.Fresh m.id num := by
  apply Through.bind (Q := fun _ => Daemon.Serves configName m)
  · exact Through.read fun _ h => h
  · intro snapshots
    apply Through.bind (Q := fun found d => d.Serves configName m ∧ d.metaSnapper m.id = found)
    · exact Through.read fun _ h => ⟨h, rfl⟩
    · intro found
      dsimp only
      split
      · exact Through.throw
      · next num hnum =>
        apply Through.bind call_through
        intro _
        apply Through.bind (Q := fun _ d => d.Serves configName m ∧ d.Fresh m.id num)
        · apply Through.modify
          rintro d ⟨h, rfl⟩
          obtain ⟨m', hm', hloaded, -⟩ := h.metaSnapper
          -- the number chosen has no directory yet, so that no listed snapshot has it
          have hfree : num ∉ m'.disk.dirs := by
            have hnot := List.find?_some hnum
            simpa [hm'] using hnot
          have hcreate : Create d (d.modDisk m.id fun disk =>
              { disk with dirs := disk.dirs ++ [num] }) := Create.makeDir hm' hfree
          have hnumbered := h.1.of_metaSnapper hm'
          refine ⟨hcreate, hcreate.serves h, ?_⟩
          refine ⟨{ m' with disk := { m'.disk with dirs := m'.disk.dirs ++ [num] } }, ?_,
            ?_, ?_, ?_⟩
          · rw [Daemon.modDisk, metaSnapper_modMeta (by intro; rfl), hm']
            rfl
          · exact List.mem_append_right _ (List.mem_singleton.mpr rfl)
          · rintro s hs rfl
            exact hfree (hnumbered.disk.dirs s hs)
          · rintro hzero ⟨s, hs, rfl⟩
            exact hfree ((hnumbered.dirs s hs).resolve_left hzero)
        · intro _
          exact Through.pure fun _ h => h

theorem removeDir_through (hnum : num ≠ 0) :
    Through Create (fun d => d.Serves configName m ∧ d.Fresh m.id num) (removeDir env m.id num)
      fun _ _ => True := by
  apply Through.modify
  rintro d ⟨-, m', hm', -, hinfos, hlist⟩
  exact ⟨Create.removeDir hm' (hlist hnum) hinfos, trivial⟩

/-- `createHelper` puts the new snapshot into the list under its number, with nothing mounted. -/
theorem createHelper_through {s : Snapshot} (hs : s.num = num) (hcount : s.mountUseCount = 0) :
    Through Create (fun d => d.Serves configName m ∧ d.Fresh m.id num) (createHelper env m.id s)
      fun _ d => d.Serves configName m ∧ d.Has m.id num := by
  subst hs
  apply Through.bind (Q := fun _ d => (d.Serves configName m ∧ d.Fresh m.id s.num) ∧ s.num ≠ 0)
  · apply Through.throwIf
    intro hcurrent d h
    exact ⟨h, by simpa [Snapshot.isCurrent] using hcurrent⟩
  · intro _
    apply Through.of_fact (p := s.num ≠ 0)
    · exact fun _ h => h.2
    · intro hnum
      -- the two errors that are caught remove the directory again; any other leaves it behind
      have hremove : ∀ e : Exception, Through Create
          (fun d => (d.Serves configName m ∧ d.Fresh m.id s.num) ∧ s.num ≠ 0)
          (removeDir env m.id s.num >>= fun _ => throw e : Handler PUnit)
          fun _ d => d.Serves configName m ∧ d.Has m.id s.num := by
        intro e
        apply Through.bind (Q := fun _ _ => True)
        · exact (removeDir_through hnum).conseq (fun _ h => h.1) (fun _ _ _ => trivial)
        · intro _
          exact Through.throw
      split
      · exact hremove _
      · exact Through.throw
      · split
        · apply Through.bind call_through
          intro _
          exact hremove _
        · exact Through.throw
        · apply Through.modify
          rintro d ⟨⟨h, m', hm', hdir, hinfos, hlist⟩, -⟩
          -- the info is written: the snapshot enters the list with its use count still zero
          have hcreate : Create d (d.insert m.id s) :=
            Create.insert hm' (hlist hnum) hdir hnum hcount
          refine ⟨hcreate, hcreate.serves h, ?_⟩
          obtain ⟨m'', hm'', hloaded, -⟩ := h.metaSnapper
          obtain rfl := Option.some.inj (hm'.symm.trans hm'')
          refine ⟨_, (metaSnapper_modMeta (by intro; rfl)).trans (congrArg _ hm'), s.flushed,
            ?_, rfl⟩
          have hlist' : (m'.setSnapshots (· ++ [s.flushed])).snapshots =
              m'.snapshots ++ [s.flushed] := setSnapshots_snapshots hloaded
          show s.flushed ∈ (m'.setSnapshots (· ++ [s.flushed])).snapshots
          rw [hlist']
          exact List.mem_append_right _ (List.mem_singleton.mpr rfl)

/-- The three kinds of creation share this: a fresh number, then the entry in the list. -/
theorem createSnapshot_through {type : SnapshotType} {preNum : UInt32} :
    Through Create (Daemon.Serves configName m) (createSnapshot env m.id type preNum description)
      fun num d => d.Serves configName m ∧ d.Has m.id num := by
  apply Through.bind nextNumber_through
  intro num
  have hhelper : Through Create (fun d => d.Serves configName m ∧ d.Fresh m.id num)
      (createHelper env m.id { Snapshot.new type num env.time with
        preNum := preNum, description := description, infoModified := true })
      fun _ d => d.Serves configName m ∧ d.Has m.id num := createHelper_through rfl rfl
  apply Through.bind hhelper
  intro _
  exact Through.pure fun _ h => h

/-- The rest of the handlers that create. -/
theorem finishCreate_through {id : Nat} {cleanup : Str} {userdata : StrMap}
    (hP : ∀ d d', Edit d d' → P d → P d') :
    Through Edit P (finishCreate env id num cleanup userdata) fun _ => P := by
  apply Through.bind (Q := fun _ => P)
  · apply Through.bind call_through
    intro _
    exact Through.pure fun _ h => h
  · intro uid
    apply Through.bind (setField_through hP (by intro; rfl) (by intro; rfl))
    intro _
    apply Through.bind (setField_through hP (by intro; rfl) (by intro; rfl))
    intro _
    apply Through.bind (setUserdata_through hP)
    intro _
    exact flushInfo_through hP

end Creation

/-! ## Deletion -/

section Deletion

variable {env : Env} {me configName : Str} {request : Request} {m : MetaSnapper} {num : UInt32}
  {nums : List UInt32} {d d' : Daemon}

open Act

/-- The config is there and not in use. -/
def Daemon.Unused (m : MetaSnapper) (d : Daemon) : Prop :=
  ∃ m', d.metaSnapper m.id = some m' ∧ m'.id = m.id ∧ m'.configName = m.configName ∧ m'.counter = 0

/-- An edit does not take a config into use. -/
theorem Edit.unused (h : Edit d d') (hd : d.Unused m) : d'.Unused m := by
  obtain ⟨m', hm', hid, hname, hcounter⟩ := hd
  have hmodMeta : ∀ {id : Nat} {f : MetaSnapper → MetaSnapper},
      (∀ m, (f m).id = m.id ∧ (f m).configName = m.configName ∧ (f m).counter = m.counter) →
      ∃ m'', (d.modMeta id f).metaSnapper m.id = some m'' ∧ m''.id = m.id ∧
        m''.configName = m.configName ∧ m''.counter = 0 := by
    intro id f hf
    refine ⟨_, (metaSnapper_modMeta_ite fun m => (hf m).1).trans (congrArg _ hm'), ?_⟩
    dsimp only
    split
    · exact ⟨(hf m').1.trans hid, (hf m').2.1.trans hname, (hf m').2.2.trans hcounter⟩
    · exact ⟨hid, hname, hcounter⟩
  cases h with
  | send msg => exact ⟨m', hm', hid, hname, hcounter⟩
  | load hm hunloaded hfind => exact hmodMeta (by intro; exact ⟨rfl, rfl, rfl⟩)
  | use id now => exact hmodMeta (by intro; exact ⟨rfl, rfl, rfl⟩)
  | edit id num hnum hcount => exact hmodMeta (by intro; exact ⟨rfl, rfl, rfl⟩)
  | write hm hs hnum => exact hmodMeta (by intro; exact ⟨rfl, rfl, rfl⟩)

/-- The loop: each snapshot is checked and then goes in two changes. -/
theorem deleteAll_through (hrequest : request.erases = true) :
    Through (Change me request) (Daemon.Unused m) (deleteAll env m nums) fun _ _ => True := by
  induction nums with
  | nil => exact Through.pure fun _ _ => trivial
  | cons num nums ih =>
    apply Through.bind (Q := fun _ d => d.Unused m ∧ d.snapshotInUse m.configName num = false)
    · apply Through.bind (Q := fun inUse d =>
        d.Unused m ∧ d.snapshotInUse m.configName num = inUse)
      · exact Through.read fun _ h => ⟨h, rfl⟩
      · intro inUse
        apply Through.throwIf
        rintro rfl d h
        exact h
    · intro _
      apply Through.bind findSnapshot_through
      intro found
      apply Through.bind (Q := fun _ => Daemon.Unused m)
      · cases found with
        | none => exact Through.throw
        | some s =>
          apply Through.of_fact (p := s.num = num)
          · exact fun d h => key_of_lookup h.2
          rintro rfl
          apply Through.ite
          · intro _
            exact Through.throw
          · intro _
            apply Through.bind call_through
            intro _
            apply Through.bind (Q := fun _ d =>
              (d.Unused m ∧ d.snapshotInUse m.configName s.num = false) ∧
                ∀ m', d.metaSnapper m.id = some m' → ∀ s' ∈ m'.disk.infos, s'.num ≠ s.num)
            · apply Through.modify
              rintro d ⟨⟨⟨m', hm', hid, hname, hcounter⟩, huse⟩, -⟩
              -- the info goes first, and what follows only needs that it is gone
              have hdeletable : d.Deletable m' s.num := by
                rw [← hid] at hm'
                rw [← hname] at huse
                exact ⟨hm', hcounter, huse⟩
              have hlost : (d.loseInfo m.id s.num).metaSnapper m.id = some _ :=
                (metaSnapper_modMeta (by intro; rfl)).trans (congrArg _ hm')
              refine ⟨?_, ⟨⟨_, hlost, hid, hname, hcounter⟩, huse⟩, ?_⟩
              · rw [← hid]
                exact Change.loseInfo hrequest hdeletable
              · intro m'' hm'' s' hs'
                obtain rfl := Option.some.inj (hlost.symm.trans hm'')
                simpa using (List.mem_filter.mp hs').2
            · intro _
              apply Through.bind call_through
              intro _
              apply Through.modify
              rintro d ⟨⟨⟨m', hm', hid, hname, hcounter⟩, huse⟩, hinfos⟩
              -- then the directory and the list's entry
              have hdeletable : d.Deletable m' s.num := by
                rw [← hid] at hm'
                rw [← hname] at huse
                exact ⟨hm', hcounter, huse⟩
              have herased : (d.erase m.id s.num (env.stays s.num)).metaSnapper m.id = some _ :=
                (metaSnapper_modMeta (by intro; rfl)).trans (congrArg _ hm')
              refine ⟨?_, ⟨_, herased, hid, hname, hcounter⟩⟩
              have hgone := hinfos m' hm'
              rw [← hid]
              exact Change.erase hrequest hdeletable hgone
      · intro _
        exact ih

end Deletion

/-! ## Mounts -/

section Mounts

variable {env : Env} {configName : Str} {s : Snapshot} {userRequest : Bool} {id : Nat}
  {R : Daemon → Daemon → Prop} {P : Daemon → Prop}

open Act

/-- Mounting changes the snapshot in two ways only, which are the two hypotheses: what
`checkMounted` finds is kept, and the counter goes up. -/
theorem mountFilesystemSnapshot_through (hsee : ∀ d, R d (d.modSnapshot id s.num
      (Snapshot.checkMounted (env.isSnapshotMounted s.num))))
    (hcount : ∀ d, R d (d.modSnapshot id s.num (Snapshot.countMount userRequest)))
    (hP : ∀ d d', R d d' → P d → P d') :
    Through R P (mountFilesystemSnapshot env id configName s userRequest)
      fun _ d => P d ∧ s.num ≠ 0 := by
  apply Through.bind (checkMounted_through hsee hP)
  intro _
  apply Through.bind (Q := fun _ d => P d ∧ s.num ≠ 0)
  · apply Through.modify
    rintro d ⟨h, hnum⟩
    exact ⟨hcount d, hP d _ (hcount d) h, hnum⟩
  · intro _
    exact call_through

/-- Unmounting counts, and where it calls the file system as well it changes nothing more. -/
theorem umountFilesystemSnapshot_through (hsee : ∀ d, R d (d.modSnapshot id s.num
      (Snapshot.checkMounted (env.isSnapshotMounted s.num))))
    (hcount : ∀ d, R d (d.modSnapshot id s.num (Snapshot.countUmount userRequest)))
    (hP : ∀ d d', R d d' → P d → P d') :
    Through R P (umountFilesystemSnapshot env id configName s userRequest) fun _ => P := by
  apply Through.bind (checkMounted_through hsee hP)
  intro _
  apply Through.bind (Q := fun _ => P)
  · apply Through.modify
    rintro d ⟨h, -⟩
    exact ⟨hcount d, hP d _ (hcount d) h⟩
  · intro _
    apply Through.bind findSnapshot_through
    intro found
    cases found with
    | none => exact Through.pure fun _ h => h.1
    | some s =>
      apply Through.ite
      · intro _
        exact call_through.conseq (fun _ h => h) (fun _ _ h => h.1)
      · intro _
        exact Through.pure fun _ h => h.1

/-- A user's request is not counted. -/
theorem countMount_edit {d : Daemon} {num : UInt32} :
    Edit d (d.modSnapshot id num (Snapshot.countMount true)) :=
  Edit.edit id num (by intro; rfl) (by intro; rfl)

theorem countUmount_edit {d : Daemon} {num : UInt32} :
    Edit d (d.modSnapshot id num (Snapshot.countUmount true)) :=
  Edit.edit id num (by intro; rfl) (by intro; rfl)

theorem countMount_num (s : Snapshot) : (s.countMount userRequest).num = s.num := by
  rw [Snapshot.countMount]
  split
  · rfl
  · rfl

theorem countUmount_num (s : Snapshot) : (s.countUmount userRequest).num = s.num := by
  rw [Snapshot.countUmount]
  split
  · rfl
  · rfl

end Mounts

end Snapper.Server
