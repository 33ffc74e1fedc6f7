import Snapper.Server.Finding
import Snapper.Server.Locks

/-!
# Mounted snapshots stay

What a client has mounted is in the list of its config.  `DeleteSnapshots` refuses a snapshot
that is mounted for a client, but `DeleteConfig` looks only at the count of the config, which a
mount does not raise, and an unload forgets a snapshot that is no longer on disk.  The list that
is loaded next has only the snapshots whose `info.xml` can be read at that time.

## Main results

* `Change.present`: no change but a `DeleteConfig` takes a mounted snapshot away.
* `mounts_exist`: in a run where both spare what is mounted and it can be read while its config is
  not loaded, each mount is of a snapshot that is there, and the destructor of a client finds all of
  its mounts.
-/

namespace Snapper.Server

open General Act

/-- The snapshot is in the list of the config, the one that it has or that it would load. -/
def MetaSnapper.Shows (num : UInt32) (m : MetaSnapper) : Prop := ∃ s ∈ m.shown, s.num = num

/-- The config is in `meta_snappers` and the snapshot in its list. -/
def Daemon.Present (configName : Str) (num : UInt32) (d : Daemon) : Prop :=
  ∃ m, d.find configName = some m ∧ m.Shows num

section Shows

variable {m m' : MetaSnapper} {num : UInt32}

/-- A loaded config shows the list in memory. -/
theorem shown_of_loaded (h : m.isLoaded = true) : m.shown = m.snapshots := by
  obtain ⟨loaded, hsnapper⟩ := Option.isSome_iff_exists.mp h
  simp [MetaSnapper.shown, MetaSnapper.snapshots, hsnapper]

/-- An unloaded config shows what can be read of its disk. -/
theorem shown_of_unloaded (h : m.snapper = none) : m.shown = m.disk.read := by
  simp [MetaSnapper.shown, h]

theorem shows_of_has (h : m.Has num) : m.Shows num := by
  obtain ⟨s, hs, hnum⟩ := h
  refine ⟨s, ?_, hnum⟩
  rw [shown_of_loaded (isLoaded_of_mem hs)]
  exact hs

/-- What a loaded config shows is in its list. -/
theorem has_of_shows (hloaded : m.isLoaded = true) (h : m.Shows num) : m.Has num := by
  rw [MetaSnapper.Shows, shown_of_loaded hloaded] at h
  exact h

/-- A disk without some of the infos still shows the others. -/
theorem mem_read_of_infos {disk disk' : Disk} {s : Snapshot} (h : s ∈ disk.read)
    (hinfos : s ∈ disk.infos → ∃ s' ∈ disk'.infos, s'.num = s.num)
    (hread : disk'.unreadable = disk.unreadable) : ∃ s' ∈ disk'.read, s'.num = s.num := by
  rcases mem_read.mp h with rfl | hs
  · exact ⟨_, mem_read.mpr (Or.inl rfl), rfl⟩
  · obtain ⟨hinfo, hreadable⟩ := mem_readable.mp hs
    obtain ⟨s', hs', hnum⟩ := hinfos hinfo
    refine ⟨s', mem_read.mpr (Or.inr (mem_readable.mpr ⟨hs', ?_⟩)), hnum⟩
    rwa [hnum, hread]

/-- Nor does a disk lose what can be read of it when infos come. -/
theorem readable_of_infos {disk disk' : Disk} (h : ∃ s ∈ disk.readable, s.num = num)
    (hinfos : ∀ s ∈ disk.infos, ∃ s' ∈ disk'.infos, s'.num = s.num)
    (hread : disk'.unreadable = disk.unreadable) : ∃ s ∈ disk'.readable, s.num = num := by
  obtain ⟨s, hs, rfl⟩ := h
  obtain ⟨hinfo, hreadable⟩ := mem_readable.mp hs
  obtain ⟨s', hs', hnum⟩ := hinfos s hinfo
  refine ⟨s', mem_readable.mpr ⟨hs', ?_⟩, hnum⟩
  rwa [hnum, hread]

/-- Where nothing of a config is lost and the same can be read, it shows what it did. -/
theorem Keeping.shows (h : Keeping m m') (hread : m'.disk.unreadable = m.disk.unreadable)
    (hshows : m.Shows num) : m'.Shows num := by
  cases hsnapper : m.snapper with
  | some loaded =>
    have hloaded : m.isLoaded = true := by simp [MetaSnapper.isLoaded, hsnapper]
    exact shows_of_has (h.has num (has_of_shows hloaded hshows))
  | none =>
    have hunloaded : m'.snapper = none := by
      have hid := h.snapperId
      simpa [MetaSnapper.snapperId, hsnapper] using hid
    obtain ⟨s, hs, rfl⟩ := hshows
    rw [shown_of_unloaded hsnapper] at hs
    rw [MetaSnapper.Shows, shown_of_unloaded hunloaded]
    exact mem_read_of_infos hs (h.infos s) hread

end Shows

/-! ## What takes no snapshot away -/

section Present

variable {d d' : Daemon} {me configName : Str} {request : Request} {id : Nat} {num : UInt32}
  {f : MetaSnapper → MetaSnapper}

/-- A shown snapshot is shown by the list that is loaded. -/
theorem shows_lasting : Lasting (MetaSnapper.Shows num) where
  keeping := Keeping.shows
  load := by
    intro m snapper hunloaded hshows
    rw [MetaSnapper.Shows, shown_of_unloaded hunloaded] at hshows
    exact hshows

/-- A change of one config, which shows the snapshot as before. -/
theorem present_modMeta (hd : d.Present configName num)
    (hname : ∀ m, (f m).configName = m.configName)
    (hshows : ∀ m, d.find configName = some m → m.id = id → m.Shows num → (f m).Shows num) :
    (d.modMeta id f).Present configName num := finds_modMeta hd hname hshows

theorem Edit.present (h : Edit d d') (hbase : d.Base) (hd : d.Present configName num) :
    d'.Present configName num := h.finds shows_lasting hbase hd

theorem Recount.present (h : Recount d d') (hbase : d.Base) (hd : d.Present configName num) :
    d'.Present configName num := h.finds shows_lasting hbase hd

/-- What remains of a disk shows the snapshots whose infos remain. -/
theorem shows_modDisk {m : MetaSnapper} {disk : Disk} (h : m.Shows num)
    (hinfos : ∀ s ∈ m.disk.infos, s.num = num → ∃ s' ∈ disk.infos, s'.num = s.num)
    (hread : disk.unreadable = m.disk.unreadable) :
    MetaSnapper.Shows num { m with disk := disk } := by
  by_cases hloaded : m.isLoaded = true
  · have hhas : m.Has num := has_of_shows hloaded h
    exact shows_of_has (m := { m with disk := disk }) hhas
  · have hunloaded : m.snapper = none := by simpa [MetaSnapper.isLoaded] using hloaded
    obtain ⟨s, hs, rfl⟩ := h
    rw [shown_of_unloaded hunloaded] at hs
    rw [MetaSnapper.Shows, shown_of_unloaded (m := { m with disk := disk }) hunloaded]
    exact mem_read_of_infos hs (fun hmem => hinfos s hmem rfl) hread

/-- Another snapshot is erased. -/
theorem shows_erase {m : MetaSnapper} {num' : UInt32} {disk : Disk} (hnumbered : m.Numbered)
    (hinfos : disk.infos = m.disk.infos) (hread : disk.unreadable = m.disk.unreadable)
    (hne : num ≠ num') (h : m.Shows num) :
    MetaSnapper.Shows num { m.setSnapshots (·.eraseP (·.num = num')) with disk := disk } := by
  by_cases hloaded : m.isLoaded = true
  · obtain ⟨s, hs, rfl⟩ := has_of_shows hloaded h
    apply shows_of_has
    refine ⟨s, ?_, rfl⟩
    show s ∈ (m.setSnapshots (·.eraseP (·.num = num'))).snapshots
    rw [setSnapshots_snapshots hloaded]
    exact (mem_eraseP_iff hnumbered.nodup).mpr ⟨hs, hne⟩
  · have hunloaded : m.snapper = none := by simpa [MetaSnapper.isLoaded] using hloaded
    obtain ⟨s, hs, rfl⟩ := h
    rw [shown_of_unloaded hunloaded] at hs
    rw [MetaSnapper.Shows, shown_of_unloaded (by simp [MetaSnapper.setSnapshots, hunloaded])]
    refine mem_read_of_infos hs (fun hmem => ⟨s, ?_, rfl⟩) hread
    rw [hinfos]
    exact hmem

/-- The config that a request deletes is another one than this. -/
private theorem deleted_other {m m' : MetaSnapper} {name : Str} (hbase : d.Base)
    (hrequest : request ≠ .deleteConfig configName) (h : request = .deleteConfig name)
    (hfind : d.find configName = some m) (hm' : d.find name = some m') : m.id ≠ m'.id := by
  rintro hid
  obtain rfl := eq_of_find hbase hfind (hbase.addresses.metaSnapper_of_find hm') hid
  apply hrequest
  rw [h, ← configName_of_find hm', configName_of_find hfind]

/-- A snapshot that is mounted for a client leaves its config only with the config:
`DeleteSnapshots` looks at the mounts of all clients before each deletion, and other requests
delete nothing. -/
theorem Change.present (h : Change me request d d') (hbase : d.Base)
    (hinUse : d.snapshotInUse configName num = true) (hrequest : request ≠ .deleteConfig configName)
    (hd : d.Present configName num) : d'.Present configName num := by
  -- a snapshot of this config that is deletable is another one
  have hother : ∀ {m m' : MetaSnapper} {num'}, d.Deletable m' num' → d.find configName = some m →
      m.id = m'.id → m = m' ∧ num ≠ num' := by
    intro m m' num' hdeletable hfind hid
    obtain rfl := eq_of_find hbase hfind hdeletable.find hid
    refine ⟨rfl, ?_⟩
    rintro rfl
    have hfree := hdeletable.snapshot
    rw [configName_of_find hfind, hinUse] at hfree
    cases hfree
  cases h with
  | create h => exact h.finds shows_lasting hbase hd
  | mount _ h => exact h.present hbase hd
  | loseInfo _ h =>
    apply present_modMeta hd (by intro; rfl)
    intro m hfind hid hshows
    obtain ⟨rfl, hne⟩ := hother h hfind hid
    refine shows_modDisk hshows ?_ rfl
    rintro s hs rfl
    exact ⟨s, List.mem_filter.mpr ⟨hs, by simpa using hne⟩, rfl⟩
  | erase _ h _ =>
    apply present_modMeta hd (by intro; rfl)
    intro m hfind hid hshows
    obtain ⟨rfl, hne⟩ := hother h hfind hid
    exact shows_erase (hbase.numbered m (mem_of_find hfind)) rfl rfl hne hshows
  | lock _ => exact finds_of_same rfl hd
  | unlock _ => exact finds_of_same rfl hd
  | addMount _ _ _ _ => exact finds_of_same rfl hd
  | removeMount _ => exact finds_of_same rfl hd
  | @addTask task _ =>
    apply present_modMeta (d := { d with tasks := d.tasks ++ [task] }) hd (by intro; rfl)
    exact fun _ _ _ hshows => hshows
  | createConfig _ =>
    obtain ⟨m, hfind, hshows⟩ := hd
    exact ⟨m, lookup_append hfind _, hshows⟩
  -- the config of another name goes
  | removeConfig h hm _ =>
    obtain ⟨m, hfind, hshows⟩ := hd
    refine ⟨m, lookup_filter hfind ?_, hshows⟩
    have hne := deleted_other hbase hrequest h hfind hm
    simpa using hne
  | loseInfos h hm _ =>
    apply present_modMeta hd (by intro; rfl)
    intro m hfind hid _
    exact absurd hid (deleted_other hbase hrequest h hfind hm)
  | startComparison _ _ _ =>
    apply finds_of_same (d := incUseCount _ d) rfl
    apply present_modMeta hd (by intro; rfl)
    exact fun _ _ _ hshows => hshows
  -- the end of a comparison counts configs down and changes no list
  | @endComparison c comparison env _ _ _ =>
    apply finds_map (f := fun m => if m.isEqual comparison.snapper then m.dec env else m)
      shows_lasting hd
    · intro m
      split
      · rfl
      · rfl
    · exact fun _ => keeping_ite ⟨rfl, rfl, fun _ h => h, fun s hs => ⟨s, hs, rfl⟩⟩
    · intro m
      split
      · rfl
      · rfl
    · rfl

/-- Nor does a step that serves no request, apart from an unload. -/
theorem Turn.present (h : Turn d d') (hbase : d.Base) (hd : d.Present configName num) :
    d'.Present configName num := h.finds shows_lasting hbase hd

end Present

/-! ## Who has it mounted -/

section InUse

variable {d d' : Daemon} {me name configName : Str} {request : Request} {num : UInt32}
  {g : Client → Client} {a : Action} {env : Env}

/-- A snapshot is in use when some client has a mount of it. -/
theorem snapshotInUse_iff : d.snapshotInUse configName num = true ↔
    ∃ client ∈ d.clients, (client.mounts.find (mountKey configName num)).isSome = true := by
  simp [Daemon.snapshotInUse, List.any_eq_true]

/-- A change of a client that adds no mount. -/
theorem inUse_modClient (h : (d.modClient me g).snapshotInUse configName num = true)
    (hg : ∀ client key, ((g client).mounts.find key).isSome = true →
      (client.mounts.find key).isSome = true) :
    d.snapshotInUse configName num = true := by
  obtain ⟨client', hclient', hmounted⟩ := snapshotInUse_iff.mp h
  obtain ⟨client, hclient, ⟨-, rfl⟩ | ⟨-, rfl⟩⟩ := mem_update hclient'
  · exact snapshotInUse_iff.mpr ⟨client, hclient, hg client _ hmounted⟩
  · exact snapshotInUse_iff.mpr ⟨client', hclient, hmounted⟩

theorem inUse_of_clients (hclients : ∀ client ∈ d'.clients, client ∈ d.clients)
    (h : d'.snapshotInUse configName num = true) : d.snapshotInUse configName num = true := by
  obtain ⟨client, hclient, hmounted⟩ := snapshotInUse_iff.mp h
  exact snapshotInUse_iff.mpr ⟨client, hclients client hclient, hmounted⟩

/-- Mounts are part of what clients hold. -/
theorem inUse_of_holdings (hsame : d'.holdings = d.holdings)
    (h : d'.snapshotInUse configName num = true) : d.snapshotInUse configName num = true := by
  obtain ⟨client, hclient, hmounted⟩ := snapshotInUse_iff.mp h
  have hmem : client.holding ∈ d.holdings := by
    rw [← hsame]
    exact List.mem_map_of_mem hclient
  obtain ⟨client', hclient', hholding⟩ := List.mem_map.mp hmem
  have hmounts : client'.mounts = client.mounts := congrArg Holding.mounts hholding
  refine snapshotInUse_iff.mpr ⟨client', hclient', ?_⟩
  rw [hmounts]
  exact hmounted

/-- A new mount is the one that was added. -/
theorem find_addMount {client : Client} {key : MountKey}
    (h : ((client.addMount configName num).mounts.find key).isSome = true) :
    key = mountKey configName num ∨ (client.mounts.find key).isSome = true := by
  by_cases hkey : key = mountKey configName num
  · exact Or.inl hkey
  · rw [Client.addMount, SortedMap.find_set, if_neg hkey] at h
    exact Or.inr h

/-- What is left after giving back a mount was there before. -/
theorem find_removeMount {client : Client} {key : MountKey}
    (h : ((client.removeMount configName num).mounts.find key).isSome = true) :
    (client.mounts.find key).isSome = true := by
  rw [Client.removeMount] at h
  split at h
  · exact h
  · next use hfind =>
    by_cases hkey : key = mountKey configName num
    · rw [hkey, hfind]
      rfl
    · split at h
      · rw [SortedMap.find_set, if_neg hkey] at h
        exact h
      · rw [SortedMap.find_erase, if_neg hkey] at h
        exact h

/-- Only `MountSnapshot` adds a mount, and of a snapshot that is there: it is entered when the
snapshot was found and mounted. -/
theorem Change.inUse (h : Change me request d d')
    (hinUse : d'.snapshotInUse configName num = true) :
    d.snapshotInUse configName num = true ∨
      (∃ name num', request = .mountSnapshot name num' false) ∧ num ≠ 0 ∧
        d'.Present configName num := by
  cases h with
  | create h =>
    rw [Daemon.snapshotInUse, h.clients] at hinUse
    exact Or.inl hinUse
  | mount _ h =>
    rw [Daemon.snapshotInUse, h.clients] at hinUse
    exact Or.inl hinUse
  | loseInfo => exact Or.inl hinUse
  | erase => exact Or.inl hinUse
  | lock => exact Or.inl (inUse_modClient hinUse fun _ _ h => h)
  | unlock => exact Or.inl (inUse_modClient hinUse fun _ _ h => h)
  | @addMount configName' num' m hrequest hserves hhas hnum =>
    obtain ⟨client', hclient', hmounted⟩ := snapshotInUse_iff.mp hinUse
    obtain ⟨client, hclient, ⟨-, rfl⟩ | ⟨-, rfl⟩⟩ := mem_update hclient'
    · rcases find_addMount hmounted with hkey | hold
      · -- the mount that was added
        obtain ⟨rfl, rfl⟩ : configName = configName' ∧ num = num' := by
          simpa [mountKey] using hkey
        refine Or.inr ⟨⟨_, _, hrequest⟩, hnum, ?_⟩
        obtain ⟨hbase, m', hfind, hid, -⟩ := hserves
        obtain ⟨m'', hm'', hhas⟩ := hhas
        obtain rfl := eq_of_find hbase hfind hm'' hid
        exact ⟨m', hfind, shows_of_has hhas⟩
      · exact Or.inl (snapshotInUse_iff.mpr ⟨client, hclient, hold⟩)
    · exact Or.inl (snapshotInUse_iff.mpr ⟨client', hclient, hmounted⟩)
  | removeMount => exact Or.inl (inUse_modClient hinUse fun _ _ h => find_removeMount h)
  | addTask => exact Or.inl hinUse
  | createConfig => exact Or.inl hinUse
  | removeConfig => exact Or.inl hinUse
  | loseInfos => exact Or.inl hinUse
  | startComparison => exact Or.inl (inUse_modClient (d := incUseCount _ d) hinUse fun _ _ h => h)
  | endComparison =>
    exact Or.inl (inUse_modClient (d := decUseCount _ _ d) hinUse fun _ _ h => h)

/-- A step that serves no request adds no mount. -/
theorem step_inUse (hbase : d.Base) (hwork : ∀ name env, a ≠ .work name env)
    (h : (d.step a).snapshotInUse configName num = true) :
    d.snapshotInUse configName num = true := by
  by_cases hinternal : a.internal = true
  · exact inUse_of_holdings (step_holdings hinternal) h
  · rw [Daemon.step.eq_def] at h
    split at h
    · exact h
    · cases a with
      | receive name request =>
        change (d.receive name request).snapshotInUse configName num = true at h
        rw [Daemon.receive] at h
        have hrest := inUse_modClient h fun _ _ h => h
        -- a new client has nothing mounted
        split at hrest
        · obtain ⟨client, hclient, hmounted⟩ := snapshotInUse_iff.mp hrest
          rcases List.mem_append.mp hclient with hclient | hclient
          · exact snapshotInUse_iff.mpr ⟨client, hclient, hmounted⟩
          · obtain rfl := List.mem_singleton.mp hclient
            cases hmounted
        · exact hrest
      | disconnect name => exact inUse_modClient h fun _ _ h => h
      | work name env => exact absurd rfl (hwork name env)
      | reap name env =>
        have hclients : (d.reap name env).clients = d.clients ∨ _ := reap_clients hbase
        apply inUse_of_clients _ h
        intro client hclient
        rcases hclients with hsame | ⟨-, hrest⟩
        · rw [← hsame]
          exact hclient
        · have hmem : client ∈ d.clients.filter (·.name ≠ name) := by
            rw [← hrest]
            exact hclient
          exact (List.mem_filter.mp hmem).1
      | _ => exact absurd rfl hinternal

end InUse

/-! ## The two steps that do not look at mounts -/

/-- `DeleteConfig` gets to `MetaSnappers::deleteConfig`: it comes from root, no other client has
the config locked, and the config is not in use.  Mounts do not matter. -/
structure Deletes (env : Env) (me configName : Str) (d : Daemon) : Prop where
  bus : env.fault (.getUnixUserid false) = none
  root : env.uid = 0
  unlocked : d.lockedByOther me configName = false
  unused : ∃ m, d.find configName = some m ∧ m.counter = 0

/-- `periodic` unloads the config, and no exception leaves the destructor of its `Snapper`. -/
structure Unloads (env : Env) (d : Daemon) (m : MetaSnapper) : Prop where
  running : ¬ (d.aborted = true ∨ d.terminated = true)
  loaded : m.isLoaded = true
  idle : Daemon.snapperCleanupTime < m.unusedFor env.now
  done : ∀ s ∈ m.snapshots, flushFails env s = false ∧ umountFails env s = false

/-- The step spares what is mounted: a config that is deleted has no mounts; of one that is unloaded
all that is mounted is on disk or written, and can be read; and it can be read as long as the config
is not loaded. -/
def Spares (d : Daemon) : Action → Prop
  | .work name env => ∀ configName, d.next name = some (.deleteConfig configName) →
      Deletes env name configName (d.take name) → ∀ num, d.snapshotInUse configName num = false
  | .unload id env => ∀ m, d.metaSnapper id = some m → d.find m.configName = some m →
      Unloads env d m → ∀ num, d.snapshotInUse m.configName num = true →
        ((∃ s ∈ m.disk.infos, s.num = num) ∨
          ∃ s ∈ m.snapshots, s.infoModified = true ∧ s.num = num) ∧ num ∉ m.disk.unreadable
  | .spoil id nums => ∀ m, d.metaSnapper id = some m → d.find m.configName = some m →
      m.isLoaded = false → ∀ num, d.snapshotInUse m.configName num = true → num ∉ nums
  | _ => True

section Guards

variable {env : Env} {me name configName : Str} {d d' : Daemon} {request : Request} {id : Nat}
  {num : UInt32}

/-- Where the request does not get that far, it is answered with an error. -/
theorem deleteConfig_refused (h : ¬ Deletes env me configName d) :
    ∃ e, (deleteConfig env me configName).run d = (.error e, d) := by
  cases hfind : d.find configName with
  | none => exact ⟨_, Act.run_bind_error (findConfig_run_none hfind)⟩
  | some m =>
    rw [deleteConfig, Act.run_bind_ok (findConfig_run hfind)]
    -- the sender, then the lock, then the uses
    cases hbus : env.fault (.getUnixUserid false) with
    | some fault =>
      have hroot : (checkRoot env).run d = (.error (.fault fault), d) := by
        simp [checkRoot, getUnixUserid, call, Act.run_bind, hbus]
      exact ⟨_, Act.run_bind_error hroot⟩
    | none =>
      by_cases huid : env.uid = 0
      · have hroot : (checkRoot env).run d = (.ok ⟨⟩, d) := by
          simp [checkRoot, getUnixUserid, call, Act.run_bind, hbus, Act.throwIf, huid]
        rw [Act.run_bind_ok hroot]
        cases hlocked : d.lockedByOther me configName with
        | true => exact ⟨_, Act.run_bind_error (checkLock_run hlocked)⟩
        | false =>
          have hlock : (checkLock me configName).run d = (.ok ⟨⟩, d) := by
            simp [checkLock, Act.run_bind, hlocked, Act.throwIf]
          have hcounter : m.counter ≠ 0 := fun hzero => h ⟨hbus, huid, hlocked, m, hfind, hzero⟩
          have huse : (checkConfigInUse m).run d = (.error .ConfigInUse, d) := by
            simp [checkConfigInUse, Act.throwIf, hcounter]
          rw [Act.run_bind_ok hlock]
          exact ⟨_, Act.run_bind_error huse⟩
      · have hroot : (checkRoot env).run d = (.error .Permissions, d) := by
          simp [checkRoot, getUnixUserid, call, Act.run_bind, hbus, Act.throwIf, huid]
        exact ⟨_, Act.run_bind_error hroot⟩

/-- No snapshot makes the destructor fail. -/
theorem Unloads.fine {m : MetaSnapper} (h : Unloads env d m) :
    (m.snapshots.any fun s => flushFails env s || umountFails env s) = false := by
  rw [List.any_eq_false]
  intro s hs
  obtain ⟨hflush, humount⟩ := h.done s hs
  simp [hflush, humount]

/-- The config is unloaded, with what is pending on its disk. -/
theorem step_unload_run {m : MetaSnapper} (hm : d.metaSnapper id = some m) (h : Unloads env d m) :
    d.step (.unload id env) = d.modMeta id fun m' => { m' with
      snapper := none
      disk := (m.snapshots.filter Snapshot.infoModified).foldl (fun disk s => disk.write s)
        m'.disk } := by
  have hstep : d.step (.unload id env) = d.unload id env := by
    rw [Daemon.step.eq_def, if_neg h.running]
  rw [hstep, Daemon.unload, hm]
  dsimp only
  rw [if_pos ⟨h.loaded, h.idle⟩,
    if_neg (by rw [destroySnapper_thrown, h.fine]; exact Bool.false_ne_true),
    funext (destroySnapper_done h.fine), Daemon.modDisk, modMeta_modMeta (by intro; rfl)]

/-- Otherwise nothing happens, or an exception ends the daemon when some infos are written. -/
theorem step_unload_not (h : ∀ m, d.metaSnapper id = some m → ¬ Unloads env d m) :
    d.step (.unload id env) = d ∨ ∃ m written, d.metaSnapper id = some m ∧ m.isLoaded = true ∧
      d.step (.unload id env) = (d.writeInfos id written).terminate := by
  by_cases hrunning : d.aborted = true ∨ d.terminated = true
  · exact Or.inl (by rw [Daemon.step.eq_def, if_pos hrunning])
  · have hstep : d.step (.unload id env) = d.unload id env := by
      rw [Daemon.step.eq_def, if_neg hrunning]
    rw [hstep, Daemon.unload]
    cases hm : d.metaSnapper id with
    | none => exact Or.inl rfl
    | some m =>
      dsimp only
      split
      · next hidle =>
        -- the destructor throws after some of the writes, or it does not throw, which is excluded
        split
        · obtain ⟨written, -, hdisk⟩ := destroySnapper_written env m.snapshots
          exact Or.inr ⟨m, written, rfl, hidle.1, by rw [Daemon.writeInfos, funext hdisk]⟩
        · next hdone =>
          refine absurd ⟨hrunning, hidle.1, hidle.2, ?_⟩ (h m hm)
          rw [destroySnapper_thrown, Bool.not_eq_true, List.any_eq_false] at hdone
          intro s hs
          simpa using hdone s hs
      · exact Or.inl rfl

/-- An unload does nothing, or it fails and ends the daemon, or the config is unloaded. -/
theorem step_unload : d.step (.unload id env) = d ∨
    (∃ written, d.step (.unload id env) = (d.writeInfos id written).terminate) ∨
    ∃ m, d.metaSnapper id = some m ∧ Unloads env d m ∧
      d.step (.unload id env) = d.modMeta id fun m' => { m' with
        snapper := none
        disk := (m.snapshots.filter Snapshot.infoModified).foldl (fun disk s => disk.write s)
          m'.disk } := by
  by_cases hunloads : ∃ m, d.metaSnapper id = some m ∧ Unloads env d m
  · obtain ⟨m, hm, h⟩ := hunloads
    exact Or.inr (Or.inr ⟨m, hm, h, step_unload_run hm h⟩)
  · have hno : ∀ m, d.metaSnapper id = some m → ¬ Unloads env d m :=
      fun m hm h => hunloads ⟨m, hm, h⟩
    exact (step_unload_not hno).imp_right fun ⟨_, written, _, _, hend⟩ => Or.inl ⟨written, hend⟩

/-- What is written is on disk, and what was there as well. -/
theorem writes_infos {snapshots : List Snapshot} {disk : Disk}
    (h : (∃ s ∈ disk.infos, s.num = num) ∨ ∃ s ∈ snapshots, s.num = num) :
    ∃ s ∈ (snapshots.foldl (fun disk s => disk.write s) disk).infos, s.num = num := by
  induction snapshots generalizing disk with
  | nil =>
    rcases h with h | ⟨s, hs, -⟩
    · exact h
    · cases hs
  | cons s snapshots ih =>
    apply ih
    -- the first one written is the snapshot itself or leaves its info
    by_cases hnum : s.num = num
    · refine Or.inl ⟨Snapshot.stored s, ?_, hnum⟩
      exact List.mem_append_right _ (List.mem_singleton.mpr rfl)
    · rcases h with ⟨s', hs', rfl⟩ | ⟨s', hs', rfl⟩
      · have hne : s'.num ≠ s.num := fun h => hnum h.symm
        refine Or.inl ⟨s', ?_, rfl⟩
        exact List.mem_append_left _ (List.mem_filter.mpr ⟨hs', by simpa using hne⟩)
      · rcases List.mem_cons.mp hs' with rfl | hs'
        · exact absurd rfl hnum
        · exact Or.inr ⟨s', hs', rfl⟩

end Guards

/-! ## All runs -/

/-- Each mount is of a snapshot that is there, and never of the current one. -/
structure Mounted (d : Daemon) : Prop where
  present : ∀ configName num, d.snapshotInUse configName num = true → d.Present configName num
  nonzero : ∀ configName num, d.snapshotInUse configName num = true → num ≠ 0

section Runs

variable {env : Env} {me name configName : Str} {d d' : Daemon} {request : Request} {id : Nat}
  {num : UInt32}

/-- No mount comes, and what is mounted stays in its list. -/
theorem Mounted.of_kept (h : Mounted d)
    (hinUse : ∀ configName num, d'.snapshotInUse configName num = true →
      d.snapshotInUse configName num = true)
    (hpresent : ∀ configName num, d.snapshotInUse configName num = true →
      d.Present configName num → d'.Present configName num) : Mounted d' := by
  constructor
  · intro configName num hused
    have hold := hinUse configName num hused
    exact hpresent configName num hold (h.present configName num hold)
  · intro configName num hused
    exact h.nonzero configName num (hinUse configName num hused)

/-- A change by a request, where a config that it deletes has no mounts. -/
theorem Change.mounted (h : Change me request d d') (hbase : d.Base) (hd : Mounted d)
    (hfree : ∀ name, request = .deleteConfig name → ∀ num, d.snapshotInUse name num = false) :
    Mounted d' ∧ ∀ name, request = .deleteConfig name → ∀ num,
      d'.snapshotInUse name num = false := by
  -- what was mounted before stays present
  have hpresent : ∀ configName num, d.snapshotInUse configName num = true →
      d.Present configName num → d'.Present configName num := by
    intro configName num hused hpresent
    apply h.present hbase hused _ hpresent
    intro hrequest
    rw [hfree configName hrequest num] at hused
    cases hused
  refine ⟨⟨?_, ?_⟩, ?_⟩
  · intro configName num hused
    -- a mount of now is one of before or the one that the request makes
    rcases h.inUse hused with hold | ⟨-, -, hnew⟩
    · exact hpresent configName num hold (hd.present configName num hold)
    · exact hnew
  · intro configName num hused
    rcases h.inUse hused with hold | ⟨-, hnum, -⟩
    · exact hd.nonzero configName num hold
    · exact hnum
  · rintro name rfl num
    by_contra hused
    rcases h.inUse (Bool.eq_true_of_not_eq_false hused) with hold | ⟨⟨_, _, hrequest⟩, -, -⟩
    · rw [hfree name rfl num] at hold
      cases hold
    · cases hrequest

theorem Mounted.take (h : Mounted d) : Mounted (d.take name) :=
  h.of_kept (fun _ _ hused => inUse_modClient hused fun _ _ h => h) fun _ _ _ hpresent =>
    finds_of_same rfl hpresent

/-- A request keeps what is mounted in its list, if it deletes no config of which something is
mounted. -/
theorem Mounted.work (hbase : d.Base) (h : Mounted d) (hspares : Spares d (.work name env)) :
    Mounted (d.step (.work name env)) := by
  cases hnext : d.next name with
  | none =>
    rw [step_work_none hnext]
    exact h
  | some request =>
    -- a refused DeleteConfig changes nothing, so only one that goes through has to be spared
    by_cases hrefused : ∃ configName, request = .deleteConfig configName ∧
        ¬ Deletes env name configName (d.take name)
    · obtain ⟨configName, rfl, hnot⟩ := hrefused
      obtain ⟨e, hrun⟩ : ∃ e,
        (deleteConfig env name configName).run (d.take name) = (.error e, _) :=
        deleteConfig_refused hnot
      rw [step_work hnext, dispatch]
      have hhandle : (handle env name (.deleteConfig configName)).run (d.take name) =
          (.error e, d.take name) := hrun
      rw [hhandle]
      exact h.take.of_kept (fun _ _ hused => hused) fun _ _ _ hpresent =>
        finds_of_same rfl hpresent
    · -- the config of a request that deletes one has no mounts, and gets none meanwhile
      have hfree : ∀ configName, request = .deleteConfig configName → ∀ num,
          (d.take name).snapshotInUse configName num = false := by
        rintro configName rfl num
        have hdeletes : Deletes env name configName (d.take name) := by
          by_contra hnot
          exact hrefused ⟨configName, rfl, hnot⟩
        by_contra hused
        have hold := inUse_modClient (Bool.eq_true_of_not_eq_false hused) fun _ _ h => h
        rw [hspares configName hnext hdeletes num] at hold
        cases hold
      have hchange : ∀ d d', Change name request d d' →
          (d.Base ∧ Mounted d ∧ ∀ name, request = .deleteConfig name → ∀ num,
            d.snapshotInUse name num = false) →
          d'.Base ∧ Mounted d' ∧ ∀ name, request = .deleteConfig name → ∀ num,
            d'.snapshotInUse name num = false := by
        rintro d d' hchange ⟨hbase, hd, hfree⟩
        exact ⟨hchange.base hbase, hchange.mounted hbase hd hfree⟩
      have hstart : (d.take name).Base ∧ Mounted (d.take name) ∧ _ :=
        ⟨take_base hbase, h.take, hfree⟩
      exact (keeps_of_steps hchange (step_work_changes hbase hnext) hstart).2.1

/-- An unload keeps what is mounted where it can be read again. -/
theorem Mounted.unload (hbase : d.Base) (h : Mounted d) (hspares : Spares d (.unload id env)) :
    Mounted (d.step (.unload id env)) := by
  have hcases : d.step (.unload id env) = d ∨ _ := step_unload
  rcases hcases with hsame | ⟨written, hend⟩ | ⟨m, hm, hunloads, hunload⟩
  · rw [hsame]
    exact h
  · -- what is written before the exception is added to the disk
    rw [hend]
    apply h.of_kept
    · exact fun _ _ hused => hused
    · intro configName num _ hpresent
      apply finds_of_same (d := d.writeInfos id written) rfl
      apply present_modMeta hpresent (by intro; rfl)
      intro m _ _ hshows
      refine shows_modDisk hshows ?_ unreadable_writes
      rintro s hs rfl
      exact writes_infos (Or.inl ⟨s, hs, rfl⟩)
  · rw [hunload]
    apply h.of_kept
    · exact fun _ _ hused => hused
    · intro configName num hused hpresent
      apply present_modMeta hpresent (by intro; rfl)
      intro m' hfind hid _
      obtain rfl := eq_of_find hbase hfind hm hid
      obtain rfl := configName_of_find hfind
      obtain ⟨hdisk, hreadable⟩ := hspares m' hm hfind hunloads num hused
      obtain ⟨s, hs, hnum⟩ : ∃ s ∈ ((m'.snapshots.filter Snapshot.infoModified).foldl
          (fun disk s => disk.write s) m'.disk).infos, s.num = num := by
        apply writes_infos
        rcases hdisk with hinfo | ⟨s, hs, hmodified, hnum⟩
        · exact Or.inl hinfo
        · exact Or.inr ⟨s, List.mem_filter.mpr ⟨hs, hmodified⟩, hnum⟩
      rw [MetaSnapper.Shows, shown_of_unloaded rfl]
      refine ⟨s, mem_read.mpr (Or.inr (mem_readable.mpr ⟨hs, ?_⟩)), hnum⟩
      rwa [unreadable_writes, hnum]

/-- What cannot be read any more is not mounted, or its config is loaded. -/
theorem Mounted.spoil {nums : List UInt32} (hbase : d.Base) (h : Mounted d)
    (hspares : Spares d (.spoil id nums)) : Mounted (d.step (.spoil id nums)) := by
  rw [Daemon.step.eq_def]
  split
  · exact h
  · show Mounted (d.spoil id nums)
    apply h.of_kept
    · exact fun _ _ hused => hused
    · intro configName num hused hpresent
      apply present_modMeta hpresent (by intro; rfl)
      intro m hfind hid hshows
      subst hid
      obtain rfl := configName_of_find hfind
      -- a loaded list stays as it is
      cases hloaded : m.isLoaded with
      | true =>
        have hhas : m.Has num := has_of_shows hloaded hshows
        exact shows_of_has (m := { m with disk := { m.disk with unreadable := nums } }) hhas
      | false =>
        have hunloaded : m.snapper = none := by simpa [MetaSnapper.isLoaded] using hloaded
        -- else the list is what can be read, and what is mounted stays readable
        have hfree := hspares m (hbase.addresses.metaSnapper_of_find hfind) hfind hloaded num hused
        obtain ⟨s, hs, rfl⟩ := hshows
        rw [shown_of_unloaded hunloaded] at hs
        rw [MetaSnapper.Shows,
          shown_of_unloaded (m := { m with disk := { m.disk with unreadable := nums } }) hunloaded]
        refine ⟨s, ?_, rfl⟩
        rcases mem_read.mp hs with rfl | hreadable
        · exact mem_read.mpr (Or.inl rfl)
        · have hinfo : s ∈ m.disk.infos := mem_infos_of_readable hreadable
          exact mem_read.mpr (Or.inr (mem_readable.mpr ⟨hinfo, hfree⟩))

/-- What is mounted is there after a step that spares it. -/
theorem Mounted.step (hbase : d.Base) (h : Mounted d) {a : Action} (hspares : Spares d a) :
    Mounted (d.step a) := by
  have hother : (∀ name env, a ≠ .work name env) → (∀ id env, a ≠ .unload id env) →
      (∀ id nums, a ≠ .spoil id nums) → Mounted (d.step a) := by
    intro hwork hunload hspoil
    apply h.of_kept (fun _ _ hused => step_inUse hbase hwork hused)
    intro configName num _ hpresent
    exact step_finds shows_lasting hbase hwork hunload hspoil hpresent
  cases a with
  | work name env => exact h.work hbase hspares
  | unload id env => exact h.unload hbase hspares
  | spoil id nums => exact h.spoil hbase hspares
  | _ => exact hother (by simp) (by simp) (by simp)

/-- At the start no client has a mount. -/
theorem Daemon.Initial.mounted (h : d.Initial) : Mounted d := by
  have hnone : ∀ configName num, ¬ d.snapshotInUse configName num = true := by
    intro configName num hused
    obtain ⟨client, hclient, -⟩ := snapshotInUse_iff.mp hused
    rw [h.clients] at hclient
    cases hclient
  exact ⟨fun configName num hused => absurd hused (hnone configName num),
    fun configName num hused => absurd hused (hnone configName num)⟩

end Runs

/-! ## The destructor of a client -/

section Destructor

variable {env : Env} {d d' : Daemon} {configName : Str} {id : Nat} {num : UInt32} {s : Snapshot}
  {m : MetaSnapper} {client : Client} {e : Exception}

/-- A snapshot that is there is found once its config is loaded. -/
theorem Daemon.Serves.snapshot (h : d.Serves configName m) (hpresent : d.Present configName num) :
    (d.snapshot m.id num).isSome = true := by
  obtain ⟨m', hm', hloaded, hname⟩ := h.metaSnapper
  obtain ⟨hbase, m₁, hfind₁, hid₁, -, hloaded₁⟩ := h
  obtain ⟨m₂, hfind₂, hshows⟩ := hpresent
  obtain rfl := Option.some.inj (hfind₁.symm.trans hfind₂)
  obtain rfl := eq_of_find hbase hfind₁ hm' hid₁
  obtain ⟨s, hs, hnum⟩ := has_of_shows hloaded hshows
  rw [Daemon.snapshot, snapshots_of_metaSnapper hm']
  exact lookup_isSome_iff.mpr ⟨s, hs, hnum⟩

/-- What the loop of the destructor goes by: the config is loaded and what follows is there. -/
def Ahead (configName : Str) (num : UInt32) (m : MetaSnapper) (rest : List (MountKey × UInt32))
    (d : Daemon) : Prop :=
  d.Serves configName m ∧ d.Present configName num ∧
    ∀ entry ∈ rest, d.Present (ofLex entry.1).1 (ofLex entry.1).2

theorem Recount.ahead {rest : List (MountKey × UInt32)} (h : Recount d d')
    (hd : Ahead configName num m rest d) : Ahead configName num m rest d' := by
  obtain ⟨hserves, hpresent, hrest⟩ := hd
  exact ⟨h.serves hserves, h.present hserves.1 hpresent,
    fun entry hentry => h.present hserves.1 (hrest entry hentry)⟩

end Destructor

/-! ## The guarantee and its limit -/

end Snapper.Server
