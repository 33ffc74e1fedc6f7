import Snapper.Server.Touches

/-!
# The current system in the list

The snapshot with the number 0 stands for the current system.  `Snapshots::initialize` puts it
at the beginning of the list, and no request gets it away, changes it or mounts it.

## Main results

* `current_first`: every list begins with the current snapshot as it was made.
* `unload_terminates_iff`: it never gets in the way when a config is unloaded.
-/

namespace Snapper.Server

open General Act

/-- The list begins with the current snapshot, and no other one has its number.  On disk nothing
has it. -/
structure MetaSnapper.Begins (m : MetaSnapper) : Prop where
  list : m.isLoaded = true → ∃ rest, m.snapshots = Snapshot.current :: rest ∧ ∀ s ∈ rest, s.num ≠ 0
  disk : ∀ s ∈ m.disk.infos, s.num ≠ 0

section Configs

variable {m m' : MetaSnapper} {f : List Snapshot → List Snapshot}

/-- A change of the list that leaves its beginning. -/
theorem begins_setSnapshots (h : m.Begins)
    (hf : ∀ rest, (∀ s ∈ rest, s.num ≠ 0) →
      ∃ rest', f (Snapshot.current :: rest) = Snapshot.current :: rest' ∧ ∀ s ∈ rest', s.num ≠ 0) :
    (m.setSnapshots f).Begins where
  list hloaded := by
    rw [setSnapshots_isLoaded] at hloaded
    obtain ⟨rest, hlist, hnums⟩ := h.list hloaded
    rw [setSnapshots_snapshots hloaded, hlist]
    exact hf rest hnums
  disk := h.disk

/-- A change of the disk that brings no info under the number 0. -/
theorem begins_disk {disk : Disk} (h : m.Begins) (hdisk : ∀ s ∈ disk.infos, s.num ≠ 0) :
    ({ m with disk := disk } : MetaSnapper).Begins := ⟨h.list, hdisk⟩

/-- Writing the info of another snapshot. -/
theorem begins_write {s : Snapshot} (h : m.Begins) (hnum : s.num ≠ 0) :
    ({ m with disk := m.disk.write s } : MetaSnapper).Begins := by
  apply begins_disk h
  intro s' hs'
  rcases List.mem_append.mp hs' with hold | hnew
  · exact h.disk s' (List.mem_filter.mp hold).1
  · rw [List.mem_singleton.mp hnew]
    exact hnum

/-- Whatever snapshots come and whatever is done to them, the list begins as before.  There is one
case for each kind of change. -/
theorem begins_lasts : Lasts (fun _ => True) (fun _ => True) MetaSnapper.Begins where
  same m m' _ hdisk hsnapper h := by
    refine ⟨?_, ?_⟩
    · rw [MetaSnapper.isLoaded, MetaSnapper.snapshots, hsnapper]
      exact h.list
    · rw [hdisk]
      exact h.disk
  unload m m' _ hdisk hsnapper h := by
    refine ⟨?_, ?_⟩
    · intro hloaded
      rw [MetaSnapper.isLoaded, hsnapper] at hloaded
      cases hloaded
    · rw [hdisk]
      exact h.disk
  -- what is read begins with the current snapshot
  load m id h := by
    refine ⟨fun _ => ⟨_, rfl, ?_⟩, h.disk⟩
    intro s hs
    exact h.disk s (mem_infos_of_readable ((List.mem_insertionSort _).mp hs))
  -- a change of another snapshot is one of the rest
  change m num f hnum hkeeps _ h := by
    apply begins_setSnapshots h
    intro rest hrest
    refine ⟨update Snapshot.num num f rest, ?_, ?_⟩
    · rw [update_cons, if_neg]
      exact fun hzero => hnum hzero.symm
    · intro s hs
      obtain ⟨s', hs', ⟨-, rfl⟩ | ⟨-, rfl⟩⟩ := mem_update hs
      · rw [hkeeps]
        exact hrest s' hs'
      · exact hrest s hs'
  write m m' s hs hnum h' h := begins_write h hnum
  dirs m dirs h := begins_disk h h.disk
  spoil m nums h := begins_disk h h.disk
  -- a new snapshot comes at the end
  insert m s _ hnum h := by
    apply begins_write (m := m.setSnapshots (· ++ [s.flushed])) _ hnum
    apply begins_setSnapshots h
    intro rest hrest
    refine ⟨rest ++ [s.flushed], rfl, ?_⟩
    intro s' hs'
    rcases List.mem_append.mp hs' with hold | hnew
    · exact hrest s' hold
    · rw [List.mem_singleton.mp hnew]
      exact hnum
  lose m p h := begins_disk h fun s hs => h.disk s (List.mem_filter.mp hs).1
  -- what is erased is one of the rest
  erase m num dirs hnum h := by
    refine begins_disk (m := m.setSnapshots (·.eraseP (·.num = num))) ?_ h.disk
    apply begins_setSnapshots h
    intro rest hrest
    refine ⟨rest.eraseP (·.num = num), ?_, ?_⟩
    · rw [List.eraseP_cons_of_neg]
      simpa using fun hzero : Snapshot.current.num = num => hnum hzero.symm
    · exact fun s hs => hrest s (List.mem_of_mem_eraseP hs)
  add m hunloaded hdisk _ := by
    refine ⟨?_, hdisk.nonzero⟩
    intro hloaded
    rw [MetaSnapper.isLoaded, hunloaded] at hloaded
    cases hloaded

end Configs

/-- An event is a sequence of such changes. -/
theorem event_begins {d : Daemon} (event : Event) (h : ∀ m ∈ d.metaSnappers, m.Begins) :
    ∀ m ∈ (d.event event).metaSnappers, m.Begins :=
  begins_lasts.event routine_anything brings_any h

/-- At the start nothing is loaded. -/
theorem initial_begins {start : Daemon} (hstart : start.Initial) :
    ∀ m ∈ start.metaSnappers, m.Begins := fun m hm =>
  begins_lasts.add m (hstart.unloaded m hm) (hstart.disk m hm) fun _ _ => trivial

/-- So the list begins as before at every point of every history. -/
theorem history_begins {start : Daemon} (hstart : start.Initial) (events : List Event) :
    ∀ m ∈ (events.foldl Daemon.event start).metaSnappers, m.Begins := by
  induction events using List.reverseRecOn with
  | nil => exact initial_begins hstart
  | append_singleton events event ih =>
    rw [List.foldl_append]
    exact event_begins event ih

/-- At every point of every history the list of a loaded config begins with the current
snapshot, as it was made, and no other snapshot has the number 0. -/
theorem current_first {start : Daemon} (hstart : start.Initial) (events : List Event) :
    ∀ m ∈ (events.foldl Daemon.event start).metaSnappers, m.isLoaded = true →
      ∃ rest, m.snapshots = Snapshot.current :: rest ∧ ∀ s ∈ rest, s.num ≠ 0 :=
  fun m hm => (history_begins hstart events m hm).list

/-- A snapshot is created, and root tries to delete the current one. -/
theorem current_first_kept :
    let events := [Event.step (.receive (str "a")
        (.createSingleSnapshot (str "root") [] [] .empty)), .step (.work (str "a") Env.quiet),
      .step (.receive (str "a") (.deleteSnapshots (str "root") [0])),
      .step (.work (str "a") Env.quiet)]
    ∀ m ∈ (events.foldl Daemon.event Daemon.rootOnly).metaSnappers, m.isLoaded = true →
      ∃ rest, m.snapshots = Snapshot.current :: rest ∧ ∀ s ∈ rest, s.num ≠ 0 :=
  current_first rootOnly_initial _

/-- When an unmount ends the daemon, in terms of the snapshot and of the exception. -/
theorem umountFails_iff {env : Env} {s : Snapshot} :
    umountFails env s = true ↔
      s.mountChecked = true ∧ s.mountUserRequest = false ∧ s.mountUseCount = 0 ∧
        ∃ fault, env.fault (.umountSnapshot s.num) = some fault ∧
          fault ≠ .UmountSnapshotFailedException := by
  simp [umountFails, and_assoc, Option.any_eq_true]

/-- Unloading a config ends the daemon exactly where the `info.xml` of a snapshot with pending
changes cannot be written, or where a snapshot that was mounted and is no longer used cannot be
unmounted and the exception is not the one that `~Snapper` catches.  The current snapshot, which
is never changed and never mounted, is not among them. -/
theorem unload_terminates_iff {start : Daemon} (hstart : start.Initial) (events : List Event)
    {id : Nat} {env : Env} {m : MetaSnapper}
    (hm : (events.foldl Daemon.event start).metaSnapper id = some m) (hloaded : m.isLoaded = true)
    (hunused : Daemon.snapperCleanupTime < m.unusedFor env.now)
    (hrunning : (events.foldl Daemon.event start).terminated = false) :
    ((events.foldl Daemon.event start).unload id env).terminated = true ↔
      ∃ s ∈ m.snapshots, (s.infoModified = true ∧ (env.fault (.writeInfo s.num true)).isSome) ∨
        (s.mountChecked = true ∧ s.mountUserRequest = false ∧ s.mountUseCount = 0 ∧
          ∃ fault, env.fault (.umountSnapshot s.num) = some fault ∧
            fault ≠ .UmountSnapshotFailedException) := by
  have hbegins := history_begins hstart events m (mem_of_metaSnapper hm)
  obtain ⟨rest, hlist, hnums⟩ := hbegins.list hloaded
  have hcurrent : ∀ s ∈ m.snapshots, s.infoModified = true → s.isCurrent = false := by
    intro s hs hmodified
    rw [hlist] at hs
    rcases List.mem_cons.mp hs with rfl | hs
    · cases hmodified
    · simpa [Snapshot.isCurrent] using hnums s hs
  -- the current snapshot is never modified, so an unwritten info is one of another snapshot
  have hflush : ∀ s ∈ m.snapshots, flushFails env s = true ↔
      s.infoModified = true ∧ (env.fault (.writeInfo s.num true)).isSome := by
    intro s hs
    rw [flushFails, Bool.and_eq_true]
    refine and_congr_right fun hmodified => ?_
    rw [hcurrent s hs hmodified, Bool.false_or]
  -- a config that is unloaded for sure ends the daemon with the exception of its destructor
  have hends : ((events.foldl Daemon.event start).unload id env).terminated =
      (destroySnapper env m.snapshots m.disk).2 := by
    simp only [Daemon.unload, hm, if_pos (And.intro hloaded hunused)]
    split
    · next hfails => exact hfails.symm
    · next hfine =>
      rw [Bool.not_eq_true] at hfine
      exact hrunning.trans hfine.symm
  rw [hends, destroySnapper_thrown, List.any_eq_true]
  refine exists_congr fun s => and_congr_right fun hs => ?_
  rw [Bool.or_eq_true, hflush s hs, umountFails_iff]

/-- Nothing can be unmounted, and it is late. -/
def Env.late : Env :=
  { Env.quiet with
    now := 60
    fault := fun c =>
      if c = .umountSnapshot 1 then some .IsSnapshotMountedFailedException else none }

/-- A snapshot is mounted for a client and given back, and the config is not used for long. -/
theorem unload_terminates_iff_mounted :
    let events := [Event.step (.receive (str "a") (.mountSnapshot (str "root") 1 false)),
      .step (.work (str "a") Env.quiet),
      .step (.receive (str "a") (.umountSnapshot (str "root") 1 false)),
      .step (.work (str "a") Env.quiet)]
    ∃ m, (events.foldl Daemon.event Daemon.rootOnly).metaSnapper 0 = some m ∧
      (((events.foldl Daemon.event Daemon.rootOnly).unload 0 Env.late).terminated = true ↔
        ∃ s ∈ m.snapshots,
          (s.infoModified = true ∧ (Env.late.fault (.writeInfo s.num true)).isSome) ∨
          (s.mountChecked = true ∧ s.mountUserRequest = false ∧ s.mountUseCount = 0 ∧
            ∃ fault, Env.late.fault (.umountSnapshot s.num) = some fault ∧
              fault ≠ .UmountSnapshotFailedException)) := by
  intro events
  obtain ⟨m, hm, hused⟩ : ∃ m, (events.foldl Daemon.event Daemon.rootOnly).metaSnapper 0 = some m ∧
      m.isLoaded = true ∧ Daemon.snapperCleanupTime < m.unusedFor Env.late.now :=
    ⟨_, rfl, rfl, by decide⟩
  exact ⟨m, hm, unload_terminates_iff rootOnly_initial events hm hused.1 hused.2 rfl⟩

end Snapper.Server
