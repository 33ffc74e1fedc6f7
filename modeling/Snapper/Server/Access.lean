import Snapper.Server.Handlers

/-!
# Looking at the state of the daemon

What is found by name and by address, before and after a change of one config or client, and
what the common beginning of the handlers does: it finds the config, checks the permission
and has the config loaded.
-/

namespace Snapper.Server

open General

/-- Addresses are of one object, and clients have one entry.  An address that is handed out is
higher than all before it, so that an iterator of an old object never points to a new one. -/
structure Daemon.Addresses (d : Daemon) : Prop where
  ids : (d.metaSnappers.map MetaSnapper.id).Nodup
  nextId : ∀ m ∈ d.metaSnappers, m.id < d.nextId
  snappers : ∀ m ∈ d.metaSnappers, ∀ loaded, m.snapper = some loaded → loaded.id < d.nextId
  distinct : ∀ m ∈ d.metaSnappers, ∀ m' ∈ d.metaSnappers, ∀ loaded loaded',
    m.snapper = some loaded → m'.snapper = some loaded' → loaded.id = loaded'.id → m.id = m'.id
  names : (d.clients.map Client.name).Nodup

theorem rootOnly_addresses : Daemon.rootOnly.Addresses where
  ids := by simp [Daemon.rootOnly]
  nextId := by simp [Daemon.rootOnly]
  snappers := by simp [Daemon.rootOnly]
  distinct := by simp [Daemon.rootOnly]
  names := by simp [Daemon.rootOnly]

section Fields

variable {d : Daemon} {id : Nat} {num : UInt32} {name configName : Str}
  {f : MetaSnapper → MetaSnapper} {g : Client → Client} {m : MetaSnapper}

@[simp] theorem modMeta_clients : (d.modMeta id f).clients = d.clients := rfl

@[simp] theorem modMeta_tasks : (d.modMeta id f).tasks = d.tasks := rfl

@[simp] theorem modMeta_background : (d.modMeta id f).background = d.background := rfl

@[simp] theorem modMeta_sent : (d.modMeta id f).sent = d.sent := rfl

@[simp] theorem modMeta_nextId : (d.modMeta id f).nextId = d.nextId := rfl

@[simp] theorem modMeta_aborted : (d.modMeta id f).aborted = d.aborted := rfl

@[simp] theorem modMeta_terminated : (d.modMeta id f).terminated = d.terminated := rfl

@[simp] theorem modClient_metaSnappers : (d.modClient name g).metaSnappers = d.metaSnappers := rfl

@[simp] theorem modClient_metaSnapper :
    (d.modClient name g).metaSnapper id = d.metaSnapper id := rfl

@[simp] theorem modClient_find : (d.modClient name g).find configName = d.find configName := rfl

@[simp] theorem modClient_tasks : (d.modClient name g).tasks = d.tasks := rfl

@[simp] theorem modClient_background : (d.modClient name g).background = d.background := rfl

@[simp] theorem modClient_sent : (d.modClient name g).sent = d.sent := rfl

@[simp] theorem modClient_nextId : (d.modClient name g).nextId = d.nextId := rfl

/-- A change of a config that keeps its address. -/
theorem metaSnapper_modMeta (hf : ∀ m, (f m).id = m.id) :
    (d.modMeta id f).metaSnapper id = (d.metaSnapper id).map f := lookup_update_self hf

/-- A change of one config leaves what is found under another address. -/
theorem metaSnapper_modMeta_other {id' : Nat} (hf : ∀ m, (f m).id = m.id) (hne : id' ≠ id) :
    (d.modMeta id f).metaSnapper id' = d.metaSnapper id' := lookup_update_other hf hne

/-- The config of a name is the one of its address. -/
theorem Daemon.Addresses.metaSnapper_of_find (h : d.Addresses)
    (hfind : d.find configName = some m) :
    d.metaSnapper m.id = some m := lookup_of_mem h.ids (mem_of_lookup hfind)

/-- A config of the list is found under its address. -/
theorem Daemon.Addresses.metaSnapper_of_mem (h : d.Addresses) (hm : m ∈ d.metaSnappers) :
    d.metaSnapper m.id = some m := lookup_of_mem h.ids hm

/-- A client of the list is found under its name. -/
theorem Daemon.Addresses.client_of_mem (h : d.Addresses) {c : Client} (hc : c ∈ d.clients) :
    d.client c.name = some c := lookup_of_mem h.names hc

/-- The snapshots of an address are those of its config. -/
theorem snapshots_of_metaSnapper (h : d.metaSnapper id = some m) :
    d.snapshots id = m.snapshots := by
  simp [Daemon.snapshots, h]

end Fields

/-! ## The common beginning -/

/-- The snapshots that a config shows: those of its `Snapper`, which may have to be loaded. -/
def MetaSnapper.shown (m : MetaSnapper) : List Snapshot :=
  match m.snapper with
  | none => m.disk.read
  | some loaded => loaded.snapshots

/-- The state once the config is loaded and used. -/
def Daemon.opened (env : Env) (m : MetaSnapper) (d : Daemon) : Daemon :=
  (if m.isLoaded then d else d.load m.id).modMeta m.id fun m => { m with lastUsed := env.now }

/-- The bus knows the sender, who may use the config. -/
def Permitted (env : Env) (m : MetaSnapper) : Prop :=
  env.fault (.getUnixUserid false) = none ∧ (env.uid = 0 ∨ env.uid ∈ m.uids)

instance (env : Env) (m : MetaSnapper) : Decidable (Permitted env m) :=
  inferInstanceAs (Decidable (_ ∧ _))

/-- The config is found, permitted and loaded. -/
structure Opens (env : Env) (configName : Str) (d : Daemon) (m : MetaSnapper) : Prop where
  find : d.find configName = some m
  permitted : Permitted env m
  loads : m.isLoaded = true ∨ env.fault (.loadSnapper m.configName) = none

section Opening

variable {env : Env} {d : Daemon} {configName : Str} {m : MetaSnapper}

/-- A config that is there is found, and nothing changes. -/
theorem findConfig_run (h : d.find configName = some m) :
    (findConfig configName).run d = (.ok m, d) := by
  simp [findConfig, Act.run_bind, h]

/-- A config that is not there is answered with `UnknownConfig`. -/
theorem findConfig_run_none (h : d.find configName = none) :
    (findConfig configName).run d = (.error .UnknownConfig, d) := by
  simp [findConfig, Act.run_bind, h]

/-- A user who is permitted goes on. -/
theorem checkPermission_run (h : Permitted env m) :
    (checkPermission env m).run d = (.ok ⟨⟩, d) := by
  obtain ⟨hbus, huid⟩ := h
  have hallowed : ¬ env.uid = 0 → env.uid ∈ m.uids := huid.resolve_left
  simp [checkPermission, getUnixUserid, call, Act.run_bind, hbus, Act.throwIf]
  exact hallowed

/-- A user who is not permitted, or whom the bus does not know, is refused. -/
theorem checkPermission_run_not (h : ¬ Permitted env m) :
    ∃ e, (checkPermission env m).run d = (.error e, d) := by
  cases hbus : env.fault (.getUnixUserid false) with
  | some fault =>
    exact ⟨.fault fault, by simp [checkPermission, getUnixUserid, call, Act.run_bind, hbus]⟩
  | none =>
    have hdenied : env.uid ≠ 0 ∧ env.uid ∉ m.uids := by
      by_contra hnot
      exact h ⟨hbus, by tauto⟩
    exact ⟨.Permissions, by
      simp [checkPermission, getUnixUserid, call, Act.run_bind, hbus, Act.throwIf, hdenied]⟩

/-- A config that is loaded, or can be, is loaded and used afterwards. -/
theorem getSnapper_run (hm : d.metaSnapper m.id = some m)
    (hload : m.isLoaded = true ∨ env.fault (.loadSnapper m.configName) = none) :
    (getSnapper env m.id).run d = (.ok ⟨⟩, d.opened env m) := by
  by_cases hloaded : m.isLoaded = true
  · simp [getSnapper, Act.run_bind, hm, hloaded, Daemon.opened]
  · have hcall := hload.resolve_left hloaded
    simp [getSnapper, Act.run_bind, hm, hloaded, Daemon.opened, call, hcall]

/-- A config that cannot be loaded leaves everything as it was. -/
theorem getSnapper_run_not (hm : d.metaSnapper m.id = some m)
    (hload : ¬ (m.isLoaded = true ∨ env.fault (.loadSnapper m.configName) = none)) :
    ∃ e, (getSnapper env m.id).run d = (.error e, d) := by
  obtain ⟨hloaded, hcall⟩ := not_or.mp hload
  obtain ⟨fault, hfault⟩ := Option.ne_none_iff_exists'.mp hcall
  exact ⟨.fault fault, by simp [getSnapper, Act.run_bind, hm, hloaded, call, hfault]⟩

/-- A request that opens its config goes on with the config it has found, in the state in which
the config is loaded and used. -/
theorem openConfig_run (hd : d.Addresses) (h : Opens env configName d m) :
    (openConfig env configName).run d = (.ok m, d.opened env m) := by
  rw [openConfig, Act.run_bind_ok (findConfig_run h.find),
    Act.run_bind_ok (checkPermission_run h.permitted),
    Act.run_bind_ok (getSnapper_run (hd.metaSnapper_of_find h.find) h.loads)]
  rfl

/-- Otherwise the request is over, with an exception and without a change. -/
theorem openConfig_run_not (hd : d.Addresses) (h : ∀ m, ¬ Opens env configName d m) :
    ∃ e, (openConfig env configName).run d = (.error e, d) := by
  cases hfind : d.find configName with
  | none => exact ⟨_, Act.run_bind_error (findConfig_run_none hfind)⟩
  | some m =>
    by_cases hpermitted : Permitted env m
    · have hload : ¬ (m.isLoaded = true ∨ env.fault (.loadSnapper m.configName) = none) :=
        fun hload => h m ⟨hfind, hpermitted, hload⟩
      obtain ⟨e, hrun⟩ := getSnapper_run_not (hd.metaSnapper_of_find hfind) hload
      exact ⟨e, by rw [openConfig, Act.run_bind_ok (findConfig_run hfind),
        Act.run_bind_ok (checkPermission_run hpermitted), Act.run_bind_error hrun]⟩
    · obtain ⟨e, hrun⟩ : ∃ e, (checkPermission env m).run d = (.error e, d) :=
        checkPermission_run_not hpermitted
      exact ⟨e, by rw [openConfig, Act.run_bind_ok (findConfig_run hfind), Act.run_bind_error hrun]⟩

/-- The opened config has the snapshots it showed. -/
theorem metaSnapper_opened (hm : d.metaSnapper m.id = some m) :
    ∃ loaded, (d.opened env m).metaSnapper m.id =
        some { m with snapper := some loaded, lastUsed := env.now } ∧
      loaded.snapshots = m.shown := by
  -- loaded before or loaded now, with what can be read
  cases hsnapper : m.snapper with
  | some loaded =>
    have hloaded : m.isLoaded = true := by simp [MetaSnapper.isLoaded, hsnapper]
    refine ⟨loaded, ?_, by simp [MetaSnapper.shown, hsnapper]⟩
    rw [Daemon.opened, if_pos hloaded, metaSnapper_modMeta (by intro; rfl), hm, ← hsnapper]
    rfl
  | none =>
    have hloaded : ¬ m.isLoaded = true := by simp [MetaSnapper.isLoaded, hsnapper]
    refine ⟨⟨d.nextId, m.disk.read⟩, ?_, by simp [MetaSnapper.shown, hsnapper]⟩
    have hload : (d.load m.id).metaSnapper m.id =
        some { m with snapper := some ⟨d.nextId, m.disk.read⟩ } := by
      show (d.modMeta m.id fun m =>
        { m with snapper := some ⟨d.nextId, m.disk.read⟩ }).metaSnapper m.id = _
      rw [metaSnapper_modMeta (by intro; rfl), hm]
      rfl
    rw [Daemon.opened, if_neg hloaded, metaSnapper_modMeta (by intro; rfl), hload]
    rfl

end Opening

/-! ## What a config shows -/

/-- The snapshots that the config of this address shows. -/
def Daemon.shown (d : Daemon) (id : Nat) : List Snapshot :=
  match d.metaSnapper id with
  | none => []
  | some m => m.shown

section Shown

variable {env : Env} {d : Daemon} {id id' : Nat} {num : UInt32} {f : MetaSnapper → MetaSnapper}
  {g : Snapshot → Snapshot} {m : MetaSnapper} {loaded : Loaded}

/-- A change that keeps what the config shows. -/
theorem shown_modMeta (hf : ∀ m, (f m).id = m.id) (hshown : ∀ m, (f m).shown = m.shown) :
    (d.modMeta id f).shown id' = d.shown id' := by
  by_cases hid : id' = id
  · rw [Daemon.shown, Daemon.shown, hid, metaSnapper_modMeta hf]
    cases d.metaSnapper id with
    | none => rfl
    | some m => exact hshown m
  · rw [Daemon.shown, Daemon.shown, metaSnapper_modMeta_other hf hid]

/-- Opening a config keeps what every config shows: what is loaded is what was shown. -/
theorem shown_opened (hm : d.metaSnapper m.id = some m) :
    (d.opened env m).shown id = d.shown id := by
  by_cases hid : id = m.id
  · obtain ⟨loaded, hopened, hsnapshots⟩ : ∃ loaded, (d.opened env m).metaSnapper m.id = _ ∧ _ :=
      metaSnapper_opened hm
    rw [Daemon.shown, Daemon.shown, hid, hopened, hm]
    exact hsnapshots
  · rw [Daemon.opened, shown_modMeta (by intro; rfl) (by intro; rfl)]
    split
    · rfl
    · show (d.modMeta m.id _).shown id = _
      rw [Daemon.shown, Daemon.shown, metaSnapper_modMeta_other (by intro; rfl) hid]

/-- A loaded config shows its list. -/
theorem shown_eq_snapshots (hm : d.metaSnapper id = some m) (hloaded : m.snapper = some loaded) :
    d.shown id = d.snapshots id := by
  simp [Daemon.shown, Daemon.snapshots, hm, MetaSnapper.shown, MetaSnapper.snapshots, hloaded]

/-- The config after a change of one of its snapshots. -/
theorem metaSnapper_modSnapshot (hm : d.metaSnapper id = some m) :
    (d.modSnapshot id num g).metaSnapper id =
      some (m.setSnapshots (update Snapshot.num num g)) := by
  rw [Daemon.modSnapshot, metaSnapper_modMeta (by intro; rfl), hm]
  rfl

/-- A loaded config shows the change. -/
theorem shown_modSnapshot (hm : d.metaSnapper id = some m) (hloaded : m.snapper = some loaded) :
    (d.modSnapshot id num g).shown id = update Snapshot.num num g (d.shown id) := by
  rw [Daemon.shown, metaSnapper_modSnapshot hm, Daemon.shown, hm]
  simp [MetaSnapper.shown, MetaSnapper.setSnapshots, hloaded]

/-- The other configs do not. -/
theorem shown_modSnapshot_other (hid : id' ≠ id) :
    (d.modSnapshot id num g).shown id' = d.shown id' := by
  rw [Daemon.shown, Daemon.modSnapshot, metaSnapper_modMeta_other (by intro; rfl) hid]
  rfl

/-- The list after a change of one snapshot. -/
theorem snapshots_modSnapshot (hm : d.metaSnapper id = some m) :
    (d.modSnapshot id num g).snapshots id = update Snapshot.num num g (d.snapshots id) := by
  rw [Daemon.snapshots, metaSnapper_modSnapshot hm, Daemon.snapshots, hm]
  cases hsnapper : m.snapper with
  | none => simp [MetaSnapper.setSnapshots, MetaSnapper.snapshots, hsnapper, update]
  | some loaded => simp [MetaSnapper.setSnapshots, MetaSnapper.snapshots, hsnapper]

end Shown

end Snapper.Server
