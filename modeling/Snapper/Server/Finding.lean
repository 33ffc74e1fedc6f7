import Snapper.Server.Stays

/-!
# What is found under a name

A property of the config of a name that neither gaining something nor being loaded takes away
is kept by all that adds to configs.

## Main results

* `Create.finds`: creating snapshots keeps such a property.
* `Turn.finds`: so does a step that serves no request, apart from an unload and a change of what
  can be read.
-/

namespace Snapper.Server

open General

/-- The config of this name is there, with this property. -/
def Daemon.Finds (configName : Str) (Q : MetaSnapper → Prop) (d : Daemon) : Prop :=
  ∃ m, d.find configName = some m ∧ Q m

/-- The property stays where nothing of the config is lost and the same can be read, and where the
config is loaded. -/
structure Lasting (Q : MetaSnapper → Prop) : Prop where
  keeping : ∀ {m m'}, Keeping m m' → m'.disk.unreadable = m.disk.unreadable → Q m → Q m'
  load : ∀ {m} snapper, m.snapper = none → Q m → Q { m with snapper := some ⟨snapper, m.disk.read⟩ }

section Finds

variable {d d' : Daemon} {configName : Str} {id : Nat} {Q : MetaSnapper → Prop}
  {f : MetaSnapper → MetaSnapper}

/-- The config of a name and the one of an address are the same, for addresses are unique. -/
theorem eq_of_find {m m' : MetaSnapper} (hbase : d.Base) (hfind : d.find configName = some m)
    (hm' : d.metaSnapper id = some m') (hid : m.id = id) : m = m' := by
  subst hid
  exact Option.some.inj ((hbase.addresses.metaSnapper_of_find hfind).symm.trans hm')

/-- Only the configs matter. -/
theorem finds_of_same (h : d'.metaSnappers = d.metaSnappers) (hd : d.Finds configName Q) :
    d'.Finds configName Q := by
  obtain ⟨m, hfind, hm⟩ := hd
  refine ⟨m, ?_, hm⟩
  rw [Daemon.find, h]
  exact hfind

/-- A change of one config, which keeps the property. -/
theorem finds_modMeta (hd : d.Finds configName Q) (hname : ∀ m, (f m).configName = m.configName)
    (hQ : ∀ m, d.find configName = some m → m.id = id → Q m → Q (f m)) :
    (d.modMeta id f).Finds configName Q := by
  obtain ⟨m, hfind, hm⟩ := hd
  refine ⟨_, (find_modMeta hname).trans (congrArg _ hfind), ?_⟩
  dsimp only
  split
  · next hid => exact hQ m hfind hid hm
  · exact hm

/-- A change of the configs that loses nothing. -/
theorem finds_map (hQ : Lasting Q) (hd : d.Finds configName Q)
    (hname : ∀ m, (f m).configName = m.configName) (hkeeping : ∀ m, Keeping m (f m))
    (hdisk : ∀ m, (f m).disk = m.disk) (hmetas : d'.metaSnappers = d.metaSnappers.map f) :
    d'.Finds configName Q := by
  obtain ⟨m, hfind, hm⟩ := hd
  refine ⟨f m, ?_, hQ.keeping (hkeeping m) (congrArg Disk.unreadable (hdisk m)) hm⟩
  rw [Daemon.find, hmetas, lookup_map hname]
  exact congrArg _ hfind

/-- Loading keeps such a property, for the config that is loaded and for the others. -/
theorem finds_load (hQ : Lasting Q) {m : MetaSnapper} (hbase : d.Base)
    (hm : d.metaSnapper id = some m) (hunloaded : m.snapper = none) (hd : d.Finds configName Q) :
    (d.load id).Finds configName Q := by
  apply finds_of_same (d := d.modMeta id fun m =>
    { m with snapper := some ⟨d.nextId, m.disk.read⟩ }) rfl
  apply finds_modMeta hd (by intro; rfl)
  intro m' hfind hid hm'
  obtain rfl := eq_of_find hbase hfind hm hid
  exact hQ.load d.nextId hunloaded hm'

/-- An edit keeps such a property. -/
theorem Edit.finds (h : Edit d d') (hQ : Lasting Q) (hbase : d.Base)
    (hd : d.Finds configName Q) : d'.Finds configName Q := by
  cases h with
  | send msg => exact finds_of_same rfl hd
  | load hm hunloaded _ => exact finds_load hQ hbase hm hunloaded hd
  | use id now =>
    apply finds_modMeta hd (by intro; rfl)
    exact fun _ _ _ => hQ.keeping Keeping.count rfl
  | edit id num hnum hcount =>
    apply finds_modMeta hd (by intro; rfl)
    exact fun _ _ _ => hQ.keeping (Keeping.setSnapshots_update hnum) rfl
  | write hm hs hnum =>
    apply finds_modMeta hd (by intro; rfl)
    exact fun _ _ _ => hQ.keeping Keeping.write rfl

/-- Counting keeps such a property. -/
theorem Recount.finds (h : Recount d d') (hQ : Lasting Q) (hbase : d.Base)
    (hd : d.Finds configName Q) : d'.Finds configName Q := by
  cases h with
  | edit h => exact h.finds hQ hbase hd
  | recount id num hnum =>
    apply finds_modMeta hd (by intro; rfl)
    exact fun _ _ _ => hQ.keeping (Keeping.setSnapshots_update hnum) rfl

/-- A new snapshot takes none away. -/
theorem Keeping.insert {m : MetaSnapper} {s : Snapshot} :
    Keeping m { m.setSnapshots (· ++ [s.flushed]) with disk := m.disk.write s } := by
  refine ⟨rfl, setSnapshots_snapperId (f := (· ++ [s.flushed])), ?_, Keeping.write.infos⟩
  rintro num ⟨s', hs', hnum⟩
  have hlist : (m.setSnapshots (· ++ [s.flushed])).snapshots = m.snapshots ++ [s.flushed] :=
    setSnapshots_snapshots (isLoaded_of_mem hs')
  refine ⟨s', ?_, hnum⟩
  show s' ∈ (m.setSnapshots (· ++ [s.flushed])).snapshots
  rw [hlist]
  exact List.mem_append_left _ hs'

/-- Directories may come and go. -/
theorem Keeping.dirs {m : MetaSnapper} {dirs : List UInt32} :
    Keeping m { m with disk := { m.disk with dirs := dirs } } :=
  ⟨rfl, rfl, fun _ h => h, fun s hs => ⟨s, hs, rfl⟩⟩

/-- Creating snapshots keeps such a property: directories come and go, and a new snapshot takes
none away. -/
theorem Create.finds (h : Create d d') (hQ : Lasting Q) (hbase : d.Base)
    (hd : d.Finds configName Q) : d'.Finds configName Q := by
  cases h with
  | edit h => exact h.finds hQ hbase hd
  | makeDir hm hnum =>
    apply finds_modMeta hd (by intro; rfl)
    exact fun _ _ _ => hQ.keeping Keeping.dirs rfl
  | removeDir hm hlist hinfos =>
    apply finds_modMeta hd (by intro; rfl)
    exact fun _ _ _ => hQ.keeping Keeping.dirs rfl
  | insert hm hlist hdir hnum hcount =>
    apply finds_modMeta hd (by intro; rfl)
    exact fun _ _ _ => hQ.keeping Keeping.insert rfl

/-- The background loads configs as the handlers do. -/
theorem finds_openedAt {env : Env} (hQ : Lasting Q) (hbase : d.Base)
    (hd : d.Finds configName Q) : (d.openedAt env id).Finds configName Q := by
  rw [Daemon.openedAt]
  split
  · exact hd
  · next m hm =>
    obtain rfl := id_of_metaSnapper hm
    have hload : (if m.isLoaded = true then d else d.load m.id).Finds configName Q := by
      split
      · exact hd
      · next hunloaded =>
        exact finds_load hQ hbase hm (by simpa [MetaSnapper.isLoaded] using hunloaded) hd
    exact finds_modMeta hload (by intro; rfl) fun _ _ _ => hQ.keeping Keeping.count rfl

/-- A step that serves no request keeps such a property, apart from an unload and a change of what
can be read. -/
theorem Turn.finds (h : Turn d d') (hQ : Lasting Q) (hbase : d.Base)
    (hd : d.Finds configName Q) : d'.Finds configName Q := by
  cases h with
  | recount h => exact h.finds hQ hbase hd
  | opened env id => exact finds_openedAt hQ hbase hd
  | count hname hkeeping hdisk hmetas _ => exact finds_map hQ hd hname hkeeping hdisk hmetas

/-- Steps that serve no request, apart from an unload and a change of what can be read. -/
theorem step_finds (hQ : Lasting Q) (hbase : d.Base) {a : Action}
    (hwork : ∀ name env, a ≠ .work name env) (hunload : ∀ id env, a ≠ .unload id env)
    (hspoil : ∀ id nums, a ≠ .spoil id nums) (hd : d.Finds configName Q) :
    (d.step a).Finds configName Q := by
  have hturn : ∀ d d', Turn d d' → d.Base ∧ d.Finds configName Q →
      d'.Base ∧ d'.Finds configName Q := by
    rintro d d' hturn ⟨hbase, hd⟩
    exact ⟨hturn.base hbase, hturn.finds hQ hbase hd⟩
  exact (Act.keeps_of_steps hturn (step_turns hbase hwork hunload hspoil) ⟨hbase, hd⟩).2

end Finds

end Snapper.Server
