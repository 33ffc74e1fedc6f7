import Snapper.Server.Counting

/-!
# A config in use stays

While the count of a config is not zero, no step unloads it or deletes it or a snapshot of it.

## Main results

* `step_stays`: a step keeps a config that is in use, loaded and with its snapshots.
* `comparisons_counted`: in every reachable state counts are right and references are valid.
-/

namespace Snapper.Server

open General

/-! ## Configs in use stay -/

/-- Nothing of the config is lost from `m` to `m'`: it has the same `Snapper`, the snapshots in
the list and those on disk. -/
structure Keeping (m m' : MetaSnapper) : Prop where
  id : m'.id = m.id
  snapperId : m'.snapperId = m.snapperId
  has : ∀ num, m.Has num → m'.Has num
  infos : ∀ s ∈ m.disk.infos, ∃ s' ∈ m'.disk.infos, s'.num = s.num

/-- The config is still there, and nothing of it is lost. -/
def MetaSnapper.StaysIn (m : MetaSnapper) (d : Daemon) : Prop :=
  ∃ m' ∈ d.metaSnappers, Keeping m m'

/-- A change by a thread that serves no request, apart from an unload: of the snapshots that are
mounted, of the counts or not of configs at all.  What is on disk and can be read stays. -/
inductive Turn : Daemon → Daemon → Prop
  | recount {d d'} (h : Recount d d') : Turn d d'
  | opened {d} (env : Env) (id : Nat) : Turn d (d.openedAt env id)
  | count {d d'} {f : MetaSnapper → MetaSnapper}
      (hname : ∀ m, (f m).configName = m.configName) (hkeeping : ∀ m, Keeping m (f m))
      (hdisk : ∀ m, (f m).disk = m.disk) (hmetas : d'.metaSnappers = d.metaSnappers.map f)
      (hbase : d.Base → d'.Base) : Turn d d'

section Stays

variable {d d' : Daemon} {env : Env} {name : Str} {id : Nat} {m : MetaSnapper}
  {f : MetaSnapper → MetaSnapper} {request : Request}

theorem Keeping.refl : Keeping m m := ⟨rfl, rfl, fun _ h => h, fun s hs => ⟨s, hs, rfl⟩⟩

/-- What is kept twice is kept. -/
theorem Keeping.trans {m' m'' : MetaSnapper} (h : Keeping m m') (h' : Keeping m' m'') :
    Keeping m m'' := by
  refine ⟨h'.id.trans h.id, h'.snapperId.trans h.snapperId,
    fun num hnum => h'.has num (h.has num hnum), ?_⟩
  intro s hs
  obtain ⟨s', hs', hnum⟩ := h.infos s hs
  obtain ⟨s'', hs'', hnum'⟩ := h'.infos s' hs'
  exact ⟨s'', hs'', hnum'.trans hnum⟩

theorem Keeping.write {s : Snapshot} : Keeping m { m with disk := m.disk.write s } := by
  refine ⟨rfl, rfl, fun _ h => h, ?_⟩
  intro s' hs'
  by_cases hnum : s'.num = s.num
  · exact ⟨Snapshot.stored s, List.mem_append_right _ (List.mem_singleton.mpr rfl), hnum.symm⟩
  · exact ⟨s', List.mem_append_left _ (List.mem_filter.mpr ⟨hs', by simpa using hnum⟩), rfl⟩

theorem Keeping.setSnapshots_update {num : UInt32} {g : Snapshot → Snapshot}
    (hnum : ∀ s, (g s).num = s.num) :
    Keeping m (m.setSnapshots (General.update Snapshot.num num g)) := by
  refine ⟨rfl, setSnapshots_snapperId, ?_, fun s hs => ⟨s, hs, rfl⟩⟩
  intro num' hhas
  rw [has_iff, Server.setSnapshots_update, map_update hnum, ← has_iff]
  exact hhas

/-- The config in the new state, where one config was changed. -/
theorem keeping_modMeta (hm : m ∈ d.metaSnappers) (h : m.id = id → Keeping m (f m)) :
    ∃ m' ∈ (d.modMeta id f).metaSnappers, Keeping m m' ∧
      (m' = f m ∧ m.id = id ∨ m' = m ∧ m.id ≠ id) := by
  by_cases hid : m.id = id
  · exact ⟨f m, mem_update_self hm hid, h hid, Or.inl ⟨rfl, hid⟩⟩
  · exact ⟨m, mem_update_other hm hid, Keeping.refl, Or.inr ⟨rfl, hid⟩⟩

/-- A loaded config in the state after a change; its count is the same. -/
def Daemon.StaysCounted (d' : Daemon) (m : MetaSnapper) : Prop :=
  ∃ m' ∈ d'.metaSnappers, Keeping m m' ∧ m'.counter = m.counter

theorem StaysCounted.modMeta (hm : m ∈ d.metaSnappers) (h : m.id = id → Keeping m (f m))
    (hcounter : ∀ m, (f m).counter = m.counter) : (d.modMeta id f).StaysCounted m := by
  obtain ⟨m', hm', hkeeping, ⟨rfl, -⟩ | ⟨rfl, -⟩⟩ : ∃ m' ∈ (d.modMeta id f).metaSnappers, _ ∧ _ :=
    keeping_modMeta hm h
  · exact ⟨f m, hm', hkeeping, hcounter m⟩
  · exact ⟨m', hm', hkeeping, rfl⟩

/-- An edit keeps a loaded config, with its count. -/
theorem Edit.stays (h : Edit d d') (hbase : d.Base) (hm : m ∈ d.metaSnappers)
    (hloaded : m.isLoaded = true) : d'.StaysCounted m := by
  cases h with
  | send msg => exact ⟨m, hm, Keeping.refl, rfl⟩
  | @load id m' hm' hunloaded hfind =>
    apply StaysCounted.modMeta hm _ (by intro; rfl)
    -- another config is loaded
    rintro rfl
    have hsame := hbase.metaSnapper_of_mem hm
    obtain rfl := Option.some.inj (hsame.symm.trans hm')
    rw [MetaSnapper.isLoaded, hunloaded] at hloaded
    cases hloaded
  | use id now =>
    apply StaysCounted.modMeta hm _ (by intro; rfl)
    intro _
    exact ⟨rfl, rfl, fun _ h => h, fun s hs => ⟨s, hs, rfl⟩⟩
  | edit id num hnum hcount =>
    apply StaysCounted.modMeta hm _ (by intro; rfl)
    intro _
    exact Keeping.setSnapshots_update hnum
  | write hm' hs hnum =>
    apply StaysCounted.modMeta hm _ (by intro; rfl)
    intro _
    exact Keeping.write

/-- Mounting and unmounting keep a loaded config, with its count. -/
theorem Recount.stays (h : Recount d d') (hbase : d.Base) (hm : m ∈ d.metaSnappers)
    (hloaded : m.isLoaded = true) : d'.StaysCounted m := by
  cases h with
  | edit h => exact h.stays hbase hm hloaded
  | recount id num hnum =>
    apply StaysCounted.modMeta hm _ (by intro; rfl)
    intro _
    exact Keeping.setSnapshots_update hnum

/-- Creating a snapshot keeps a loaded config, with its count. -/
theorem Create.stays (h : Create d d') (hbase : d.Base) (hm : m ∈ d.metaSnappers)
    (hloaded : m.isLoaded = true) : d'.StaysCounted m := by
  cases h with
  | edit h => exact h.stays hbase hm hloaded
  -- the directory and the info file are on disk, the list in memory is as it was
  | makeDir hm' hnum =>
    apply StaysCounted.modMeta hm _ (by intro; rfl)
    intro _
    exact ⟨rfl, rfl, fun _ h => h, fun s hs => ⟨s, hs, rfl⟩⟩
  | removeDir hm' hlist hinfos =>
    apply StaysCounted.modMeta hm _ (by intro; rfl)
    intro _
    exact ⟨rfl, rfl, fun _ h => h, fun s hs => ⟨s, hs, rfl⟩⟩
  | @insert id m' s hm' hlist hdir hnum hcount =>
    apply StaysCounted.modMeta hm _ (by intro; rfl)
    intro _
    refine ⟨rfl, setSnapshots_snapperId (f := (· ++ [s.flushed])), ?_, Keeping.write.infos⟩
    rintro num ⟨s', hs', hnum'⟩
    -- the new snapshot is appended, so that those that were there stay
    have hlist' : (m.setSnapshots (· ++ [s.flushed])).snapshots = m.snapshots ++ [s.flushed] :=
      setSnapshots_snapshots hloaded
    refine ⟨s', ?_, hnum'⟩
    show s' ∈ (m.setSnapshots (· ++ [s.flushed])).snapshots
    rw [hlist']
    exact List.mem_append_left _ hs'

/-- A change of a request keeps a loaded config that is in use; unless the request gives a
comparison back, it is in use after it as well. -/
theorem Change.stays (h : Change name request d d') (hbase : d.Base) (hm : m ∈ d.metaSnappers)
    (hloaded : m.isLoaded = true) (hcounter : request.releases = false → m.counter ≠ 0) :
    ∃ m' ∈ d'.metaSnappers, Keeping m m' ∧ (request.releases = false → m'.counter ≠ 0) := by
  have hcounted : d'.StaysCounted m →
      ∃ m' ∈ d'.metaSnappers, Keeping m m' ∧ (request.releases = false → m'.counter ≠ 0) := by
    rintro ⟨m', hm', hkeeping, hsame⟩
    exact ⟨m', hm', hkeeping, fun hrequest => hsame ▸ hcounter hrequest⟩
  have hsame : d'.metaSnappers = d.metaSnappers →
      ∃ m' ∈ d'.metaSnappers, Keeping m m' ∧ (request.releases = false → m'.counter ≠ 0) := by
    intro hmetas
    exact ⟨m, hmetas ▸ hm, Keeping.refl, hcounter⟩
  -- a config that is deleted, or whose snapshots are, is not in use
  have hother : ∀ {m₁ : MetaSnapper}, d.metaSnapper m₁.id = some m₁ → m₁.counter = 0 →
      request.releases = false → m.id ≠ m₁.id := by
    rintro m₁ hm₁ hzero hrequest hid
    have hlookup := hbase.metaSnapper_of_mem hm
    rw [hid] at hlookup
    obtain rfl := Option.some.inj (hlookup.symm.trans hm₁)
    exact hcounter hrequest hzero
  cases h with
  | create h => exact hcounted (h.stays hbase hm hloaded)
  | mount hrequest h => exact hcounted (h.stays hbase hm hloaded)
  | loseInfo hrequest h =>
    apply hcounted
    apply StaysCounted.modMeta hm _ (by intro; rfl)
    exact fun hid => absurd hid (hother h.find h.config (releases_of_erases hrequest))
  | erase hrequest h hinfos =>
    apply hcounted
    apply StaysCounted.modMeta hm _ (by intro; rfl)
    exact fun hid => absurd hid (hother h.find h.config (releases_of_erases hrequest))
  | lock h => exact hsame rfl
  | unlock h => exact hsame rfl
  | addMount h hserves hhas hnum => exact hsame rfl
  | removeMount h => exact hsame rfl
  | @addTask task h =>
    obtain ⟨m', hm', hkeeping, ⟨rfl, -⟩ | ⟨rfl, -⟩⟩ :
        ∃ m' ∈ (incUseCount task.metaSnapper { d with tasks := d.tasks ++ [task] }).metaSnappers,
          _ ∧ _ :=
      keeping_modMeta (d := { d with tasks := d.tasks ++ [task] }) hm fun _ =>
        ⟨rfl, rfl, fun _ h => h, fun s hs => ⟨s, hs, rfl⟩⟩
    · exact ⟨_, hm', hkeeping, fun _ => Nat.succ_ne_zero _⟩
    · exact ⟨_, hm', hkeeping, hcounter⟩
  | createConfig hnew => exact ⟨m, List.mem_append_left _ hm, Keeping.refl, hcounter⟩
  | @removeConfig m₁ configName terminated h hm₁ hzero =>
    subst h
    have hne := hother (hbase.addresses.metaSnapper_of_find hm₁) hzero rfl
    exact ⟨m, List.mem_filter.mpr ⟨hm, by simpa using hne⟩, Keeping.refl, hcounter⟩
  | @loseInfos m₁ configName undeleted h hm₁ hzero =>
    subst h
    have hne := hother (hbase.addresses.metaSnapper_of_find hm₁) hzero rfl
    apply hcounted
    apply StaysCounted.modMeta hm _ (by intro; rfl)
    intro hid
    exact absurd hid hne
  | @startComparison making hidle h hmounted =>
    obtain ⟨m', hm', hkeeping, ⟨rfl, -⟩ | ⟨rfl, -⟩⟩ :
        ∃ m' ∈ (incUseCount making.metaSnapper d).metaSnappers, _ ∧ _ :=
      keeping_modMeta hm fun _ => ⟨rfl, rfl, fun _ h => h, fun s hs => ⟨s, hs, rfl⟩⟩
    · exact ⟨_, hm', hkeeping, fun _ => Nat.succ_ne_zero _⟩
    · exact ⟨_, hm', hkeeping, hcounter⟩
  | @endComparison c comparison env hrequest hc hcomparison =>
    have hreleases : ¬ request.releases = false := by
      rw [hrequest]
      simp
    refine ⟨_, List.mem_map_of_mem hm, ?_, fun h => absurd h hreleases⟩
    split
    · exact ⟨rfl, rfl, fun _ h => h, fun s hs => ⟨s, hs, rfl⟩⟩
    · exact Keeping.refl

theorem keeping_ite {b : Prop} [Decidable b] {m' : MetaSnapper} (h : Keeping m m') :
    Keeping m (if b then m' else m) := by
  split
  · exact h
  · exact Keeping.refl

theorem isLoaded_iff : m.isLoaded = true ↔ m.snapperId ≠ none := by
  rw [MetaSnapper.isLoaded, MetaSnapper.snapperId]
  cases m.snapper with
  | none => simp
  | some loaded => simp

theorem Keeping.isLoaded {m' : MetaSnapper} (h : Keeping m m') (hloaded : m.isLoaded = true) :
    m'.isLoaded = true := by
  rw [isLoaded_iff, h.snapperId, ← isLoaded_iff]
  exact hloaded

/-- A config in use is neither deleted nor unloaded by a worker, so what it shows stays. -/
theorem staysIn_work (hbase : d.Base) (hm : m ∈ d.metaSnappers) (hloaded : m.isLoaded = true)
    (hcounter : m.counter ≠ 0) : m.StaysIn (d.work name env) := by
  have hcases : d.work name env = d ∨ _ := work_cases
  rcases hcases with hsame | ⟨client, request, rest, hclient, hworker, -, hwork⟩
  · rw [hsame]
    exact ⟨m, hm, Keeping.refl⟩
  · rw [hwork]
    -- the request is taken from the queue before it is served
    have htaken : (d.modClient name fun c => { c with tasks := c.tasks.tail }).Base :=
      hbase.modClient (by intro; rfl)
    -- a change that releases nothing leaves the counter above zero, and what follows it may then
    -- not unload the config
    have hstep : ∀ d d', Change name request d d' →
        (d.Base ∧ ∃ m' ∈ d.metaSnappers, Keeping m m' ∧
          (request.releases = false → m'.counter ≠ 0)) →
        d'.Base ∧ ∃ m' ∈ d'.metaSnappers, Keeping m m' ∧
          (request.releases = false → m'.counter ≠ 0) := by
      rintro d d' hchange ⟨hbase, m', hm', hkeeping, hcounter'⟩
      obtain ⟨m'', hm'', hkeeping', hcounter''⟩ :=
        hchange.stays hbase hm' (hkeeping.isLoaded hloaded) hcounter'
      exact ⟨hchange.base hbase, m'', hm'', hkeeping.trans hkeeping', hcounter''⟩
    have hchanges : Relation.ReflTransGen (Change name request) _ (dispatch env name request _) :=
      dispatch_changes htaken (idle_of_taken hclient hworker)
    obtain ⟨-, m', hm', hkeeping, -⟩ :=
      Act.keeps_of_steps hstep hchanges ⟨htaken, m, hm, Keeping.refl, fun _ => hcounter⟩
    exact ⟨m', hm', hkeeping⟩

theorem staysIn_openedAt (hbase : d.Base) (hm : m ∈ d.metaSnappers) (hloaded : m.isLoaded = true) :
    m.StaysIn (d.openedAt env id) := by
  rw [Daemon.openedAt]
  split
  · exact ⟨m, hm, Keeping.refl⟩
  · next m₁ hm₁ =>
    -- a config that has to be loaded is another one
    have hload : ∃ m' ∈ (if m₁.isLoaded = true then d else d.load m₁.id).metaSnappers,
        Keeping m m' := by
      split
      · exact ⟨m, hm, Keeping.refl⟩
      · next hunloaded =>
        refine ⟨m, mem_update_other hm ?_, Keeping.refl⟩
        intro hid
        have hsame := hbase.metaSnapper_of_mem hm
        rw [hid, id_of_metaSnapper hm₁, hm₁] at hsame
        cases hsame
        exact hunloaded hloaded
    obtain ⟨m', hm', hkeeping⟩ := hload
    obtain ⟨m'', hm'', hkeeping', -⟩ : ∃ m'' ∈ (Daemon.modMeta m₁.id (fun m =>
        { m with lastUsed := env.now }) _).metaSnappers, Keeping m' m'' ∧ _ :=
      keeping_modMeta hm' fun _ => ⟨rfl, rfl, fun _ h => h, fun s hs => ⟨s, hs, rfl⟩⟩
    exact ⟨m'', hm'', hkeeping.trans hkeeping'⟩

/-! ### Steps that serve no request -/

theorem Turn.base (h : Turn d d') (hd : d.Base) : d'.Base := by
  cases h with
  | recount h => exact h.base hd
  | opened env id => exact hd.openedAt
  | count _ _ _ _ hbase => exact hbase hd

/-- Nothing of the configs is changed. -/
theorem Turn.same (hmetas : d'.metaSnappers = d.metaSnappers) (hbase : d.Base → d'.Base) :
    Turn d d' := by
  apply Turn.count (f := id) _ _ _ _ hbase
  · exact fun _ => rfl
  · exact fun _ => Keeping.refl
  · exact fun _ => rfl
  · rw [hmetas, List.map_id]

/-- A change of the count of one config. -/
theorem Turn.counter (hname : ∀ m, (f m).configName = m.configName) (hf : ∀ m, Keeping m (f m))
    (hdisk : ∀ m, (f m).disk = m.disk)
    (hmetas : d'.metaSnappers = (d.modMeta id f).metaSnappers) (hbase : d.Base → d'.Base) :
    Turn d d' := by
  apply Turn.count (f := fun m => if m.id = id then f m else m) _ _ _ hmetas hbase
  · intro m
    split
    · exact hname m
    · rfl
  · exact fun m => keeping_ite (hf m)
  · intro m
    split
    · exact hdisk m
    · rfl

theorem Keeping.count {n : Nat} {lastUsed : Int} :
    Keeping m { m with counter := n, lastUsed := lastUsed } :=
  ⟨rfl, rfl, fun _ h => h, fun s hs => ⟨s, hs, rfl⟩⟩

theorem Turn.release : Turn d (d.release env id) :=
  Turn.counter (f := MetaSnapper.dec env) (fun _ => rfl) (fun _ => Keeping.count)
    (fun _ => rfl) rfl fun hd => hd.release

theorem turns_of_recounts (h : Relation.ReflTransGen Recount d d') :
    Relation.ReflTransGen Turn d d' :=
  Relation.ReflTransGen.mono (fun _ _ h => Turn.recount h) _ _ h

/-- Giving the uses of all comparisons of a client back is a sequence of turns. -/
theorem turns_decAll {comparisons : List Comparison} :
    Relation.ReflTransGen Turn d (decAll env comparisons d) := by
  induction comparisons generalizing d with
  | nil => exact .refl
  | cons comparison comparisons ih =>
    refine .head ?_ (ih (d := decUseCount env comparison.snapper d))
    apply Turn.count (f := fun m => if m.isEqual comparison.snapper then m.dec env else m)
    · intro m
      split
      · rfl
      · rfl
    · exact fun _ => keeping_ite Keeping.count
    · intro m
      split
      · rfl
      · rfl
    · rfl
    · exact fun hd => hd.decUseCount

/-- The comparison is kept for the client, and the count of its making goes. -/
theorem turns_finished {making : Making} {comparison : Comparison} :
    Relation.ReflTransGen Turn d (d.finished env name making comparison) := by
  have hclient : Turn d (d.modClient name fun c =>
      { c with comparisons := c.comparisons ++ [comparison], worker := .waiting }) :=
    Turn.same rfl fun hd => hd.modClient (by intro; rfl)
  have hinc : ∀ d : Daemon, Turn d (incUseCount making.metaSnapper d) := fun d =>
    Turn.counter (f := fun m => { m with counter := m.counter + 1 }) (fun _ => rfl)
      (fun _ => Keeping.count) (fun _ => rfl) rfl fun hd => hd.incUseCount
  have hsend : ∀ d : Daemon, Turn d (d.send (.reply name .done)) := fun d =>
    Turn.same rfl fun hd => hd.send
  exact (((Relation.ReflTransGen.single hclient).tail (hinc _)).tail (hsend _)).tail Turn.release

theorem turns_failed {making : Making} {e : Exception} :
    Relation.ReflTransGen Turn d (d.failed env name making e) := by
  have hworker : Turn d (d.setWorker name .waiting) := Turn.same rfl fun hd => hd.setWorker
  have hsend : ∀ d : Daemon, Turn d (d.send (.error name e.error)) := fun d =>
    Turn.same rfl fun hd => hd.send
  exact ((Relation.ReflTransGen.single hworker).tail Turn.release).tail (hsend _)

theorem Turn.terminate : Turn d d.terminate := Turn.same rfl fun hd => hd.terminate

/-- Such steps make turns. -/
theorem step_turns (hd : d.Base) {a : Action} (hwork : ∀ name env, a ≠ .work name env)
    (hunload : ∀ id env, a ≠ .unload id env) (hspoil : ∀ id nums, a ≠ .spoil id nums) :
    Relation.ReflTransGen Turn d (d.step a) := by
  rw [Daemon.step.eq_def]
  split
  -- the daemon has ended
  · exact .refl
  · cases a with
    | receive name request =>
      apply Relation.ReflTransGen.single
      apply Turn.same _ fun hd => hd.receive
      show (d.receive name request).metaSnappers = d.metaSnappers
      rw [Daemon.receive]
      split
      · rfl
      · rfl
    | disconnect name =>
      exact .single (Turn.same rfl fun hd => hd.modClient (by intro; rfl))
    | work name env => exact absurd rfl (hwork name env)
    | endWorker name =>
      show Relation.ReflTransGen Turn d (d.endWorker name)
      have hcases : d.endWorker name = d ∨ _ := endWorker_cases
      rcases hcases with hsame | ⟨-, -, -, -, hend⟩
      · rw [hsame]
      · rw [hend]
        exact .single (Turn.same rfl fun hd => hd.modClient (by intro; rfl))
    -- the mounts are counts, whether they succeed or not; then the worker goes on or fails
    | mountComparison name env =>
      show Relation.ReflTransGen Turn d (d.mountComparison name env)
      have hcases : d.mountComparison name env = d ∨ _ := mountComparison_cases
      rcases hcases with hsame | ⟨making, num1, num2, d₁, -, -, -, hrecounts, hrest⟩
      · rw [hsame]
      · have hturns := turns_of_recounts hrecounts
        rcases hrest with ⟨-, hmounted⟩ | ⟨e, -, hfailed⟩
        · rw [hmounted]
          exact hturns.tail (Turn.same rfl fun hd => hd.setWorker)
        · rw [hfailed]
          exact hturns.trans turns_failed
    | finishComparison name env files =>
      show Relation.ReflTransGen Turn d (d.finishComparison name env files)
      have hcases : d.finishComparison name env files = d ∨ _ := finishComparison_cases
      rcases hcases with hsame | ⟨making, num1, num2, d₁, -, -, hrecounts, hrest⟩
      · rw [hsame]
      · have hturns := turns_of_recounts hrecounts
        rcases hrest with ⟨-, hfinished⟩ | ⟨e, -, -, hfailed⟩
        · rw [hfinished]
          exact hturns.trans turns_finished
        · rw [hfailed]
          exact hturns.trans turns_failed
    | failComparison name env failure =>
      show Relation.ReflTransGen Turn d (d.failComparison name env failure)
      have hcases : d.failComparison name env failure = d ∨ _ := failComparison_cases
      rcases hcases with hsame | ⟨making, -, ⟨e, hfailed⟩ | ⟨-, hreleased⟩⟩
      · rw [hsame]
      · rw [hfailed]
        exact turns_failed
      · rw [hreleased]
        have hworker : Turn d (d.setWorker name .ended) := Turn.same rfl fun hd => hd.setWorker
        exact (Relation.ReflTransGen.single hworker).tail Turn.release
    | startTask env =>
      show Relation.ReflTransGen Turn d (d.startTask env)
      have hcases : d.startTask env = d ∨ d.startTask env = d.terminate ∨ _ := startTask_cases
      rcases hcases with hsame | hend | ⟨task, rest, -, -, hstart⟩
      · rw [hsame]
      · rw [hend]
        exact .single Turn.terminate
      · rw [hstart]
        -- the snapper of the task is opened before the task is taken from the queue
        refine .tail (.single (Turn.opened env task.metaSnapper)) (Turn.same rfl fun hd => ?_)
        exact hd.of_same rfl le_rfl hd.addresses.names
    | mountTask env =>
      show Relation.ReflTransGen Turn d (d.mountTask env)
      have hcases : d.mountTask env = d ∨ _ := mountTask_cases
      rcases hcases with hsame | ⟨d₁, hrecounts, hend⟩ |
        ⟨making, num1, num2, d₁, -, -, -, hrecounts, -, hmount⟩
      · rw [hsame]
      · rw [hend]
        exact (turns_of_recounts hrecounts).tail Turn.terminate
      · rw [hmount]
        refine (turns_of_recounts hrecounts).tail (Turn.same rfl fun hd => ?_)
        exact hd.of_same rfl le_rfl hd.addresses.names
    | finishTask env =>
      show Relation.ReflTransGen Turn d (d.finishTask env)
      have hcases : d.finishTask env = d ∨ _ := finishTask_cases
      rcases hcases with hsame | ⟨d₁, hrecounts, hend⟩ |
        ⟨making, num1, num2, d₁, -, -, hrecounts, -, hfinish⟩
      · rw [hsame]
      · rw [hend]
        exact (turns_of_recounts hrecounts).tail Turn.terminate
      · rw [hfinish]
        refine ((turns_of_recounts hrecounts).tail Turn.release).tail (Turn.same rfl fun hd => ?_)
        exact hd.of_same rfl le_rfl hd.addresses.names
    | popTask =>
      show Relation.ReflTransGen Turn d d.popTask
      rcases popTask_cases with hsame | ⟨-, hpop⟩
      · rw [hsame]
      · rw [hpop]
        refine .single (Turn.same rfl fun hd => ?_)
        exact hd.of_same rfl le_rfl hd.addresses.names
    | reap name env =>
      show Relation.ReflTransGen Turn d (d.reap name env)
      have hcases : d.reap name env = d ∨ _ := reap_cases
      rcases hcases with hsame | ⟨client, d₁, -, -, -, hrest⟩
      · rw [hsame]
      · have hdec : (decAll env client.comparisons d).Base := hd.decAll
        -- a client gives back its comparisons first and then its mounts, also where an exception
        -- ends the daemon
        have hturns : ∀ {r}, (umountAll env client.mounts.entries).run
            (decAll env client.comparisons d) = (r, d₁) → Relation.ReflTransGen Turn d d₁ := by
          intro r hrun
          exact turns_decAll.trans (turns_of_recounts (umountAll_through.steps_of_run hdec hrun))
        rcases hrest with ⟨hrun, hreap⟩ | ⟨e, hrun, hend⟩
        · rw [hreap]
          refine (hturns hrun).tail (Turn.same rfl fun hd => ?_)
          exact hd.of_same rfl le_rfl ((List.filter_sublist.map _).nodup hd.addresses.names)
        · rw [hend]
          exact (hturns hrun).tail Turn.terminate
    | unload id env => exact absurd rfl (hunload id env)
    | race id num userRequest useCount => exact .single (Turn.recount race_recount)
    | spoil id nums => exact absurd rfl (hspoil id nums)

/-- A turn loses nothing of a loaded config. -/
theorem Turn.stays (h : Turn d d') (hbase : d.Base) (hm : m ∈ d.metaSnappers)
    (hloaded : m.isLoaded = true) : m.StaysIn d' := by
  cases h with
  | recount h =>
    obtain ⟨m', hm', hkeeping, -⟩ := h.stays hbase hm hloaded
    exact ⟨m', hm', hkeeping⟩
  | opened env id => exact staysIn_openedAt hbase hm hloaded
  | @count _ counts hname hkeeping _ hmetas _ =>
    refine ⟨counts m, ?_, hkeeping m⟩
    rw [hmetas]
    exact List.mem_map_of_mem hm

/-! ### All steps -/

/-- A config that is in use is not unloaded. -/
theorem staysIn_unload (hbase : d.Base) (hm : m ∈ d.metaSnappers) (hcounter : m.counter ≠ 0) :
    m.StaysIn (d.unload id env) := by
  have hhere : m.StaysIn d := ⟨m, hm, Keeping.refl⟩
  have hcases : d.unload id env = d ∨ _ := unload_cases
  rcases hcases with hsame | ⟨m₁, written, hm₁, hzero, -, hend⟩ | ⟨m₁, hm₁, -, hzero, -, hunload⟩
  · rw [hsame]
    exact hhere
  · have hsame := hbase.metaSnapper_of_mem hm
    rw [hend]
    refine ⟨m, mem_update_other hm ?_, Keeping.refl⟩
    rintro rfl
    obtain rfl := Option.some.inj (hsame.symm.trans hm₁)
    exact hcounter hzero
  · rw [hunload]
    -- the config that is unloaded is not in use
    refine ⟨m, mem_update_other hm ?_, Keeping.refl⟩
    rintro rfl
    have hsame := hbase.metaSnapper_of_mem hm
    obtain rfl := Option.some.inj (hsame.symm.trans hm₁)
    exact hcounter hzero

/-- What cannot be read is still there. -/
theorem Keeping.spoil {nums : List UInt32} :
    Keeping m { m with disk := { m.disk with unreadable := nums } } :=
  ⟨rfl, rfl, fun _ h => h, fun s hs => ⟨s, hs, rfl⟩⟩

/-- A step neither unloads nor deletes a config that is in use, nor snapshots of it. -/
theorem step_stays (hbase : d.Base) (hm : m ∈ d.metaSnappers) (hloaded : m.isLoaded = true)
    (hcounter : m.counter ≠ 0) (a : Action) : m.StaysIn (d.step a) := by
  -- what serves no request goes through turns
  have hother : (∀ name env, a ≠ .work name env) → (∀ id env, a ≠ .unload id env) →
      (∀ id nums, a ≠ .spoil id nums) → m.StaysIn (d.step a) := by
    intro hwork hunload hspoil
    have hturn : ∀ d d', Turn d d' → d.Base ∧ m.StaysIn d → d'.Base ∧ m.StaysIn d' := by
      rintro d d' hturn ⟨hbase, m', hm', hkeeping⟩
      refine ⟨hturn.base hbase, ?_⟩
      obtain ⟨m'', hm'', hkeeping'⟩ := hturn.stays hbase hm' (hkeeping.isLoaded hloaded)
      exact ⟨m'', hm'', hkeeping.trans hkeeping'⟩
    have hturns := step_turns hbase hwork hunload hspoil
    exact (Act.keeps_of_steps hturn hturns ⟨hbase, m, hm, Keeping.refl⟩).2
  cases a with
  | work name env =>
    rw [Daemon.step.eq_def]
    split
    · exact ⟨m, hm, Keeping.refl⟩
    · exact staysIn_work hbase hm hloaded hcounter
  | unload id env =>
    rw [Daemon.step.eq_def]
    split
    · exact ⟨m, hm, Keeping.refl⟩
    · exact staysIn_unload hbase hm hcounter
  | spoil id nums =>
    rw [Daemon.step.eq_def]
    split
    · exact ⟨m, hm, Keeping.refl⟩
    · have hkept : m.id = id → Keeping m { m with disk := { m.disk with unreadable := nums } } :=
        fun _ => Keeping.spoil
      obtain ⟨m', hm', hkeeping, -⟩ := keeping_modMeta
        (f := fun m => { m with disk := { m.disk with unreadable := nums } }) hm hkept
      exact ⟨m', hm', hkeeping⟩
  | _ => exact hother (by simp) (by simp) (by simp)

end Stays

/-! ## All reachable states -/

/-- A daemon that has started has no uses to count. -/
theorem Daemon.Initial.counting {d : Daemon} (h : d.Initial) : Counting d := by
  refine Counting.of_counted h.running.1 ⟨?_, ?_, ?_, ?_, ?_, ?_⟩
  -- nobody is there that could hold one
  · intro m hm
    have hsnapper : m.snapperId = none := by simp [MetaSnapper.snapperId, h.unloaded m hm]
    rw [h.counter m hm, Daemon.uses, hsnapper]
    simp [Daemon.comparing, Daemon.queued, Daemon.pending, h.clients, h.tasks, h.background]
  · intro c hc
    rw [h.clients] at hc
    cases hc
  · intro c hc
    rw [h.clients] at hc
    cases hc
  · intro task htask
    simp [Daemon.pending, h.tasks, h.background] at htask
  · intro making hmaking
    rw [h.background] at hmaking
    cases hmaking
  · intro hcounted
    rw [h.background] at hcounted
    cases hcounted

theorem Daemon.Reachable.counting {d : Daemon} (h : d.Reachable) : Counting d :=
  h.invariant (fun _ hstart => hstart.counting) fun _ a hbase hd => hd.step hbase a

/-- In every reachable state no count has gone down at zero; and while the daemon runs, counts
are the numbers of uses, what refers to a config is valid, and no step unloads or deletes a
config that is in use or deletes snapshots of it. -/
theorem comparisons_counted {d : Daemon} (hd : d.Reachable) :
    d.aborted = false ∧ (d.terminated = false →
      (∀ m ∈ d.metaSnappers, m.counter = d.uses m) ∧
      (∀ c ∈ d.clients, ∀ comparison ∈ c.comparisons, comparison.Sound d) ∧
      (∀ c ∈ d.clients, ∀ making, c.worker = .comparing making → making.Sound d) ∧
      (∀ task ∈ d.pending, task.Sound d) ∧
      ∀ m ∈ d.metaSnappers, m.counter ≠ 0 → m.isLoaded = true ∧ ∀ a, m.StaysIn (d.step a)) := by
  have hbase := hd.base
  have hcounting := hd.counting
  refine ⟨hcounting.aborted, fun hrunning => ?_⟩
  have hcounted := hcounting.counted hrunning
  refine ⟨hcounted.counts, hcounted.comparisons, hcounted.makings, hcounted.tasks, ?_⟩
  intro m hm hcounter
  have hloaded : m.isLoaded = true := by
    by_contra hnot
    have hunloaded : m.snapper = none := by simpa [MetaSnapper.isLoaded] using hnot
    exact hcounter (hcounted.of_unloaded hbase hm hunloaded)
  exact ⟨hloaded, step_stays hbase hm hloaded hcounter⟩

/-- A comparison of `root` is in progress. -/
theorem comparisons_counted_comparing :
    let d := [.receive (str "a") (.createComparison (str "root") 0 1),
      .work (str "a") Env.quiet].foldl
      Daemon.step Daemon.rootOnly
    d.metaSnappers.map MetaSnapper.counter = [1] ∧ ∀ m ∈ d.metaSnappers, m.counter = d.uses m :=
  ⟨rfl, ((comparisons_counted (rootOnly_reachable _)).2 rfl).1⟩

end Snapper.Server
