import Snapper.Server.Mounted
import Snapper.Server.Refused

/-!
# While a client only looks

A client lists the snapshots of a config, has them compared and asks for the files.  None of
these requests takes a snapshot away, nor does what the daemon does by itself in between.  A
comparison that was made counts as a use of the config until it is deleted, so from then on a
request to delete snapshots is refused.

## Main results

* `Harmless.step`: a step by the daemon keeps all snapshots, and the comparisons.
-/

namespace Snapper.Server

open General Act

/-! ## The requests -/

/-- The request looks at a config, or makes a comparison of two of its snapshots. -/
def Request.looks : Request → Bool
  | .getConfig .. | .listSnapshots .. | .createComparison .. | .getFiles .. => true
  | _ => false

section Requests

variable {env : Env} {me configName : Str} {d d' : Daemon} {request : Request} {m : MetaSnapper}

/-- A handler that throws leaves its error as the only message. -/
theorem dispatch_error {e : Exception} (h : (handle env me request).run d = (.error e, d')) :
    dispatch env me request d = d'.send (.error me e.error) := by
  rw [dispatch, h]

/-- A request to delete snapshots of a config in use changes nothing. -/
theorem dispatch_deleteSnapshots_inUse {nums : List UInt32} (hfind : d.find configName = some m)
    (huse : m.counter ≠ 0) :
    ∃ e : Exception, dispatch env me (.deleteSnapshots configName nums) d =
      d.send (.error me e.error) := by
  have hrun : ∃ e, (deleteSnapshots env me configName nums).run d = (.error e, d) := by
    rw [deleteSnapshots, run_bind_ok (findConfig_run hfind)]
    by_cases hpermitted : Permitted env m
    · rw [run_bind_ok (checkPermission_run hpermitted)]
      -- the lock is checked before the use count, so that the answer may be the one or the other
      have hlock : ∀ {α : Type} (k : Handler α), (checkLock me configName >>= fun _ => k).run d =
          if d.lockedByOther me configName = true then (.error .Lock, d) else k.run d := by
        intro α k
        cases hlocked : d.lockedByOther me configName with
        | true => rw [run_bind_error (checkLock_run hlocked), if_pos rfl]
        | false => simp [checkLock, Act.run_bind, hlocked, Act.throwIf]
      rw [hlock]
      split
      · exact ⟨_, rfl⟩
      · have hinUse : (checkConfigInUse m).run d = (.error .ConfigInUse, d) := by
          simp [checkConfigInUse, Act.throwIf, huse]
        exact ⟨_, run_bind_error hinUse⟩
    -- a sender without permission is refused before both
    · obtain ⟨e, hdenied⟩ : ∃ e, (checkPermission env m).run d = (.error e, d) :=
        checkPermission_run_not hpermitted
      exact ⟨e, run_bind_error hdenied⟩
  obtain ⟨e, hrun⟩ := hrun
  exact ⟨e, dispatch_error hrun⟩

/-- What a request that looks leads to: an answer, for which the config may have been loaded,
or the comparison is begun. -/
inductive Looked (env : Env) (me configName : Str) (d : Daemon) : Daemon → Prop where
  | answered (msg : Sent) (hmsg : ∀ name, msg ≠ .reply name .done) :
    Looked env me configName d (d.send msg)
  | opened (id : Nat) (msg : Sent) (hmsg : ∀ name, msg ≠ .reply name .done) :
      Looked env me configName d ((d.openedAt env id).send msg)
  | comparing (m : MetaSnapper) (making : Making) (hfind : d.find configName = some m)
      (hmaking : making.metaSnapper = m.id) :
      Looked env me configName d ((incUseCount m.id (d.openedAt env m.id)).modClient me fun c =>
        { c with worker := .comparing making })

/-- Opening by address and by name is the same. -/
theorem openedAt_eq (hd : d.Addresses) (hfind : d.find configName = some m) :
    d.openedAt env m.id = d.opened env m := by
  rw [Daemon.openedAt, hd.metaSnapper_of_find hfind]

/-- Looking for a comparison changes nothing. -/
theorem findComparison_run {id : Nat} {num1 num2 : UInt32} :
    ∃ r, (findComparison me id num1 num2).run d = (r, d) := by
  simp only [findComparison, findSnapshot, run_bind, run_read]
  split
  · exact ⟨_, rfl⟩
  · exact ⟨_, rfl⟩

/-- The handlers that open the config first. -/
theorem looked_of_opened {k : MetaSnapper → Handler PUnit} (hd : d.Addresses)
    (hrequest : handle env me request = openConfig env configName >>= k)
    (hk : ∀ m, d.find configName = some m →
      Looked env me configName d (match (k m).run (d.openedAt env m.id) with
        | (.ok _, d') => d'
        | (.error e, d') => d'.send (.error me e.error))) :
    Looked env me configName d (dispatch env me request d) := by
  by_cases hopens : ∃ m, Opens env configName d m
  · obtain ⟨m, hm⟩ := hopens
    have hlooked := hk m hm.find
    rw [openedAt_eq hd hm.find] at hlooked
    rw [dispatch, hrequest, run_bind_ok (openConfig_run hd hm)]
    exact hlooked
  · obtain ⟨e, hrun⟩ : ∃ e, (openConfig env configName).run d = (.error e, d) :=
      openConfig_run_not hd (not_exists.mp hopens)
    rw [dispatch, hrequest, run_bind_error hrun]
    exact Looked.answered _ (by intro name h; cases h)

/-- A request that looks at a config leads to one of the three: an answer without loading, an
answer after loading, or a comparison that has begun. -/
theorem dispatch_looks (hlooks : request.looks = true) (hd : d.Addresses) :
    Looked env me request.configName d (dispatch env me request d) := by
  cases request with
  | getConfig configName =>
    have hanswer : ∀ e : Exception, Looked env me configName d (d.send (.error me e.error)) :=
      fun e => Looked.answered _ (by intro name h; cases h)
    show Looked env me configName d (dispatch env me (.getConfig configName) d)
    rw [dispatch]
    show Looked env me configName d (match (getConfig env me configName).run d with
      | (.ok _, d') => d'
      | (.error e, d') => d'.send (.error me e.error))
    -- `getConfig` does not open the config: it answers from the config info
    rw [getConfig]
    cases hfind : d.find configName with
    | none =>
      rw [run_bind_error (findConfig_run_none hfind)]
      exact hanswer _
    | some m =>
      rw [run_bind_ok (findConfig_run hfind)]
      by_cases hpermitted : Permitted env m
      · rw [run_bind_ok (checkPermission_run hpermitted)]
        exact Looked.answered _ (by intro name h; cases h)
      · obtain ⟨e, hdenied⟩ : ∃ e, (checkPermission env m).run d = (.error e, d) :=
          checkPermission_run_not hpermitted
        rw [run_bind_error hdenied]
        exact hanswer _
  | listSnapshots configName =>
    apply looked_of_opened hd rfl
    intro m _
    exact Looked.opened m.id _ (by intro name h; cases h)
  | getFiles configName num1 num2 =>
    apply looked_of_opened hd rfl
    intro m _
    obtain ⟨r, hrun⟩ : ∃ r, (findComparison me m.id num1 num2).run (d.openedAt env m.id) =
      (r, d.openedAt env m.id) := findComparison_run
    cases r with
    | ok comparison =>
      rw [run_bind_ok hrun]
      exact Looked.opened m.id _ (by intro name h; cases h)
    | error e =>
      rw [run_bind_error hrun]
      exact Looked.opened m.id _ (by intro name h; cases h)
  | createComparison configName num1 num2 =>
    apply looked_of_opened hd rfl
    intro m hfind
    exact Looked.comparing m _ hfind rfl
  | _ => cases hlooks

end Requests

/-! ## Snapshots that stay -/

/-- The config has this address.  Of these numbers it shows snapshots, which can be read again, so
that an unload does not lose them either. -/
structure MetaSnapper.Saved (id : Nat) (nums : UInt32 → Prop) (m : MetaSnapper) : Prop where
  id : m.id = id
  shows : ∀ num, nums num → m.Shows num
  infos : ∀ num, nums num → num ≠ 0 → ∃ s ∈ m.disk.readable, s.num = num

section Saved

variable {env : Env} {configName : Str} {d : Daemon} {id : Nat} {nums : UInt32 → Prop}

/-- Neither loading nor losing nothing takes such a snapshot away. -/
theorem saved_lasting : Lasting (MetaSnapper.Saved id nums) where
  keeping := by
    intro m m' hkeeping hread h
    exact ⟨hkeeping.id.trans h.id, fun num hnum => hkeeping.shows hread (h.shows num hnum),
      fun num hnum hne => readable_of_infos (h.infos num hnum hne) hkeeping.infos hread⟩
  load := by
    intro m snapper hunloaded h
    exact ⟨h.id, fun num hnum => shows_lasting.load snapper hunloaded (h.shows num hnum), h.infos⟩

/-- Writing loses nothing that can be read. -/
theorem readable_writes {snapshots : List Snapshot} {disk : Disk} {num : UInt32}
    (h : ∃ s ∈ disk.readable, s.num = num) :
    ∃ s ∈ (snapshots.foldl (fun disk s => disk.write s) disk).readable, s.num = num :=
  readable_of_infos h (fun s hs => writes_infos (Or.inl ⟨s, hs, rfl⟩)) unreadable_writes

/-- An unload loses nothing that can be read again. -/
theorem saved_unload {id' : Nat} (hd : d.Finds configName (MetaSnapper.Saved id nums)) :
    (d.unload id' env).Finds configName (MetaSnapper.Saved id nums) := by
  have hcases : d.unload id' env = d ∨ _ := unload_cases
  rcases hcases with hsame | ⟨-, written, -, -, -, hend⟩ | ⟨m, -, -, -, -, hunload⟩
  · rw [hsame]
    exact hd
  · rw [hend]
    apply finds_of_same (d := d.writeInfos id' written) rfl
    apply finds_modMeta hd (by intro; rfl)
    intro m _ _ h
    refine ⟨h.id, fun num hnum => ?_, fun num hnum hne => readable_writes (h.infos num hnum hne)⟩
    refine shows_modDisk (h.shows num hnum) ?_ unreadable_writes
    exact fun s hs _ => writes_infos (Or.inl ⟨s, hs, rfl⟩)
  · rw [hunload]
    apply finds_modMeta hd (by intro; rfl)
    intro m' _ _ h
    refine ⟨h.id, fun num hnum => ?_, fun num hnum hne => readable_writes (h.infos num hnum hne)⟩
    rw [MetaSnapper.Shows, shown_of_unloaded rfl]
    by_cases hzero : num = 0
    · exact ⟨Snapshot.current, mem_read.mpr (Or.inl rfl), hzero.symm⟩
    · -- what is pending has been written, and can be read as before
      obtain ⟨s, hs, hsnum⟩ := @readable_writes (m.snapshots.filter Snapshot.infoModified) _ _
        (h.infos num hnum hzero)
      exact ⟨s, mem_read.mpr (Or.inr hs), hsnum⟩

end Saved

/-! ## Comparisons that stay -/

/-- Nothing but configs is different. -/
def OnlyConfigs (d d' : Daemon) : Prop :=
  d' = { d with metaSnappers := d'.metaSnappers, nextId := d'.nextId }

section OnlyConfigs

variable {env : Env} {d d' : Daemon} {id : Nat} {num1 num2 : UInt32} {r : Except Exception PUnit}

/-- Two such changes are one. -/
theorem OnlyConfigs.trans {d'' : Daemon} (h : OnlyConfigs d d') (h' : OnlyConfigs d' d'') :
    OnlyConfigs d d'' := by
  rw [OnlyConfigs, h', h]

theorem onlyConfigs_of_steps (h : Relation.ReflTransGen OnlyConfigs d d') : OnlyConfigs d d' := by
  induction h with
  | refl => rfl
  | tail _ hstep ih => exact ih.trans hstep

/-- Counting mounts is one. -/
theorem onlyConfigs_changes : ChangesSnapshots OnlyConfigs := by
  intro d id num f _
  rfl

/-- Loading is one. -/
theorem openedAt_onlyConfigs : OnlyConfigs d (d.openedAt env id) := by
  rw [Daemon.openedAt]
  split
  · rfl
  · next m _ =>
    rw [Daemon.opened]
    split
    · rfl
    · rfl

theorem mountBoth_onlyConfigs (h : (mountBoth env id num1 num2).run d = (r, d')) :
    OnlyConfigs d d' :=
  onlyConfigs_of_steps ((mountBoth_changes onlyConfigs_changes).steps_of_run trivial h)

theorem umountBoth_onlyConfigs (h : (umountBoth env id num1 num2).run d = (r, d')) :
    OnlyConfigs d d' :=
  onlyConfigs_of_steps ((umountBoth_changes onlyConfigs_changes).steps_of_run trivial h)

theorem OnlyConfigs.clients (h : OnlyConfigs d d') : d'.clients = d.clients := by
  rw [h]

theorem OnlyConfigs.sent (h : OnlyConfigs d d') : d'.sent = d.sent := by
  rw [h]

end OnlyConfigs

/-- The comparisons that the clients make are of this config. -/
def Daemon.MakesOf (id : Nat) (d : Daemon) : Prop :=
  ∀ c ∈ d.clients, ∀ making, c.worker = .comparing making → making.metaSnapper = id

/-- Clients take tasks and get comparisons, and nothing happens in the background. -/
structure Daemon.Grows (id : Nat) (d d' : Daemon) : Prop where
  tasks : d'.tasks = d.tasks
  background : d'.background = d.background
  held : ∀ c ∈ d.clients, ∃ c' ∈ d'.clients, c.comparisons ⊆ c'.comparisons
  clients : ∀ c' ∈ d'.clients, ∃ c ∈ d.clients, c'.zombie = c.zombie ∧ c'.tasks ⊆ c.tasks
  makings : d.MakesOf id → d'.MakesOf id

section Grows

variable {env : Env} {name : Str} {d d' : Daemon} {id : Nat} {making : Making}

/-- Where clients and background are the same nothing has grown. -/
theorem grows_of_same (hclients : d'.clients = d.clients) (htasks : d'.tasks = d.tasks)
    (hbackground : d'.background = d.background) : d.Grows id d' := by
  refine ⟨htasks, hbackground, ?_, ?_, ?_⟩
  · intro c hc
    exact ⟨c, hclients ▸ hc, List.Subset.refl _⟩
  · intro c hc
    exact ⟨c, hclients ▸ hc, rfl, List.Subset.refl _⟩
  · intro h
    rw [Daemon.MakesOf, hclients]
    exact h

/-- What clients hold grows from step to step. -/
theorem Daemon.Grows.trans {d'' : Daemon} (h : d.Grows id d') (h' : d'.Grows id d'') :
    d.Grows id d'' := by
  refine ⟨h'.tasks.trans h.tasks, h'.background.trans h.background, ?_, ?_, ?_⟩
  · intro c hc
    obtain ⟨c', hc', hsub⟩ := h.held c hc
    obtain ⟨c'', hc'', hsub'⟩ := h'.held c' hc'
    exact ⟨c'', hc'', List.Subset.trans hsub hsub'⟩
  · intro c'' hc''
    obtain ⟨c', hc', hzombie', htasks'⟩ := h'.clients c'' hc''
    obtain ⟨c, hc, hzombie, htasks⟩ := h.clients c' hc'
    exact ⟨c, hc, hzombie'.trans hzombie, List.Subset.trans htasks' htasks⟩
  · exact fun hmakings => h'.makings (h.makings hmakings)

/-- A change of configs lets nothing of the clients grow. -/
theorem OnlyConfigs.grows (h : OnlyConfigs d d') : d.Grows id d' := by
  apply grows_of_same
  · rw [h]
  · rw [h]
  · rw [h]

/-- One client gets comparisons, or its worker goes on with a comparison of the config. -/
theorem grows_modClient {g : Client → Client} (hzombie : ∀ c, (g c).zombie = c.zombie)
    (htasks : ∀ c, (g c).tasks ⊆ c.tasks) (hcomparisons : ∀ c, c.comparisons ⊆ (g c).comparisons)
    (hworker : ∀ c making, (g c).worker = .comparing making →
      c.worker = .comparing making ∨ making.metaSnapper = id) :
    d.Grows id (d.modClient name g) := by
  -- comparisons are kept, queues get no longer, and a worker at a comparison is at one of the
  -- config
  refine ⟨rfl, rfl, ?_, ?_, ?_⟩
  · intro c hc
    by_cases hname : c.name = name
    · exact ⟨g c, mem_update_self hc hname, hcomparisons c⟩
    · exact ⟨c, mem_update_other hc hname, List.Subset.refl _⟩
  · intro c' hc'
    obtain ⟨c, hc, ⟨-, rfl⟩ | ⟨-, rfl⟩⟩ := mem_update hc'
    · exact ⟨c, hc, hzombie c, htasks c⟩
    · exact ⟨c', hc, rfl, List.Subset.refl _⟩
  · intro h c' hc' making hmaking
    obtain ⟨c, hc, ⟨-, rfl⟩ | ⟨-, rfl⟩⟩ := mem_update hc'
    · rcases hworker c making hmaking with hold | hid
      · exact h c hc making hold
      · exact hid
    · exact h c' hc making hmaking

/-- A worker goes on with a comparison of the config, or with nothing. -/
theorem grows_setWorker {worker : Worker}
    (hworker : ∀ making, worker = .comparing making → making.metaSnapper = id) :
    d.Grows id (d.setWorker name worker) :=
  grows_modClient (fun _ => rfl) (fun _ => List.Subset.refl _) (fun _ => List.Subset.refl _)
    fun _ making hmaking => Or.inr (hworker making hmaking)

/-- A comparison that fails leaves what the client has. -/
theorem grows_failed {e : Exception} : d.Grows id (d.failed env name making e) := by
  have hworker : d.Grows id (d.setWorker name .waiting) :=
    grows_setWorker (by intro making h; cases h)
  exact hworker.trans (grows_of_same rfl rfl rfl)

/-- A comparison that is finished is one more of the client. -/
theorem grows_finished {comparison : Comparison} :
    d.Grows id (d.finished env name making comparison) := by
  have hclient : d.Grows id (d.modClient name fun c =>
      { c with comparisons := c.comparisons ++ [comparison], worker := .waiting }) := by
    apply grows_modClient
    · exact fun _ => rfl
    · exact fun _ => List.Subset.refl _
    · exact fun _ => List.subset_append_left _ _
    · intro c making h
      cases h
  exact hclient.trans (grows_of_same rfl rfl rfl)

/-- The comparison that is made is of the config. -/
theorem makesOf_making (h : d.MakesOf id) (hmaking : d.making name = some making) :
    making.metaSnapper = id := by
  obtain ⟨c, hc, hworker⟩ := client_of_making hmaking
  exact h c (mem_of_client hc) making hworker

end Grows

/-! ## Steps by the daemon -/

/-- The step is one of the daemon: no client's coming, going or requesting. -/
def Action.own : Action → Bool
  | .receive .. => false
  | .disconnect .. => false
  | _ => true

/-- What can be read stays the same. -/
def Action.Steady : Action → Prop
  | .spoil .. => False
  | _ => True

/-- A comparison of the `Snapper` that the config has is held. -/
def Daemon.Compared (id : Nat) (d : Daemon) : Prop :=
  ∃ m ∈ d.metaSnappers, m.id = id ∧ ∃ c ∈ d.clients, ∃ comparison ∈ c.comparisons,
    m.snapperId = some comparison.snapper

/-- The request looks at the config, or it deletes snapshots of it while a comparison is held. -/
def Daemon.Allows (configName : Str) (id : Nat) (d : Daemon) (request : Request) : Prop :=
  (request.looks = true ∧ request.configName = configName) ∨
    (d.Compared id ∧ ∃ nums, request = .deleteSnapshots configName nums)

/-- The config shows snapshots of these numbers, and no client has a request that could take one
away: the requests in the queues only look, or they delete while a comparison is held. -/
structure Harmless (configName : Str) (id : Nat) (nums : UInt32 → Prop) (d : Daemon) : Prop where
  base : d.Base
  counting : Counting d
  saved : d.Finds configName (MetaSnapper.Saved id nums)
  tasks : d.tasks = []
  background : d.background = .waiting
  alive : ∀ c ∈ d.clients, c.zombie = false
  requests : ∀ c ∈ d.clients, ∀ request ∈ c.tasks, d.Allows configName id request
  makings : d.MakesOf id

/-- What a step sends; it is `done` only where a comparison is held from then on. -/
def Daemon.Announces (id : Nat) (d d' : Daemon) : Prop :=
  ∃ msgs, d'.sent = d.sent ++ msgs ∧ ∀ name, .reply name .done ∈ msgs → d'.Compared id

section Step

variable {env : Env} {name configName : Str} {d d' : Daemon} {id : Nat} {nums : UInt32 → Prop}
  {a : Action}

theorem announces_of_same (h : d'.sent = d.sent) : d.Announces id d' :=
  ⟨[], by rw [h, List.append_nil], fun _ hmem => nomatch hmem⟩

theorem announces_send {d₁ : Daemon} {msg : Sent} (h : d₁.sent = d.sent)
    (hmsg : ∀ name, msg ≠ .reply name .done) : d.Announces id (d₁.send msg) := by
  refine ⟨[msg], by rw [Daemon.send, h], fun name hmem => ?_⟩
  exact absurd (List.mem_singleton.mp hmem).symm (hmsg name)

/-- A config that is in use keeps its `Snapper`, with which it was compared, so a comparison of it
that is held stays one of it. -/
theorem compared_step (hbase : d.Base) {m : MetaSnapper}
    (hm : m ∈ d.metaSnappers) (hid : m.id = id) (huse : m.counter ≠ 0) {c : Client}
    (hc : c ∈ (d.step a).clients) {comparison : Comparison}
    (hcomparison : comparison ∈ c.comparisons)
    (hsnapper : m.snapperId = some comparison.snapper) : (d.step a).Compared id := by
  have hloaded : m.isLoaded = true := isLoaded_iff.mpr (by simp [hsnapper])
  obtain ⟨m', hm', hkeeping⟩ := step_stays hbase hm hloaded huse a
  exact ⟨m', hm', hkeeping.id.trans hid, c, hc, comparison, hcomparison,
    hkeeping.snapperId.trans hsnapper⟩

/-- A comparison that is held counts as a use, so it is still one of the config after a step. -/
theorem Daemon.Compared.step (h : d.Compared id) (hbase : d.Base) (hcounted : Counted d)
    (hgrows : d.Grows id (d.step a)) : (d.step a).Compared id := by
  obtain ⟨m, hm, hid, c, hc, comparison, hcomparison, hsnapper⟩ := h
  have huse : m.counter ≠ 0 := hcounted.pos_of_comparison hc hcomparison hm hsnapper
  obtain ⟨c', hc', hsub⟩ := hgrows.held c hc
  exact compared_step hbase hm hid huse hc' (hsub hcomparison) hsnapper

/-- The comparison is in progress, so its config is in use, and its `Snapper` is the one compared.
-/
theorem finished_compared {making : Making} {d₁ : Daemon} {files : List DBus.SentFile}
    {num1 num2 : UInt32} (hbase : d.Base) (hcounted : Counted d) (hmakings : d.MakesOf id)
    (hmaking : d.making name = some making) (hsame : OnlyConfigs d d₁)
    (hstep : d.step a = d₁.finished env name making ⟨making.snapper, num1, num2, files⟩) :
    (d.step a).Compared id := by
  obtain ⟨c, hc, hworker⟩ := client_of_making hmaking
  obtain ⟨⟨m, hm, hsnapper⟩, -⟩ := hcounted.makings c (mem_of_client hc) making hworker
  have hid := id_of_metaSnapper hm
  -- a comparison in progress counts as a use of its config
  have huse : m.counter ≠ 0 :=
    hcounted.pos_of_making (mem_of_client hc) hworker (mem_of_metaSnapper hm) hid
  -- the client has the comparison once its worker waits again
  have hmember : { c with
      comparisons := c.comparisons ++ [⟨making.snapper, num1, num2, files⟩]
      worker := .waiting } ∈ (d.step a).clients := by
    rw [hstep]
    show _ ∈ (d₁.modClient name _).clients
    apply mem_update_self (f := fun c : Client => { c with
      comparisons := c.comparisons ++ [⟨making.snapper, num1, num2, files⟩]
      worker := .waiting })
    · rw [hsame.clients]
      exact mem_of_client hc
    · exact key_of_lookup hc
  exact compared_step hbase (mem_of_metaSnapper hm)
    (hid.trans (makesOf_making hmakings hmaking)) huse hmember
    (List.mem_append_right _ (List.mem_singleton.mpr rfl)) hsnapper

/-- What is kept by a step `d'` from `d`. -/
structure Gentle (configName : Str) (id : Nat) (nums : UInt32 → Prop) (d d' : Daemon) : Prop where
  saved : d'.Finds configName (MetaSnapper.Saved id nums)
  grows : d.Grows id d'
  announces : d.Announces id d'

theorem Harmless.refl (h : Harmless configName id nums d) : Gentle configName id nums d d :=
  ⟨h.saved, grows_of_same rfl rfl rfl, announces_of_same rfl⟩

/-- The worker takes a request that looks, or one that is refused. -/
theorem Harmless.work (h : Harmless configName id nums d) (hcounted : Counted d) :
    Gentle configName id nums d (d.work name env) := by
  have hcases : d.work name env = d ∨ _ := work_cases
  rcases hcases with hsame | ⟨client, request, rest, hclient, -, htasks, hwork⟩
  · rw [hsame]
    exact h.refl
  rw [hwork]
  show Gentle configName id nums d (dispatch env name request (d.take name))
  have hbase : (d.take name).Base := take_base h.base
  have hsaved : (d.take name).Finds configName (MetaSnapper.Saved id nums) :=
    finds_of_same rfl h.saved
  -- taking the request from the queue is no more than a change of the client
  have hgrows : d.Grows id (d.take name) := by
    apply grows_modClient
    · exact fun _ => rfl
    · exact fun c => List.tail_subset c.tasks
    · exact fun _ => List.Subset.refl _
    · exact fun _ _ hmaking => Or.inl hmaking
  obtain ⟨m, hfind, hm⟩ := h.saved
  have hmem : request ∈ client.tasks := by
    rw [htasks]
    exact List.mem_cons_self
  -- a request of this run is one that looks at the config, or a deletion that is refused
  rcases h.requests client (mem_of_client hclient) request hmem with
    ⟨hlooks, hname⟩ | ⟨⟨m', hm', hid, c, hc, comparison, hcomparison, hsnapper⟩, nums', rfl⟩
  · have hlooked : Looked env name request.configName (d.take name) _ :=
      dispatch_looks hlooks hbase.addresses
    rw [hname] at hlooked
    generalize dispatch env name request (d.take name) = d' at hlooked ⊢
    cases hlooked with
    | answered msg hmsg =>
      exact ⟨finds_of_same rfl hsaved, hgrows.trans (grows_of_same rfl rfl rfl),
        announces_send rfl hmsg⟩
    | opened id' msg hmsg =>
      refine ⟨finds_of_same rfl (finds_openedAt saved_lasting hbase hsaved), ?_, ?_⟩
      · exact (hgrows.trans openedAt_onlyConfigs.grows).trans (grows_of_same rfl rfl rfl)
      · exact announces_send openedAt_onlyConfigs.sent hmsg
    | comparing m' making hfind' hmaking =>
      obtain rfl : m = m' := Option.some.inj (hfind.symm.trans hfind')
      refine ⟨?_, ?_, ?_⟩
      · apply finds_of_same (d := incUseCount m.id _) rfl
        apply finds_modMeta (finds_openedAt saved_lasting hbase hsaved) (by intro; rfl)
        exact fun _ _ _ => saved_lasting.keeping Keeping.count rfl
      · have hopened : (d.take name).Grows id ((d.take name).openedAt env m.id) :=
          openedAt_onlyConfigs.grows
        have hcount : ((d.take name).openedAt env m.id).Grows id
            (incUseCount m.id ((d.take name).openedAt env m.id)) := grows_of_same rfl rfl rfl
        have hworker : (incUseCount m.id ((d.take name).openedAt env m.id)).Grows id
            ((incUseCount m.id ((d.take name).openedAt env m.id)).setWorker name
              (.comparing making)) := by
          apply grows_setWorker
          intro making' hsame
          cases hsame
          exact hmaking.trans hm.id
        exact ((hgrows.trans hopened).trans hcount).trans hworker
      · apply announces_of_same
        show (Daemon.openedAt env m.id _).sent = d.sent
        exact openedAt_onlyConfigs.sent
  · -- the comparison keeps the config in use
    have huse : m'.counter ≠ 0 := hcounted.pos_of_comparison hc hcomparison hm' hsnapper
    obtain rfl := eq_of_find h.base hfind (h.base.metaSnapper_of_mem hm') (hm.id.trans hid.symm)
    obtain ⟨e, hrefused⟩ : ∃ e : Exception, dispatch env name (.deleteSnapshots configName nums')
        (d.take name) = (d.take name).send (.error name e.error) :=
      dispatch_deleteSnapshots_inUse hfind huse
    rw [hrefused]
    exact ⟨finds_of_same rfl hsaved, hgrows.trans (grows_of_same rfl rfl rfl),
      announces_send rfl (by intro name h; cases h)⟩

/-- A comparison comes to an end with an error. -/
theorem announces_failed {making : Making} {e : Exception} {d₁ : Daemon} (h : d₁.sent = d.sent) :
    d.Announces id (d₁.failed env name making e) := by
  refine announces_send ?_ (by intro name h; cases h)
  show d₁.sent = d.sent
  exact h

/-- What the steps of a comparison do to clients, and what they send. -/
theorem Harmless.mountComparison (h : Harmless configName id nums d) :
    d.Grows id (d.mountComparison name env) ∧ d.Announces id (d.mountComparison name env) := by
  have hcases : d.mountComparison name env = d ∨ _ := mountComparison_cases
  rcases hcases with hsame | ⟨making, num1, num2, d₁, hmaking, -, -, -, hrest⟩
  · rw [hsame]
    exact ⟨h.refl.grows, h.refl.announces⟩
  · rcases hrest with ⟨hrun, hmounted⟩ | ⟨e, hrun, hfailed⟩
    · have honly : OnlyConfigs d d₁ := mountBoth_onlyConfigs hrun
      rw [hmounted]
      have hid : making.metaSnapper = id := makesOf_making h.makings hmaking
      refine ⟨honly.grows.trans (grows_setWorker ?_), announces_of_same honly.sent⟩
      intro making' hsame
      cases hsame
      exact hid
    · have honly : OnlyConfigs d d₁ := mountBoth_onlyConfigs hrun
      rw [hfailed]
      exact ⟨honly.grows.trans grows_failed, announces_failed honly.sent⟩

/-- The finished comparison is held from then on, and no number goes away. -/
theorem Harmless.finishComparison {files : List DBus.SentFile} (h : Harmless configName id nums d)
    (hcounted : Counted d) (hstep : d.step a = d.finishComparison name env files) :
    d.Grows id (d.step a) ∧ d.Announces id (d.step a) := by
  have hcases : d.finishComparison name env files = d ∨ _ := finishComparison_cases
  rw [← hstep] at hcases
  rcases hcases with hsame | ⟨making, num1, num2, d₁, hmaking, -, -, hrest⟩
  · rw [hsame]
    exact ⟨h.refl.grows, h.refl.announces⟩
  · rcases hrest with ⟨hrun, hfinished⟩ | ⟨e, -, hrun, hfailed⟩
    · have honly : OnlyConfigs d d₁ := by
        split at hrun
        · exact umountBoth_onlyConfigs hrun
        · rw [hrun]
          rfl
      -- from here on the client has the comparison, and the config is in use
      have hcompared : (d.step a).Compared id :=
        finished_compared h.base hcounted h.makings hmaking honly hfinished
      refine ⟨?_, [.reply name .done], ?_, fun _ _ => hcompared⟩
      · rw [hfinished]
        exact honly.grows.trans grows_finished
      · rw [hfinished]
        show d₁.sent ++ _ = _
        rw [honly.sent]
    -- an unmount has failed: the comparison is over, and an error is sent
    · have honly : OnlyConfigs d d₁ := umountBoth_onlyConfigs hrun
      rw [hfailed]
      exact ⟨honly.grows.trans grows_failed, announces_failed honly.sent⟩

/-- A failed constructor leaves the list as it is. -/
theorem Harmless.failComparison {failure : Failure} (h : Harmless configName id nums d) :
    d.Grows id (d.failComparison name env failure) ∧
      d.Announces id (d.failComparison name env failure) := by
  have hcases : d.failComparison name env failure = d ∨ _ := failComparison_cases
  rcases hcases with hsame | ⟨making, -, ⟨e, hfailed⟩ | ⟨hzombie, -⟩⟩
  · rw [hsame]
    exact ⟨h.refl.grows, h.refl.announces⟩
  · rw [hfailed]
    exact ⟨grows_failed, announces_failed rfl⟩
  · -- no client has gone
    obtain ⟨c, hc, hgone⟩ := (Option.any_eq_true _ _).mp hzombie
    rw [h.alive c (mem_of_client hc)] at hgone
    cases hgone

/-- An unload keeps the numbers, since the list is read again from a disk that can be read. -/
theorem Harmless.unload {id' : Nat} (h : Harmless configName id nums d) :
    Gentle configName id nums d (d.unload id' env) := by
  have hcases : d.unload id' env = d ∨ _ := unload_cases
  refine ⟨saved_unload h.saved, ?_, ?_⟩
  · rcases hcases with hsame | ⟨-, written, -, -, -, hend⟩ | ⟨m, -, -, -, -, hunload⟩
    · rw [hsame]
      exact h.refl.grows
    · rw [hend]
      exact grows_of_same rfl rfl rfl
    · rw [hunload]
      exact grows_of_same rfl rfl rfl
  · rcases hcases with hsame | ⟨-, written, -, -, -, hend⟩ | ⟨m, -, -, -, -, hunload⟩
    · rw [hsame]
      exact h.refl.announces
    · rw [hend]
      exact announces_of_same rfl
    · rw [hunload]
      exact announces_of_same rfl

/-- A step by the daemon keeps what is shown, and what it sends is `done` only for a comparison
that is held. -/
theorem Harmless.gentle (h : Harmless configName id nums d) (hown : a.own = true)
    (hsteady : a.Steady) : Gentle configName id nums d (d.step a) := by
  by_cases hrunning : d.aborted = true ∨ d.terminated = true
  · rw [Daemon.step.eq_def, if_pos hrunning]
    exact h.refl
  obtain ⟨-, hterminated⟩ := not_or.mp hrunning
  have hcounted : Counted d := h.counting.counted (by simpa using hterminated)
  -- a step that does not happen
  have hnothing : d.step a = d → Gentle configName id nums d (d.step a) := by
    intro hsame
    rw [hsame]
    exact h.refl
  have hturns : (∀ name env, a ≠ .work name env) → (∀ id env, a ≠ .unload id env) →
      (∀ id nums, a ≠ .spoil id nums) → d.Grows id (d.step a) ∧ d.Announces id (d.step a) →
      Gentle configName id nums d (d.step a) := fun hwork hunload hspoil hrest =>
    ⟨step_finds saved_lasting h.base hwork hunload hspoil h.saved, hrest.1, hrest.2⟩
  cases a with
  | receive name request => cases hown
  | disconnect name => cases hown
  | work name env =>
    rw [Daemon.step.eq_def, if_neg hrunning]
    exact h.work hcounted
  | endWorker name =>
    apply hnothing
    rw [Daemon.step.eq_def, if_neg hrunning]
    have hcases : d.endWorker name = d ∨ _ := endWorker_cases
    rcases hcases with hsame | ⟨client, hclient, -, hzombie, -⟩
    · exact hsame
    · rw [h.alive client (mem_of_client hclient)] at hzombie
      cases hzombie
  | mountComparison name env =>
    apply hturns (by simp) (by simp) (by simp)
    rw [Daemon.step.eq_def, if_neg hrunning]
    exact h.mountComparison
  | finishComparison name env files =>
    apply hturns (by simp) (by simp) (by simp)
    apply h.finishComparison hcounted
    rw [Daemon.step.eq_def, if_neg hrunning]
  | failComparison name env failure =>
    apply hturns (by simp) (by simp) (by simp)
    rw [Daemon.step.eq_def, if_neg hrunning]
    exact h.failComparison
  | startTask env =>
    apply hnothing
    rw [Daemon.step.eq_def, if_neg hrunning]
    simp only [Daemon.startTask, h.background, h.tasks]
  | mountTask env =>
    apply hnothing
    rw [Daemon.step.eq_def, if_neg hrunning]
    simp only [Daemon.mountTask, h.background]
  | finishTask env =>
    apply hnothing
    rw [Daemon.step.eq_def, if_neg hrunning]
    simp only [Daemon.finishTask, h.background]
  | popTask =>
    apply hnothing
    rw [Daemon.step.eq_def, if_neg hrunning]
    simp only [Daemon.popTask, h.background]
  | reap name env =>
    apply hnothing
    rw [Daemon.step.eq_def, if_neg hrunning]
    have hcases : d.reap name env = d ∨ _ := reap_cases
    rcases hcases with hsame | ⟨client, -, hclient, -, hzombie, -⟩
    · exact hsame
    · rw [h.alive client (mem_of_client hclient)] at hzombie
      cases hzombie
  | unload id' env =>
    rw [Daemon.step.eq_def, if_neg hrunning]
    exact h.unload
  | race id' num userRequest useCount =>
    apply hturns (by simp) (by simp) (by simp)
    rw [Daemon.step.eq_def, if_neg hrunning]
    exact ⟨grows_of_same rfl rfl rfl, announces_of_same rfl⟩
  | spoil id' nums => cases hsteady

/-- A comparison that is held stays held in a step of the daemon. -/
theorem Harmless.compared (h : Harmless configName id nums d) (hown : a.own = true)
    (hsteady : a.Steady) (hcompared : d.Compared id) : (d.step a).Compared id := by
  by_cases hrunning : d.aborted = true ∨ d.terminated = true
  · rw [Daemon.step.eq_def, if_pos hrunning]
    exact hcompared
  · obtain ⟨-, hterminated⟩ := not_or.mp hrunning
    have hcounted : Counted d := h.counting.counted (by simpa using hterminated)
    exact hcompared.step h.base hcounted (h.gentle hown hsteady).grows

/-- A step of the daemon under which the disks stay readable keeps the state harmless. -/
theorem Harmless.step (h : Harmless configName id nums d) (hown : a.own = true)
    (hsteady : a.Steady) : Harmless configName id nums (d.step a) := by
  have hgentle := h.gentle hown hsteady
  have hgrows := hgentle.grows
  refine ⟨step_base h.base a, h.counting.step h.base a, hgentle.saved,
    hgrows.tasks.trans h.tasks, hgrows.background.trans h.background, ?_, ?_,
    hgrows.makings h.makings⟩
  · intro c' hc'
    obtain ⟨c, hc, hzombie, -⟩ := hgrows.clients c' hc'
    exact hzombie.trans (h.alive c hc)
  · intro c' hc' request hrequest
    obtain ⟨c, hc, -, htasks⟩ := hgrows.clients c' hc'
    rcases h.requests c hc request (htasks hrequest) with hlooks | ⟨hcompared, hdeletes⟩
    · exact Or.inl hlooks
    · exact Or.inr ⟨h.compared hown hsteady hcompared, hdeletes⟩

/-! ## A request comes in -/

theorem receive_metaSnappers {request : Request} :
    (d.receive name request).metaSnappers = d.metaSnappers := by
  rw [Daemon.receive]
  split
  · rfl
  · rfl

/-- The client, which may be new, with the request behind its others. -/
theorem mem_receive {request : Request} {c' : Client}
    (hc' : c' ∈ (d.receive name request).clients) :
    ∃ c, (c ∈ d.clients ∨ c = Client.new name) ∧ c'.zombie = c.zombie ∧ c'.worker = c.worker ∧
      ∀ r ∈ c'.tasks, r ∈ c.tasks ∨ r = request := by
  obtain ⟨c, hc, hcases⟩ := mem_update hc'
  have hknown : c ∈ d.clients ∨ c = Client.new name := by
    split at hc
    · rcases List.mem_append.mp hc with hold | hnew
      · exact Or.inl hold
      · exact Or.inr (List.mem_singleton.mp hnew)
    · exact Or.inl hc
  refine ⟨c, hknown, ?_⟩
  rcases hcases with ⟨-, rfl⟩ | ⟨-, rfl⟩
  · exact ⟨rfl, rfl, fun r hr => (List.mem_append.mp hr).imp_right List.mem_singleton.mp⟩
  · exact ⟨rfl, rfl, fun r hr => Or.inl hr⟩

theorem receive_held {request : Request} {c : Client} (hc : c ∈ d.clients) :
    ∃ c' ∈ (d.receive name request).clients, c'.comparisons = c.comparisons := by
  have hknown : c ∈ (if (d.client name).isNone then
      { d with clients := d.clients ++ [Client.new name] } else d).clients := by
    split
    · exact List.mem_append_left _ hc
    · exact hc
  by_cases hname : c.name = name
  · exact ⟨_, mem_update_self (f := fun c : Client => { c with tasks := c.tasks ++ [request] })
      hknown hname, rfl⟩
  · exact ⟨c, mem_update_other hknown hname, rfl⟩

theorem Daemon.Compared.receive {request : Request} (h : d.Compared id) :
    (d.receive name request).Compared id := by
  obtain ⟨m, hm, hid, c, hc, comparison, hcomparison, hsnapper⟩ := h
  obtain ⟨c', hc', hsame⟩ : ∃ c' ∈ (d.receive name request).clients, _ := receive_held hc
  have hmember : m ∈ (d.receive name request).metaSnappers := by
    rw [receive_metaSnappers]
    exact hm
  exact ⟨m, hmember, hid, c', hc', comparison, hsame ▸ hcomparison, hsnapper⟩

/-- A request that only looks, or deletes while a comparison is held, may come. -/
theorem Harmless.receive {request : Request} (h : Harmless configName id nums d)
    (hrequest : d.Allows configName id request) :
    Harmless configName id nums (d.receive name request) := by
  have hsame : (d.receive name request).tasks = d.tasks ∧
      (d.receive name request).background = d.background ∧
      (d.receive name request).aborted = d.aborted ∧
      (d.receive name request).terminated = d.terminated := by
    rw [Daemon.receive]
    split
    · exact ⟨rfl, rfl, rfl, rfl⟩
    · exact ⟨rfl, rfl, rfl, rfl⟩
  obtain ⟨htasks, hbackground, haborted, hterminated⟩ := hsame
  -- what a client may ask for does not depend on the queue
  have hallows : ∀ r, d.Allows configName id r → (d.receive name request).Allows configName id r :=
    fun r hr => hr.imp_right fun hdeletes => ⟨hdeletes.1.receive, hdeletes.2⟩
  refine ⟨h.base.receive, ⟨haborted.trans h.counting.aborted, fun hrunning => ?_⟩,
    finds_of_same receive_metaSnappers h.saved, htasks.trans h.tasks,
    hbackground.trans h.background, ?_, ?_, ?_⟩
  · exact (h.counting.counted (hterminated.symm.trans hrunning)).receive
  · intro c' hc'
    obtain ⟨c, hc | rfl, hzombie, -⟩ := mem_receive hc'
    · exact hzombie.trans (h.alive c hc)
    · exact hzombie
  -- the request is one that was in the queue or the new one
  · intro c' hc' r hr
    obtain ⟨c, hc, -, -, htasks'⟩ := mem_receive hc'
    rcases htasks' r hr with hold | rfl
    · rcases hc with hc | rfl
      · exact hallows r (h.requests c hc r hold)
      · cases hold
    · exact hallows r hrequest
  · intro c' hc' making hmaking
    obtain ⟨c, hc | rfl, -, hworker, -⟩ := mem_receive hc'
    · exact h.makings c hc making (hworker.symm.trans hmaking)
    · have hwaiting : c'.worker = .waiting := hworker
      rw [hwaiting] at hmaking
      cases hmaking

end Step

end Snapper.Server
