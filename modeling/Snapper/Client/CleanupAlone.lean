import Snapper.Client.CleanupRun
import Snapper.Info.Loading
import Snapper.Server.Current

/-!
# A cleanup with the daemon to itself

A daemon that has just started serves a cleanup and nobody else.  It may fail in any call, unload
configs in between or not answer at all; but what can be read of the disks stays the same.

Before the first request to delete the config shows what could be read of its disk at the start;
from then on the numbers in its list only get fewer.

## Main results

* `Alone.own_step`: what such a daemon can do by itself.
* `cleanup_exact`: what a cleanup leaves.
-/

namespace Snapper.Server

open General Act

/-! ## The requests of a cleanup -/

/-- The requests that a cleanup makes. -/
inductive Request.Cleans (configName : Str) : Request → Prop
  | getConfig : Cleans configName (.getConfig configName)
  | listSnapshots : Cleans configName (.listSnapshots configName)
  | deleteSnapshots (nums : List UInt32) : Cleans configName (.deleteSnapshots configName nums)

/-- The daemon apart from configs and messages. -/
def Daemon.staff (d : Daemon) : List Desk × List Task × Background :=
  (d.clients.map Client.desk, d.tasks, d.background)

section Requests

variable {env : Env} {me configName : Str} {d d' : Daemon} {request : Request} {nums : List UInt32}
  {m : MetaSnapper}

theorem staff_of_mute {α : Type} {c : Handler α} (h : Mute c) : Leaves Daemon.staff c := fun d =>
  congrArg (fun calm => (calm.1.1, calm.2)) (h d)

theorem sendReply_staff {reply : Reply} : Leaves Daemon.staff (sendReply me reply) :=
  Leaves.modify fun _ => rfl

/-- The three requests of a cleanup leave clients, tasks and the background thread as they are. -/
theorem handle_staff (hrequest : request.Cleans configName) :
    Leaves Daemon.staff (handle env me request) := by
  cases hrequest with
  | getConfig =>
    exact (staff_of_mute findConfig_mute).bind fun _ =>
      (staff_of_mute checkPermission_mute).bind fun _ => sendReply_staff
  | listSnapshots =>
    exact (staff_of_mute openConfig_mute).bind fun _ => Leaves.read.bind fun _ => sendReply_staff
  | deleteSnapshots nums =>
    exact (staff_of_mute findConfig_mute).bind fun _ =>
      (staff_of_mute checkPermission_mute).bind fun _ =>
      (staff_of_mute checkLock_mute).bind fun _ => Leaves.throwIf.bind fun _ =>
      (staff_of_mute getSnapper_mute).bind fun _ => (staff_of_mute deleteAll_mute).bind fun _ =>
      sendReply_staff.bind fun _ => Leaves.modify fun _ => rfl

/-- So does sending their answers. -/
theorem dispatch_staff (hrequest : request.Cleans configName) :
    (dispatch env me request d).staff = d.staff := by
  have hleaves : (handle env me request |>.run d).2.staff = d.staff := handle_staff hrequest d
  rw [dispatch]
  cases hrun : (handle env me request).run d with
  | mk r d' =>
    rw [hrun] at hleaves
    cases r with
    | ok _ => exact hleaves
    | error e => exact hleaves

/-- What cannot be read of the disks, by the addresses of the configs. -/
def Daemon.unreadable (d : Daemon) : List (Nat × List UInt32) :=
  d.metaSnappers.map fun m => (m.id, m.disk.unreadable)

theorem unreadable_modMeta {id : Nat} {f : MetaSnapper → MetaSnapper}
    (hf : ∀ m, ((f m).id, (f m).disk.unreadable) = (m.id, m.disk.unreadable)) :
    (d.modMeta id f).unreadable = d.unreadable := map_update hf

theorem unreadable_of_same (h : d'.metaSnappers = d.metaSnappers) :
    d'.unreadable = d.unreadable := congrArg (List.map _) h

theorem call_unreadable {c : Call} : Leaves Daemon.unreadable (call env c) := by
  rw [call]
  split
  · exact Leaves.pure
  · exact Leaves.throw

theorem checkPermission_unreadable : Leaves Daemon.unreadable (checkPermission env m) :=
  (call_unreadable.bind fun _ => Leaves.pure).bind fun _ => Leaves.throwIf

theorem findConfig_unreadable : Leaves Daemon.unreadable (findConfig configName) := by
  apply Leaves.read.bind
  intro m
  cases m with
  | none => exact Leaves.throw
  | some m => exact Leaves.pure

theorem sendReply_unreadable {reply : Reply} : Leaves Daemon.unreadable (sendReply me reply) :=
  Leaves.modify fun _ => rfl

/-- Loading a config reads what can be read, and does not change what that is. -/
theorem getSnapper_unreadable {id : Nat} : Leaves Daemon.unreadable (getSnapper env id) := by
  have huse : Leaves Daemon.unreadable
      (Act.modify (Daemon.modMeta id fun m => { m with lastUsed := env.now }) : Handler PUnit) :=
    Leaves.modify fun _ => unreadable_modMeta (by intro; rfl)
  have hload : Leaves Daemon.unreadable (Act.modify (Daemon.load id) : Handler PUnit) :=
    Leaves.modify fun d => unreadable_modMeta (d := d) (by intro; rfl)
  apply Leaves.read.bind
  intro found
  cases found with
  | none => exact Leaves.pure
  | some m =>
    apply Leaves.ite huse
    exact call_unreadable.bind fun _ => hload.bind fun _ => huse

/-- Deleting snapshots does not make entries unreadable, nor readable again. -/
theorem deleteAll_unreadable : Leaves Daemon.unreadable (deleteAll env m nums) := by
  have hdelete : ∀ s, Leaves Daemon.unreadable (deleteSnapshot env m.id s) := by
    intro s
    cases s with
    | none => exact Leaves.throw
    | some s =>
      apply Leaves.ite Leaves.throw
      apply call_unreadable.bind
      intro _
      apply Leaves.bind (Leaves.modify fun _ => unreadable_modMeta (by intro; rfl))
      intro _
      apply call_unreadable.bind
      exact fun _ => Leaves.modify fun _ => unreadable_modMeta (by intro; rfl)
  induction nums with
  | nil => exact Leaves.pure
  | cons num nums ih =>
    exact (Leaves.read.bind fun _ => Leaves.throwIf).bind fun _ => Leaves.read.bind fun s =>
      (hdelete s).bind fun _ => ih

/-- The requests of a cleanup leave it as it is. -/
theorem dispatch_unreadable (hrequest : request.Cleans configName) :
    (dispatch env me request d).unreadable = d.unreadable := by
  have hhandle : Leaves Daemon.unreadable (handle env me request) := by
    -- along the text of the three handlers
    cases hrequest with
    | getConfig =>
      exact findConfig_unreadable.bind fun _ => checkPermission_unreadable.bind fun _ =>
        sendReply_unreadable
    | listSnapshots =>
      exact (findConfig_unreadable.bind fun _ => checkPermission_unreadable.bind fun _ =>
        getSnapper_unreadable.bind fun _ => Leaves.pure).bind fun _ =>
          Leaves.read.bind fun _ => sendReply_unreadable
    | deleteSnapshots nums =>
      exact findConfig_unreadable.bind fun _ => checkPermission_unreadable.bind fun _ =>
        (Leaves.read.bind fun _ => Leaves.throwIf).bind fun _ => Leaves.throwIf.bind fun _ =>
        getSnapper_unreadable.bind fun _ => deleteAll_unreadable.bind fun _ =>
        sendReply_unreadable.bind fun _ => Leaves.modify fun _ => rfl
  have hleaves := hhandle d
  rw [dispatch]
  cases hrun : (handle env me request).run d with
  | mk r d' =>
    rw [hrun] at hleaves
    cases r with
    | ok _ => exact hleaves
    | error e => exact hleaves

/-- A request to delete takes numbers from the list; when all goes well, these. -/
theorem deleteSnapshots_numbers (hd : d.Base) :
    ((deleteSnapshots env me configName nums).run d).2.numbers configName ⊆ d.numbers configName ∧
      (((deleteSnapshots env me configName nums).run d).1 = .ok ⟨⟩ →
        ((deleteSnapshots env me configName nums).run d).2.numbers configName =
          d.numbers configName \ nums.toFinset) := by
  by_cases hcomes : ∃ m, Opens env configName d m ∧ d.lockedByOther me configName = false ∧
      m.counter = 0
  -- all checks in front of the loop are passed: peel them off, down to the loop over the numbers
  · obtain ⟨m, hopens, hlocked, hcounter⟩ := hcomes
    obtain ⟨m', hlists, hid, -⟩ := lists_opened hd hopens
    have hlock : (checkLock me configName).run d = (.ok ⟨⟩, d) := by
      simp [checkLock, Act.run_bind, hlocked, Act.throwIf]
    have hinUse : (checkConfigInUse m).run d = (.ok ⟨⟩, d) := by
      simp [checkConfigInUse, hcounter, Act.throwIf]
    have hload := getSnapper_run (hd.addresses.metaSnapper_of_find hopens.find) hopens.loads
    have hopened : (d.opened env m).numbers configName = d.numbers configName :=
      (unheard_opened hd hopens.find).numbers
    rw [deleteSnapshots, Act.run_bind_ok (findConfig_run hopens.find),
      Act.run_bind_ok (checkPermission_run hopens.permitted), Act.run_bind_ok hlock,
      Act.run_bind_ok hinUse, Act.run_bind_ok hload]
    have hloop : (AllGo env configName (d.opened env m) nums ∧ ∃ d',
        (deleteAll env m nums).run (d.opened env m) = _ ∧ _) ∨ _ :=
      deleteAll_outcome hlists (configName_of_find hopens.find) hid
    -- either every number is deleted or the loop stops with an error after some of them
    rcases hloop with ⟨-, d₁, hrun, -, hnumbers⟩ | ⟨-, e, d₁, hrun, hshrunk⟩
    · rw [Act.run_bind_ok hrun, ← hopened, ← hnumbers]
      refine ⟨?_, fun _ => rfl⟩
      show d₁.numbers configName ⊆ _
      rw [hnumbers]
      exact Finset.sdiff_subset
    · rw [Act.run_bind_error hrun, ← hopened]
      exact ⟨hshrunk.numbers, by intro h; cases h⟩
  -- one of the checks refuses the request
  · obtain ⟨e, hrun⟩ : ∃ e, (deleteSnapshots env me configName nums).run d = (.error e, d) :=
      deleteSnapshots_refused hd hcomes
    rw [hrun]
    exact ⟨subset_rfl, by intro h; cases h⟩

theorem numbers_of_same (h : d'.metaSnappers = d.metaSnappers) :
    d'.numbers configName = d.numbers configName := by
  rw [Daemon.numbers, Daemon.numbers, Daemon.find, Daemon.find, h]

/-- GetConfig only looks: it does not even load the config. -/
theorem getConfig_metaSnappers : Leaves Daemon.metaSnappers (getConfig env me configName) := by
  apply Leaves.bind
  · apply Leaves.read.bind
    intro m
    cases m with
    | none => exact Leaves.throw
    | some m => exact Leaves.pure
  intro m
  apply Leaves.bind
  · apply Leaves.bind
    · apply Leaves.bind
      · rw [call]
        split
        · exact Leaves.pure
        · exact Leaves.throw
      · exact fun _ => Leaves.pure
    · exact fun _ => Leaves.throwIf
  · exact fun _ => Leaves.modify fun _ => rfl

/-- No request of a cleanup adds to the list. -/
theorem dispatch_numbers (hd : d.Base) (hrequest : request.Cleans configName) :
    (dispatch env me request d).numbers configName ⊆ d.numbers configName := by
  have hhandle : ((handle env me request).run d).2.numbers configName ⊆ d.numbers configName := by
    -- a look at the list may load the config, which does not change it
    cases hrequest with
    | getConfig =>
      have hsame : (handle env me (.getConfig configName) |>.run d).2.metaSnappers =
          d.metaSnappers := getConfig_metaSnappers d
      exact (numbers_of_same hsame).subset
    | listSnapshots =>
      by_cases hopens : ∃ m, Opens env configName d m
      · obtain ⟨m, hm⟩ := hopens
        rw [(listSnapshots_numbers hd hm).1]
        have hopened : (d.opened env m).numbers configName = d.numbers configName :=
          (unheard_opened hd hm.find).numbers
        exact hopened.subset
      · obtain ⟨e, hrefused⟩ : ∃ e, (openConfig env configName).run d = (.error e, d) :=
          openConfig_run_not hd.addresses (not_exists.mp hopens)
        show ((listSnapshots env me configName).run d).2.numbers configName ⊆ _
        rw [listSnapshots, run_bind_error hrefused]
    | deleteSnapshots nums => exact (deleteSnapshots_numbers hd).1
  rw [dispatch]
  cases hrun : (handle env me request).run d with
  | mk r d' =>
    rw [hrun] at hhandle
    cases r with
    | ok _ => exact hhandle
    | error e => exact hhandle

/-- The numbers are gone when the client is told so. -/
theorem deleteSnapshots_answer (hd : d.Base)
    (hnext : d.next me = some (.deleteSnapshots configName nums)) {reply : Reply}
    (hmail : (d.step (.work me env)).mail me = d.mail me ++ [.reply me reply]) :
    ∀ num ∈ nums, num ∉ (d.step (.work me env)).numbers configName := by
  obtain ⟨d', hrun, hstep⟩ := handle_of_reply hnext hmail
  replace hrun : (deleteSnapshots env me configName nums).run (d.take me) = (.ok ⟨⟩, d') := hrun
  have htaken : (d.take me).Base := hd.take
  obtain ⟨-, hnumbers⟩ : _ ∧ (((deleteSnapshots env me configName nums).run (d.take me)).1 =
      .ok ⟨⟩ → _) := deleteSnapshots_numbers htaken
  rw [hrun] at hnumbers
  intro num hnum hmem
  rw [hstep, hnumbers rfl] at hmem
  exact (Finset.mem_sdiff.mp hmem).2 (List.mem_toFinset.mpr hnum)

end Requests

/-! ## One client -/

/-- The entries that can be read. -/
def Visible (d : Daemon) : Entries := fun id _ num => ∀ e ∈ d.unreadable, e.1 = id → num ∉ e.2

/-- The only client makes a cleanup, nothing goes on in the background, and the configs are in
order. -/
structure Alone (name configName : Str) (Q : Request → Prop) (d : Daemon) : Prop where
  base : d.Base
  begins : ∀ m ∈ d.metaSnappers, m.Begins
  coherent : d.Coherent (Visible d) fun _ _ => False
  clients : ∀ c ∈ d.clients, c.name = name ∧ c.worker = .waiting ∧ c.zombie = false
  requests : ∀ c ∈ d.clients, ∀ request ∈ c.tasks, Q request
  tasks : d.tasks = []
  background : d.background = .waiting

section Alone

variable {env : Env} {name configName : Str} {Q : Request → Prop} {d d' : Daemon} {a : Action}
  {request : Request} {m : MetaSnapper}

/-- A snapshot is visible when its entry is not among the unreadable ones of its config. -/
theorem visible_iff {num : UInt32} (hbase : d.Base) (hm : m ∈ d.metaSnappers) :
    Visible d m.id configName num ↔ num ∉ m.disk.unreadable := by
  constructor
  · intro h
    exact h _ (List.mem_map_of_mem hm) rfl
  · rintro h e he hid
    obtain ⟨m', hm', rfl⟩ := List.mem_map.mp he
    rwa [List.inj_on_of_nodup_map hbase.addresses.ids hm' hm hid]

/-- A daemon without objects -/
theorem initial_visible (h : d.Initial) : d.Coherent (Visible d) fun _ _ => False where
  base := h.base
  coherent m hm := coherent_unloaded (h.unloaded m hm)
  legible _ hm _ := (visible_iff h.base hm).mp
  held _ _ h := h.elim

theorem Alone.client (h : Alone name configName Q d) {me : Str} {c : Client}
    (hc : d.client me = some c) : c.worker = .waiting ∧ c.zombie = false :=
  (h.clients c (mem_of_client hc)).2

theorem Alone.endWorker (h : Alone name configName Q d) {me : Str} : d.endWorker me = d := by
  have hcases : d.endWorker me = d ∨ _ := endWorker_cases
  rcases hcases with hsame | ⟨c, hc, -, hzombie, -⟩
  · exact hsame
  · rw [(h.client hc).2] at hzombie
    cases hzombie

theorem Alone.reap (h : Alone name configName Q d) {me : Str} : d.reap me env = d := by
  have hcases : d.reap me env = d ∨ _ := reap_cases
  rcases hcases with hsame | ⟨c, d₁, hc, hworker, -⟩
  · exact hsame
  · rw [(h.client hc).1] at hworker
    cases hworker

/-- No comparison is being made. -/
theorem Alone.comparisons (h : Alone name configName Q d) {me : Str} :
    d.mountComparison me env = d ∧ (∀ files, d.finishComparison me env files = d) ∧
      ∀ failure, d.failComparison me env failure = d := by
  have hmaking : d.making me = none := by
    by_contra hsome
    obtain ⟨making, hmaking⟩ := Option.ne_none_iff_exists'.mp hsome
    obtain ⟨c, hc, hworker⟩ := client_of_making hmaking
    rw [(h.client hc).1] at hworker
    cases hworker
  refine ⟨?_, fun files => ?_, fun failure => ?_⟩
  · rw [Daemon.mountComparison, hmaking]
  · rw [Daemon.finishComparison, hmaking]
  · rw [Daemon.failComparison, hmaking]

theorem Alone.background_idle (h : Alone name configName Q d) :
    d.startTask env = d ∧ d.mountTask env = d ∧ d.finishTask env = d := by
  refine ⟨?_, ?_, ?_⟩
  · rw [Daemon.startTask, h.background, h.tasks]
  · rw [Daemon.mountTask, h.background]
  · rw [Daemon.finishTask, h.background]

theorem Alone.popTask (h : Alone name configName Q d) : d.popTask = d := by
  rw [Daemon.popTask, h.background]

/-- What a daemon with one client can do by itself is to serve it or to unload a config, apart
from a count that is lost. -/
theorem Alone.own_step (h : Alone name configName Q d) (hown : a.own = true)
    (hsteady : a.Steady) : d.step a = d ∨
    (∃ env request, a = .work name env ∧ d.next name = some request ∧ Q request) ∨
      (∃ id env, a = .unload id env ∧ d.step a = d.unload id env) ∨
      ∃ id num userRequest useCount, a = .race id num userRequest useCount ∧
        d.step a = d.race id num userRequest useCount := by
  have hsame : ∀ {d₁ : Daemon}, d₁ = d → (if d.aborted ∨ d.terminated then d else d₁) = d := by
    rintro d₁ rfl
    exact ite_self _
  -- one case per action: there is no comparison, no task and no zombie for the others to work on
  cases a with
  | receive => cases hown
  | disconnect => cases hown
  | work me env =>
    cases hnext : d.next me with
    | none => exact Or.inl (step_work_none hnext)
    | some request =>
      obtain ⟨c, hc, rfl, hmem⟩ := mem_of_next hnext
      rw [(h.clients c hc).1] at hnext ⊢
      exact Or.inr (Or.inl ⟨env, request, rfl, hnext, h.requests c hc request hmem⟩)
  | unload id env =>
    rw [Daemon.step.eq_def]
    split
    · exact Or.inl rfl
    · exact Or.inr (Or.inr (Or.inl ⟨id, env, rfl, rfl⟩))
  | race id num userRequest useCount =>
    rw [Daemon.step.eq_def]
    split
    · exact Or.inl rfl
    · exact Or.inr (Or.inr (Or.inr ⟨id, num, userRequest, useCount, rfl, rfl⟩))
  | spoil => cases hsteady
  -- what is left needs a thread that is not there
  | endWorker => exact Or.inl (hsame h.endWorker)
  | mountComparison => exact Or.inl (hsame h.comparisons.1)
  | finishComparison _ _ files => exact Or.inl (hsame (h.comparisons.2.1 files))
  | failComparison _ _ failure => exact Or.inl (hsame (h.comparisons.2.2 failure))
  | startTask => exact Or.inl (hsame h.background_idle.1)
  | mountTask => exact Or.inl (hsame h.background_idle.2.1)
  | finishTask => exact Or.inl (hsame h.background_idle.2.2)
  | popTask => exact Or.inl (hsame h.popTask)
  | reap => exact Or.inl (hsame h.reap)

/-- A change of another config leaves the numbers of this one. -/
theorem numbers_modMeta_other {id : Nat} {f : MetaSnapper → MetaSnapper}
    (hname : ∀ m, (f m).configName = m.configName)
    (hother : ∀ m, d.find configName = some m → m.id ≠ id) :
    (d.modMeta id f).numbers configName = d.numbers configName := by
  rw [Daemon.numbers, find_modMeta hname, Daemon.numbers]
  cases hfind : d.find configName with
  | none => rfl
  | some m => rw [Option.map_some, if_neg (hother m hfind)]

/-- What is shown while some of the list is written. -/
theorem shown_writes {written : List Snapshot} (hwritten : ∀ s ∈ written, s ∈ m.snapshots) :
    ({ m with disk := written.foldl (fun disk s => disk.write s) m.disk } : MetaSnapper).shown =
      m.shown := by
  cases hsnapper : m.snapper with
  | some loaded => simp [MetaSnapper.shown, hsnapper]
  | none =>
    -- there is no list of which something could be written
    have hnone : written = [] := by
      refine List.eq_nil_iff_forall_not_mem.mpr fun s hs => ?_
      have hmem := hwritten s hs
      rw [MetaSnapper.snapshots, hsnapper] at hmem
      cases hmem
    rw [hnone, shown_of_unloaded hsnapper]
    rfl

/-- What an unload leaves was in the list. -/
theorem Alone.unload_numbers (h : Alone name configName Q d) {id : Nat} :
    (d.unload id env).numbers configName ⊆ d.numbers configName := by
  have hcases : d.unload id env = d ∨ _ := unload_cases
  rcases hcases with hsame | ⟨m, written, hm, -, hwritten, hend⟩ | ⟨m, hm, hloaded, -, -, hunload⟩
  · rw [hsame]
  · -- the list is still there, only the disk has changed
    have hunheard : Unheard configName d (d.writeInfos id written) := by
      apply unheard_modMeta (by intro; rfl)
      intro m' hfind hid
      obtain rfl := eq_of_find h.base hfind hm hid
      exact congrArg (List.map Snapshot.num) (shown_writes fun s hs => (hwritten s hs).1)
    rw [hend]
    exact (hunheard.trans unheard_terminate).numbers.subset
  rw [hunload]
  by_cases hfound : ∃ m₀, d.find configName = some m₀ ∧ m₀.id = id
  · obtain ⟨m₀, hfind, hid⟩ := hfound
    have hsame := h.base.addresses.metaSnapper_of_find hfind
    rw [hid, hm] at hsame
    obtain rfl := Option.some.inj hsame
    rw [numbers_unloaded hfind hid, Daemon.numbers, hfind]
    have hmem := mem_of_find hfind
    intro num hnum
    rw [List.mem_toFinset, List.mem_map] at hnum
    obtain ⟨s, hs, hnum⟩ := hnum
    show num ∈ (m.shown.map Snapshot.num).toFinset
    rw [List.mem_toFinset, List.mem_map, shown_of_loaded hloaded]
    rcases mem_read.mp hs with rfl | hread
    · obtain ⟨rest, hlist, -⟩ := (h.begins m hmem).list hloaded
      exact ⟨Snapshot.current, by rw [hlist]; exact List.mem_cons_self, hnum⟩
    · obtain ⟨hinfo, hreadable⟩ := mem_readable.mp hread
      rw [MetaSnapper.written, unreadable_writes] at hreadable
      rcases of_writes_infos ⟨s, hinfo, hnum⟩ with ⟨s', hs', hnum'⟩ | ⟨s', hs', hnum'⟩
      · have hvisible : Visible d m.id m.configName s'.num := by
          rw [visible_iff h.base hmem, hnum', ← hnum]
          exact hreadable
        obtain ⟨s'', hs'', hsame⟩ := (h.coherent.coherent m hmem).listed hloaded s' hs' hvisible
        exact ⟨s'', hs'', hsame.trans hnum'⟩
      · exact ⟨s', (List.mem_filter.mp hs').1, hnum'⟩
  · -- another config
    exact (numbers_modMeta_other (by intro; rfl) fun m₀ hfind hid =>
      hfound ⟨m₀, hfind, hid⟩).subset

theorem race_numbers {id : Nat} {num : UInt32} {userRequest : Bool} {useCount : UInt32} :
    (d.race id num userRequest useCount).numbers configName = d.numbers configName :=
  (unheard_modSnapshot raced_num).numbers

/-- Numbers only go. -/
theorem Alone.step_numbers (h : Alone name configName Q d) (hown : a.own = true)
    (hsteady : a.Steady) (hQ : ∀ request, Q request → request.Cleans configName) :
    (d.step a).numbers configName ⊆ d.numbers configName := by
  rcases h.own_step hown hsteady with hsame | ⟨env, request, rfl, hnext, hrequest⟩ |
    ⟨id, env, rfl, hstep⟩ | ⟨id, num, userRequest, useCount, rfl, hstep⟩
  · rw [hsame]
  · rw [step_work hnext]
    exact dispatch_numbers h.base.take (hQ request hrequest)
  · rw [hstep]
    exact h.unload_numbers
  · rw [hstep, race_numbers]

/-- Taking a request off its queue leaves name, worker and zombie mark of each client. -/
theorem staff_take {c' : Client} (hstaff : d'.staff = (d.take name).staff) (hc' : c' ∈ d'.clients) :
    ∃ c ∈ d.clients, c.name = c'.name ∧ c.worker = c'.worker ∧ c.zombie = c'.zombie := by
  have hmem : c'.desk ∈ (d.take name).clients.map Client.desk := by
    have hdesks : d'.clients.map Client.desk = (d.take name).clients.map Client.desk :=
      congrArg Prod.fst hstaff
    rw [← hdesks]
    exact List.mem_map_of_mem hc'
  obtain ⟨c₁, hc₁, hdesk⟩ := List.mem_map.mp hmem
  have hname : c₁.name = c'.name := congrArg Desk.name hdesk
  have hworker : c₁.worker = c'.worker := congrArg Desk.worker hdesk
  have hzombie : c₁.zombie = c'.zombie := congrArg Desk.zombie hdesk
  obtain ⟨c, hc, ⟨-, rfl⟩ | ⟨-, rfl⟩⟩ := mem_update hc₁
  · exact ⟨c, hc, hname, hworker, hzombie⟩
  · exact ⟨c₁, hc, hname, hworker, hzombie⟩

/-- The requests of a cleanup make no config. -/
theorem Alone.reads (h : Alone name configName Q d) (hsteady : a.Steady)
    (hQ : ∀ request, Q request → request.Cleans configName) {configName' : Str} {num : UInt32} :
    a.Reads configName' num d := by
  cases a with
  | work me env =>
    intro request hnext
    obtain ⟨c, hc, -, hmem⟩ := mem_of_next hnext
    cases hQ request (h.requests c hc request hmem) with
    | _ => trivial
  | spoil => cases hsteady
  | _ => trivial

/-- A daemon that is alone with a cleanup does not change what can be read by any step of its own.
-/
theorem Alone.step_unreadable (h : Alone name configName Q d) (hown : a.own = true)
    (hsteady : a.Steady) (hQ : ∀ request, Q request → request.Cleans configName) :
    (d.step a).unreadable = d.unreadable := by
  rcases h.own_step hown hsteady with hsame | ⟨env, request, rfl, hnext, hrequest⟩ |
    ⟨id, env, rfl, hstep⟩ | ⟨id, num, userRequest, useCount, rfl, hstep⟩
  · rw [hsame]
  · rw [step_work hnext]
    exact dispatch_unreadable (hQ request hrequest)
  · rw [hstep]
    have hcases : d.unload id env = d ∨ _ := unload_cases
    rcases hcases with hsame | ⟨m, written, -, -, -, hend⟩ | ⟨m, -, -, -, -, hunload⟩
    · rw [hsame]
    · rw [hend]
      exact unreadable_modMeta fun m => by rw [unreadable_writes]
    · rw [hunload]
      exact unreadable_modMeta fun m => by rw [unreadable_writes]
  · rw [hstep]
    exact unreadable_modMeta (by intro; rfl)

theorem visible_of_same (h : d'.unreadable = d.unreadable) : Visible d' = Visible d := by
  funext id configName num
  rw [Visible, Visible, h]

/-- With only clients of the one name and no task the daemon stays like that through its own
steps, and what they do to the queue and to the list is within what the requests ask for. -/
theorem Alone.step (h : Alone name configName Q d) (hown : a.own = true) (hsteady : a.Steady)
    (hQ : ∀ request, Q request → request.Cleans configName) :
    Alone name configName Q (d.step a) := by
  have hcoherent : (d.step a).Coherent (Visible d) fun _ _ => False :=
    step_coherent h.coherent (fun _ _ _ _ _ _ _ h => h.elim) fun _ _ _ _ => h.reads hsteady hQ
  -- serving a request and unloading leave the client and the background thread where they are
  have hrest : (∀ c ∈ (d.step a).clients,
      c.name = name ∧ c.worker = .waiting ∧ c.zombie = false) ∧ (d.step a).tasks = [] ∧
      (d.step a).background = .waiting := by
    rcases h.own_step hown hsteady with hsame | ⟨env, request, rfl, hnext, hrequest⟩ |
      ⟨id, env, rfl, hstep⟩ | ⟨id, num, userRequest, useCount, rfl, hstep⟩
    · rw [hsame]
      exact ⟨h.clients, h.tasks, h.background⟩
    · have hstaff : (d.step (.work name env)).staff = (d.take name).staff := by
        rw [step_work hnext]
        exact dispatch_staff (hQ request hrequest)
      refine ⟨fun c' hc' => ?_, ?_, ?_⟩
      · obtain ⟨c, hc, hname, hworker, hzombie⟩ := staff_take hstaff hc'
        rw [← hname, ← hworker, ← hzombie]
        exact h.clients c hc
      · exact (congrArg (fun staff => staff.2.1) hstaff).trans h.tasks
      · exact (congrArg (fun staff => staff.2.2) hstaff).trans h.background
    · rw [hstep]
      have hcases : d.unload id env = d ∨ _ := unload_cases
      rcases hcases with hsame | ⟨m, written, -, -, -, hend⟩ | ⟨m, -, -, -, -, hunload⟩
      · rw [hsame]
        exact ⟨h.clients, h.tasks, h.background⟩
      · rw [hend]
        exact ⟨h.clients, h.tasks, h.background⟩
      · rw [hunload]
        exact ⟨h.clients, h.tasks, h.background⟩
    · rw [hstep]
      exact ⟨h.clients, h.tasks, h.background⟩
  -- the two invariants of every step, and the queue, which gets no requests by itself
  refine ⟨hcoherent.base, event_begins (.step a) h.begins, ?_, hrest.1, ?_, hrest.2.1, hrest.2.2⟩
  · rw [visible_of_same (h.step_unreadable hown hsteady hQ)]
    exact hcoherent
  · intro c' hc' request hrequest
    obtain ⟨c, hc, -, hsub⟩ := own_requests h.base hown c' hc'
    exact h.requests c hc request (hsub hrequest)

theorem step_receive_metaSnappers (d : Daemon) :
    (d.step (.receive name request)).metaSnappers = d.metaSnappers := by
  rw [Daemon.step.eq_def]
  split
  · rfl
  · exact receive_metaSnappers

theorem receive_unreadable : (d.step (.receive name request)).unreadable = d.unreadable :=
  unreadable_of_same (step_receive_metaSnappers d)

/-- A request of the expected kind that comes in leaves the daemon alone with its client, also
when it is the first message, for which the client is made. -/
theorem Alone.receive (h : Alone name configName Q d) (hrequest : Q request) :
    Alone name configName Q (d.step (.receive name request)) := by
  have hcoherent : (d.step (.receive name request)).Coherent (Visible d) fun _ _ => False :=
    step_coherent h.coherent (fun _ _ _ _ _ _ _ h => h.elim) fun _ _ _ _ => trivial
  have hbegins : ∀ m ∈ (d.step (.receive name request)).metaSnappers, m.Begins :=
    event_begins (.step (.receive name request)) h.begins
  refine ⟨hcoherent.base, hbegins, ?_, ?_, ?_, ?_, ?_⟩
  · rw [visible_of_same receive_unreadable]
    exact hcoherent
  all_goals
    rw [Daemon.step.eq_def]
    split
  · exact h.clients
  -- queueing the request keeps what is known of the clients, whether or not there is a new one
  · have hqueue : ∀ d : Daemon, (∀ c ∈ d.clients, c.name = name ∧ c.worker = .waiting ∧
        c.zombie = false) → ∀ c ∈ (d.modClient name fun c =>
          { c with tasks := c.tasks ++ [request] }).clients,
            c.name = name ∧ c.worker = .waiting ∧ c.zombie = false := by
      intro d hall c' hc'
      obtain ⟨c, hc, ⟨-, rfl⟩ | ⟨-, rfl⟩⟩ := mem_update hc'
      · exact hall c hc
      · exact hall c' hc
    show ∀ c ∈ (d.receive name request).clients, _
    rw [Daemon.receive]
    split
    · apply hqueue
      intro c hc
      rcases List.mem_append.mp hc with hold | hnew
      · exact h.clients c hold
      · rw [List.mem_singleton.mp hnew]
        exact ⟨rfl, rfl, rfl⟩
    · exact hqueue d h.clients
  · exact h.requests
  · exact receive_requests hrequest h.requests
  · exact h.tasks
  · show (d.receive name request).tasks = []
    rw [Daemon.receive]
    split
    · exact h.tasks
    · exact h.tasks
  · exact h.background
  · show (d.receive name request).background = .waiting
    rw [Daemon.receive]
    split
    · exact h.background
    · exact h.background

/-! ## Before anything is deleted -/

/-- The requests before the first one to delete. -/
def Looks (configName : Str) (request : Request) : Prop :=
  request = .getConfig configName ∨ request = .listSnapshots configName

theorem Looks.cleans (h : Looks configName request) : request.Cleans configName := by
  rcases h with rfl | rfl
  · exact .getConfig
  · exact .listSnapshots

/-- A snapshot as if nobody had mounted it -/
def unmounted (s : Snapshot) : Snapshot :=
  { s with mountChecked := false, mountUserRequest := false, mountUseCount := 0 }

/-- The config shows, apart from mounts, what its disk had and still has. -/
def Untouched (configName : Str) (m : MetaSnapper) (d : Daemon) : Prop :=
  ∃ m', d.find configName = some m' ∧ m'.id = m.id ∧ m'.disk = m.disk ∧
    m'.shown.map unmounted = m.disk.read

theorem read_unmounted (hdisk : m.disk.WF) : m.disk.read.map unmounted = m.disk.read := by
  refine (List.map_congr_left fun s hs => ?_).trans (List.map_id _)
  rcases mem_read.mp hs with rfl | hread
  · rfl
  · rw [← hdisk.stored s (mem_infos_of_readable hread)]
    rfl

theorem untouched_of_same (hmetas : d'.metaSnappers = d.metaSnappers)
    (h : Untouched configName m d) : Untouched configName m d' := by
  rw [Untouched, Daemon.find, hmetas]
  exact h

theorem Untouched.numbers (h : Untouched configName m d) :
    d.numbers configName = (m.disk.read.map Snapshot.num).toFinset := by
  obtain ⟨m', hfind, -, -, hshown⟩ := h
  have hnums : m'.shown.map Snapshot.num = m.disk.read.map Snapshot.num := by
    rw [← hshown, List.map_map]
    rfl
  rw [Daemon.numbers, hfind, ← hnums]

/-- Nothing is pending in a list that is as it was read. -/
theorem unmodified_of_shown {m' : MetaSnapper} (hwf : m.disk.WF) (hloaded : m'.isLoaded = true)
    (hshown : m'.shown.map unmounted = m.disk.read) :
    ∀ s ∈ m'.snapshots, s.infoModified = false := by
  intro s hs
  have hmem : unmounted s ∈ m.disk.read := by
    rw [← hshown, shown_of_loaded hloaded]
    exact List.mem_map_of_mem hs
  show (unmounted s).infoModified = false
  rcases mem_read.mp hmem with hcurrent | hread
  · rw [hcurrent]
    rfl
  · rw [← hwf.stored _ (mem_infos_of_readable hread)]
    rfl

/-- An unload writes the infos that are pending, of which an untouched config has none, and the
list is read again as it was. -/
theorem Untouched.unload {id : Nat} (hbase : d.Base) (h : Untouched configName m d) :
    Untouched configName m (d.unload id env) := by
  have hcases : d.unload id env = d ∨ _ := unload_cases
  obtain ⟨m', hfind, hid, hdisk, hshown⟩ := h
  have hm' := hbase.addresses.metaSnapper_of_find hfind
  have hwf : m.disk.WF := hdisk ▸ (hbase.numbered m' (mem_of_find hfind)).disk
  rcases hcases with hsame | ⟨m₁, written, hm₁, -, hwritten, hend⟩ |
    ⟨m₁, hm₁, hloaded, -, -, hunload⟩
  · rw [hsame]
    exact ⟨m', hfind, hid, hdisk, hshown⟩
  -- the destructor throws half way: it has written a part of the pending infos
  · rw [hend]
    apply untouched_of_same (d := d.writeInfos id written) rfl
    refine ⟨_, (find_modMeta (by intro; rfl)).trans (congrArg _ hfind), ?_⟩
    dsimp only
    split
    · next hsame =>
      rw [hsame, hm₁] at hm'
      obtain rfl := Option.some.inj hm'
      have hnone : written = [] := by
        refine List.eq_nil_iff_forall_not_mem.mpr fun s hs => ?_
        obtain ⟨hmem, hmodified, -⟩ := hwritten s hs
        rw [unmodified_of_shown hwf (isLoaded_of_mem hmem) hshown s hmem] at hmodified
        cases hmodified
      rw [hnone]
      exact ⟨hid, hdisk, hshown⟩
    · exact ⟨hid, hdisk, hshown⟩
  -- it comes to its end: the config is no longer loaded
  rw [hunload]
  refine ⟨_, (find_modMeta (by intro; rfl)).trans (congrArg _ hfind), ?_⟩
  dsimp only
  split
  · next hsame =>
    rw [hsame, hm₁] at hm'
    obtain rfl := Option.some.inj hm'
    have hnone : m₁.snapshots.filter Snapshot.infoModified = [] := by
      refine List.filter_eq_nil_iff.mpr fun s hs hmodified => ?_
      rw [unmodified_of_shown hwf hloaded hshown s hs] at hmodified
      cases hmodified
    rw [hnone]
    refine ⟨hid, hdisk, ?_⟩
    show m₁.disk.read.map unmounted = m.disk.read
    rw [hdisk, read_unmounted hwf]
  · exact ⟨hid, hdisk, hshown⟩

/-- The two requests that only look leave the config as it was, loaded or not. -/
theorem Untouched.dispatch (hbase : d.Base) (hlooks : Looks configName request)
    (h : Untouched configName m d) :
    Untouched configName m (dispatch env name request d) := by
  have hhandle : Untouched configName m ((handle env name request).run d).2 := by
    rcases hlooks with rfl | rfl
    · exact untouched_of_same (getConfig_metaSnappers d) h
    · by_cases hopens : ∃ m₁, Opens env configName d m₁
      · obtain ⟨m₁, hm₁⟩ := hopens
        obtain ⟨m', hfind, hid, hdisk, hshown⟩ := h
        obtain rfl := Option.some.inj (hm₁.find.symm.trans hfind)
        obtain ⟨m₂, hlists, hid₂, -, hshown₂, -, hdisk₂⟩ := lists_opened hbase hm₁
        rw [(listSnapshots_numbers hbase hm₁).1]
        exact ⟨m₂, hlists.find, hid₂.trans hid, hdisk₂.trans hdisk, by rw [hshown₂, hshown]⟩
      · obtain ⟨e, hrefused⟩ : ∃ e, (openConfig env configName).run d = (.error e, d) :=
          openConfig_run_not hbase.addresses (not_exists.mp hopens)
        show Untouched configName m ((listSnapshots env name configName).run d).2
        rw [listSnapshots, run_bind_error hrefused]
        exact h
  rw [Server.dispatch]
  cases hrun : (handle env name request).run d with
  | mk r d' =>
    rw [hrun] at hhandle
    cases r with
    | ok _ => exact hhandle
    | error e => exact untouched_of_same rfl hhandle

/-- Counts are not shown. -/
theorem Untouched.race {id : Nat} {num : UInt32} {userRequest : Bool} {useCount : UInt32}
    (h : Untouched configName m d) :
    Untouched configName m (d.race id num userRequest useCount) := by
  obtain ⟨m', hfind, hid, hdisk, hshown⟩ := h
  refine ⟨_, (find_modMeta (by intro; rfl)).trans (congrArg _ hfind), ?_⟩
  dsimp only
  split
  · refine ⟨hid, hdisk, ?_⟩
    have hraced : ∀ s : Snapshot, unmounted (s.raced userRequest useCount) = unmounted s := by
      intro s
      rw [Snapshot.raced]
      split <;> rfl
    rw [← hshown]
    rw [MetaSnapper.shown, MetaSnapper.shown, MetaSnapper.setSnapshots]
    cases hsnapper : m'.snapper with
    | none => rfl
    | some loaded => exact map_update hraced
  · exact ⟨hid, hdisk, hshown⟩

/-- As long as the client only looks, the config stays as it was at the start, loaded or not. -/
theorem Untouched.step (halone : Alone name configName (Looks configName) d) (hown : a.own = true)
    (hsteady : a.Steady) (h : Untouched configName m d) : Untouched configName m (d.step a) := by
  rcases halone.own_step hown hsteady with hsame | ⟨env, request, rfl, hnext, hlooks⟩ |
    ⟨id, env, rfl, hstep⟩ | ⟨id, num, userRequest, useCount, rfl, hstep⟩
  · rwa [hsame]
  · rw [step_work hnext]
    exact (untouched_of_same rfl h : Untouched configName m (d.take name)).dispatch
      halone.base.take hlooks
  · rw [hstep]
    exact h.unload halone.base
  · rw [hstep]
    exact h.race

theorem Untouched.receive (h : Untouched configName m d) :
    Untouched configName m (d.step (.receive name request)) :=
  untouched_of_same (step_receive_metaSnappers d) h

end Alone

end Snapper.Server

namespace Snapper.Client

open General Server

/-! ## The list that the client gets -/

/-- What is read from a disk ascends. -/
theorem read_ascending {disk : Disk} (h : disk.WF) :
    (disk.read.map DBus.toXSnapshot).Pairwise fun a b => a.num < b.num := by
  have hnums : disk.readable.Pairwise fun a b => a.num ≠ b.num :=
    (List.pairwise_map.mp h.nodup).sublist List.filter_sublist
  have hsorted : (disk.readable.insertionSort fun a b => a.num ≤ b.num).Pairwise
      fun a b => a.num < b.num := insertionSort_ascending_iff.mpr hnums
  rw [List.pairwise_map, Disk.read, List.pairwise_cons]
  refine ⟨fun s hs => ?_, hsorted.imp fun hlt => UInt32.lt_iff_toNat_lt.mp hlt⟩
  have hne := h.nonzero s (mem_infos_of_readable ((List.mem_insertionSort _).mp hs))
  show (0 : UInt32).toNat < s.num.toNat
  exact Nat.pos_of_ne_zero fun hzero => hne (UInt32.toNat_inj.mp hzero)

section Exact

variable {start d : Daemon} {name configName : Str} {outcome : UInt32 → UInt32 → List DBus.SentFile}
  {m : MetaSnapper} {algorithm : Algorithm} {now : Int} {tmp : List XSnapshot}

/-- What holds before the first request to delete. -/
structure Opening (name configName : Str) (start : Daemon) (m : MetaSnapper) (d : Daemon) :
    Prop where
  alone : Alone name configName (Looks configName) d
  untouched : Untouched configName m d
  follows : start.Follows d
  reads : d.unreadable = start.unreadable

/-- A request that only looks is served in some turn, and the config is untouched meanwhile; what
is promised of every answer holds of the one that comes. -/
theorem opening_turning {R : Reply → Prop} {request : Request} (hlooks : Looks configName request)
    (hanswers : ∀ d env reply, Opening name configName start m d → d.next name = some request →
      (d.step (.work name env)).mail name = d.mail name ++ [.reply name reply] → R reply) :
    Turning name outcome Action.Steady request (Opening name configName start m)
      fun reply _ => R reply where
  base _ h := h.alone.base
  receive d h := ⟨h.alone.receive hlooks, h.untouched.receive,
    h.follows.trans (event_follows d (.step (.receive name request))),
    receive_unreadable.trans h.reads⟩
  step d a hown hsteady h := by
    have hown' : (withOutcome outcome d a).own = true := (withOutcome_own d a).trans hown
    have hsteady' : (withOutcome outcome d a).Steady := withOutcome_steady hsteady
    have hlooks : ∀ request, Looks configName request → request.Cleans configName :=
      fun _ => Looks.cleans
    exact ⟨h.alone.step hown' hsteady' hlooks, h.untouched.step h.alone hown' hsteady',
      h.follows.trans (event_follows d (.step (withOutcome outcome d a))),
      (h.alone.step_unreadable hown' hsteady' hlooks).trans h.reads⟩
  lasts _ _ _ _ _ _ h := h
  answers := hanswers

/-- The client is ready for the next request, and what can be read stays the same. -/
abbrev Waiting (name : Str) (I : Daemon → Prop) (s : Session) : Prop :=
  I s.daemon ∧ Ready name s.daemon ∧ s.Meets Action.Steady

/-- The client asks for the config and gets the one of the start. -/
theorem opening_getXconfig (hid : m.id < start.nextId)
    (hinfo : ∀ m' ∈ start.metaSnappers, m'.id = m.id → m'.configInfo = m.configInfo) :
    Act.Spec (Waiting name (Opening name configName start m))
      (commandGetXconfig name outcome configName)
      (fun ci s => Waiting name (Opening name configName start m) s ∧
        ci.raw = m.configInfo.raw)
      fun _ s => Opening name configName start m s.daemon := by
  have hturning : Turning name outcome Action.Steady (.getConfig configName)
      (Opening name configName start m) fun reply _ => ∀ data, reply = .config data →
        data = m.configInfo := by
    apply opening_turning (Or.inl rfl)
    rintro d env reply h hnext hmail data rfl
    obtain ⟨m', hfind, rfl⟩ := getConfig_answer hnext hmail
    obtain ⟨m₁, hfind₁, hid₁, -⟩ := h.untouched
    obtain rfl := Option.some.inj (hfind.symm.trans hfind₁)
    -- a config has the data it started with, and a new one another address
    rcases h.follows.fixed m' (mem_of_find hfind) with ⟨m₀, hm₀, hsame⟩ | hlate
    · rw [← hinfo m₀ hm₀ ((congrArg Prod.fst hsame).trans hid₁)]
      exact (congrArg (fun p => p.2.1) hsame).symm
    · rw [hid₁] at hlate
      exact absurd hid (not_lt.mpr hlate)
  refine Act.Spec.bind (hturning.send (by simp)) fun reply => ?_
  cases reply with
  | config data =>
    refine Act.Spec.pure fun s hs => ⟨hs.1, ?_⟩
    rw [← hs.2 data rfl]
    rfl
  | _ => exact Act.Spec.throw fun s hs => hs.1.1

/-- The client asks for the list and gets what could be read at the start. -/
theorem opening_listXsnapshots :
    Act.Spec (Waiting name (Opening name configName start m))
      (commandListXsnapshots name outcome configName)
      (fun snapshots s => Waiting name (Opening name configName start m) s ∧
        snapshots.entries = m.disk.read.map DBus.toXSnapshot)
      fun _ s => Opening name configName start m s.daemon := by
  have hturning : Turning name outcome Action.Steady (.listSnapshots configName)
      (Opening name configName start m) fun reply _ => ∀ list, reply = .snapshots list →
        list.map DBus.toXSnapshot = m.disk.read.map DBus.toXSnapshot := by
    apply opening_turning (Or.inr rfl)
    rintro d env reply h hnext hmail list rfl
    obtain ⟨m', hfind, rfl⟩ := listSnapshots_answer h.alone.base hnext hmail
    obtain ⟨m₁, hfind₁, -, -, hshown⟩ := h.untouched
    obtain rfl := Option.some.inj (hfind.symm.trans hfind₁)
    -- what the client gets has nothing of the mounts
    rw [← hshown, List.map_map]
    rfl
  refine Act.Spec.bind (hturning.send (by simp)) fun reply => ?_
  cases reply with
  | snapshots list =>
    dsimp only
    split
    · exact Act.Spec.pure fun s hs => ⟨hs.1, hs.2 list rfl⟩
    · exact Act.Spec.throw fun s hs => hs.1.1
  | _ => exact Act.Spec.throw fun s hs => hs.1.1

/-! ## While snapshots are deleted -/

/-- The requests to delete what is selected. -/
def Deletes (configName : Str) (tmp : List XSnapshot) (request : Request) : Prop :=
  ∃ x ∈ tmp, request = .deleteSnapshots configName [.ofNat x.num]

/-- The snapshots on the disk that are not selected. -/
def Unselected (configName : Str) (m : MetaSnapper) (tmp : List XSnapshot) : Nat → Deposit → Prop :=
  fun id kept => id = m.id ∧ kept.configName = configName ∧ m.disk.Stores kept.core ∧
    kept.core.num.toNat ∉ tmp.map XSnapshot.num

/-- These snapshots are gone, and only what is selected goes. -/
structure Closing (name configName : Str) (start : Daemon) (m : MetaSnapper)
    (tmp : List XSnapshot) (gone : List UInt32) (d : Daemon) : Prop where
  alone : Alone name configName (Deletes configName tmp) d
  protects : Protects start (fun _ _ _ => False) (Unselected configName m tmp) d
  reads : d.unreadable = start.unreadable
  numbers : d.numbers configName ⊆ (m.disk.read.map Snapshot.num).toFinset
  gone : ∀ num ∈ gone, num ∉ d.numbers configName

theorem Deletes.cleans {request : Request} (h : Deletes configName tmp request) :
    request.Cleans configName := by
  obtain ⟨x, -, rfl⟩ := h
  exact .deleteSnapshots _

/-- A number in a list is the one of a snapshot. -/
theorem toNat_ofNat_num {list : List Snapshot} {x : XSnapshot}
    (hx : x ∈ list.map DBus.toXSnapshot) : (UInt32.ofNat x.num).toNat = x.num := by
  obtain ⟨s, -, rfl⟩ := List.mem_map.mp hx
  simp [DBus.toXSnapshot]

/-- A request of the cleanup names a selected snapshot, and so spares all that are not selected.
-/
theorem Deletes.spares {request : Request} {list : List Snapshot}
    (htmp : ∀ x ∈ tmp, x ∈ list.map DBus.toXSnapshot) (h : Deletes configName tmp request) :
    ∀ id kept, Unselected configName m tmp id kept → ¬ request.Removes kept := by
  obtain ⟨x, hx, rfl⟩ := h
  rintro id kept ⟨-, -, -, hnot⟩ ⟨-, hnum⟩
  apply hnot
  rw [List.mem_singleton.mp hnum, toNat_ofNat_num (htmp x hx)]
  exact List.mem_map_of_mem hx

/-- When the client is ready nothing is queued. -/
theorem alone_of_ready {Q Q' : Request → Prop} (h : Alone name configName Q d)
    (hready : Ready name d) : Alone name configName Q' d := by
  refine ⟨h.base, h.begins, h.coherent, h.clients, ?_, h.tasks, h.background⟩
  intro c hc request hrequest
  obtain ⟨hname, -⟩ := h.clients c hc
  have hdesk := desk_of_mem h.base hc
  rw [hname] at hdesk
  have hnone : c.tasks = [] := (hready _ hdesk).2.2
  rw [hnone] at hrequest
  cases hrequest

/-- The first request to delete may come. -/
theorem Opening.closing (h : Opening name configName start m d) (hready : Ready name d) :
    Closing name configName start m tmp [] d := by
  have halone : Alone name configName (Deletes configName tmp) d := alone_of_ready h.alone hready
  have hnothing : Alone name configName (fun _ => False) d := alone_of_ready h.alone hready
  have hunseen : d.Coherent (fun _ _ _ => False) fun _ _ => False :=
    halone.coherent.unseen
  refine ⟨halone, ⟨⟨hunseen.base, hunseen.coherent, hunseen.legible, ?_⟩, ?_, h.follows⟩, h.reads,
    ?_, by simp⟩
  · rintro id kept ⟨rfl, rfl, hdisk, -⟩
    obtain ⟨m', hfind, hid, hsame, -⟩ := h.untouched
    exact ⟨m', hfind, hid, hsame ▸ hdisk⟩
  · exact fun c hc request hrequest => (hnothing.requests c hc request hrequest).elim
  · rw [h.untouched.numbers]

/-- One request to delete, served in whatever turns the daemon takes: the list only shrinks, and
when the answer is not an error the number is gone from then on. -/
theorem closing_turning {list : List Snapshot} {gone : List UInt32} {x : XSnapshot}
    (htmp : ∀ x ∈ tmp, x ∈ list.map DBus.toXSnapshot) (hx : x ∈ tmp) :
    Turning name outcome Action.Steady (.deleteSnapshots configName [.ofNat x.num])
      (Closing name configName start m tmp gone)
      fun _ d => UInt32.ofNat x.num ∉ d.numbers configName where
  base _ h := h.alone.base
  receive d h := by
    have hdeletes : Deletes configName tmp (.deleteSnapshots configName [.ofNat x.num]) :=
      ⟨x, hx, rfl⟩
    have hsame : (d.step (.receive name (.deleteSnapshots configName [.ofNat x.num]))).numbers
        configName = d.numbers configName :=
      numbers_of_same (step_receive_metaSnappers _)
    refine ⟨h.alone.receive hdeletes, h.protects.receive (hdeletes.spares htmp),
      receive_unreadable.trans h.reads, ?_, ?_⟩
    · rw [hsame]
      exact h.numbers
    · rw [hsame]
      exact h.gone
  step d a hown hsteady h := by
    have hown' : (withOutcome outcome d a).own = true := (withOutcome_own d a).trans hown
    have hsteady' : (withOutcome outcome d a).Steady := withOutcome_steady hsteady
    have hcleans : ∀ request, Deletes configName tmp request → request.Cleans configName :=
      fun _ => Deletes.cleans
    -- whatever the step is, it adds nothing to the list
    have hless := h.alone.step_numbers hown' hsteady' hcleans
    exact ⟨h.alone.step hown' hsteady' hcleans, h.protects.step hown' fun _ _ _ h => h.elim,
      (h.alone.step_unreadable hown' hsteady' hcleans).trans h.reads, hless.trans h.numbers,
      fun num hnum hmem => h.gone num hnum (hless hmem)⟩
  lasts d a _ hown hsteady h hnot hmem :=
    hnot (h.alone.step_numbers ((withOutcome_own d a).trans hown) (withOutcome_steady hsteady)
      (fun _ => Deletes.cleans) hmem)
  answers d env reply h hnext hmail :=
    deleteSnapshots_answer h.alone.base hnext hmail _ (List.mem_singleton.mpr rfl)

theorem Closing.mono {gone gone' : List UInt32} (h : Closing name configName start m tmp gone d)
    (hless : gone' ⊆ gone) : Closing name configName start m tmp gone' d :=
  ⟨h.alone, h.protects, h.reads, h.numbers, fun num hnum => h.gone num (hless hnum)⟩

/-- The loop over the selected snapshots, with the numbers that it has deleted so far.  When an
answer is an error the loop stops, and nothing is promised to be gone. -/
theorem closing_deleteEach {list : List Snapshot} {rest : List XSnapshot} {gone : List UInt32}
    (htmp : ∀ x ∈ tmp, x ∈ list.map DBus.toXSnapshot) (hrest : ∀ x ∈ rest, x ∈ tmp) :
    Act.Spec (Waiting name (Closing name configName start m tmp gone))
      (deleteEach name outcome configName rest)
      (fun _ s => Closing name configName start m tmp
        (gone ++ rest.map fun x => .ofNat x.num) s.daemon)
      fun _ s => Closing name configName start m tmp [] s.daemon := by
  -- over the snapshots that are still to be deleted, with those that are gone in the invariant
  induction rest generalizing gone with
  | nil =>
    refine Act.Spec.pure fun s hs => ?_
    rw [List.map_nil, List.append_nil]
    exact hs.1
  | cons x rest ih =>
    obtain ⟨hx, hrest'⟩ := List.forall_mem_cons.mp hrest
    have hturning : Turning name outcome Action.Steady (.deleteSnapshots configName [.ofNat x.num])
        (Closing name configName start m tmp gone)
        fun _ d => UInt32.ofNat x.num ∉ d.numbers configName := closing_turning htmp hx
    -- one request: its number joins those that are gone
    have hone : Act.Spec
        (Waiting name (Closing name configName start m tmp gone))
        (commandDeleteXsnapshots name outcome configName [.ofNat x.num])
        (fun _ => Waiting name (Closing name configName start m tmp (gone ++ [.ofNat x.num])))
        fun _ s => Closing name configName start m tmp [] s.daemon := by
      refine Act.Spec.bind ((hturning.send (by simp)).conseq (fun _ h => h) (fun _ _ h => h)
        fun _ s h => h.mono (List.nil_subset _)) fun reply => ?_
      cases reply with
      | done =>
        refine Act.Spec.pure fun s hs =>
          ⟨⟨hs.1.1.alone, hs.1.1.protects, hs.1.1.reads, hs.1.1.numbers, ?_⟩, hs.1.2⟩
        intro num hnum
        rcases List.mem_append.mp hnum with hold | hnew
        · exact hs.1.1.gone num hold
        · rw [List.mem_singleton.mp hnew]
          exact hs.2
      | _ => exact Act.Spec.throw fun s hs => hs.1.1.mono (List.nil_subset _)
    refine Act.Spec.bind hone fun _ => ?_
    have hlater : Act.Spec
        (Waiting name (Closing name configName start m tmp (gone ++ [.ofNat x.num])))
        (deleteEach name outcome configName rest)
        (fun _ s => Closing name configName start m tmp
          ((gone ++ [.ofNat x.num]) ++ rest.map fun x => .ofNat x.num) s.daemon)
        fun _ s => Closing name configName start m tmp [] s.daemon := ih hrest'
    rwa [List.append_assoc, List.singleton_append] at hlater

/-! ## What a cleanup leaves -/

/-- Only what is selected goes, and when the client comes to its end all of it is gone.  What could
not be read is not in the list, and stays on disk. -/
structure Cleaned (m : MetaSnapper) (configName : Str) (requested : List Nat) (ended : Prop)
    (d : Daemon) : Prop where
  numbers : d.numbers configName ⊆ (m.disk.read.map Snapshot.num).toFinset
  stays : ∀ s ∈ m.disk.readable, s.num.toNat ∉ requested → s.num ∈ d.numbers configName
  goes : ended → ∀ s ∈ m.disk.readable, s.num.toNat ∈ requested → s.num ∉ d.numbers configName
  disk : ∀ s ∈ m.disk.infos, s.num.toNat ∉ requested →
    d.Finds configName fun m' => m'.disk.Stores s.core

/-- A cleanup that ends before it deletes anything has deleted nothing but what is selected. -/
theorem Opening.cleaned {requested : List Nat} (h : Opening name configName start m d) :
    Cleaned m configName requested False d where
  numbers := h.untouched.numbers.subset
  stays s hs _ := by
    rw [h.untouched.numbers, List.mem_toFinset]
    exact List.mem_map_of_mem (mem_read.mpr (Or.inr hs))
  goes hend := hend.elim
  disk s hs _ := by
    obtain ⟨m', hfind, -, hdisk, -⟩ := h.untouched
    exact ⟨m', hfind, s, hdisk ▸ hs, rfl⟩

/-- What is not selected is on disk. -/
theorem Closing.held {gone : List UInt32} (h : Closing name configName start m tmp gone d)
    {s : Snapshot}
    (hs : s ∈ m.disk.infos) (hnot : s.num.toNat ∉ tmp.map XSnapshot.num) :
    d.Finds configName (MetaSnapper.Archives m.id s.core) :=
  h.protects.coherent.held m.id ⟨configName, s.core⟩ ⟨rfl, rfl, ⟨s, hs, rfl⟩, hnot⟩

/-- At the end of the deletions the list has lost what is gone and the disk keeps what was not
selected; a normal end promises that all that is selected is gone. -/
theorem Closing.cleaned {gone : List UInt32} {ended : Prop} (hstart : start.Base)
    (hm : m ∈ start.metaSnappers) (h : Closing name configName start m tmp gone d)
    (hgone : ended → ∀ num : UInt32, num.toNat ∈ tmp.map XSnapshot.num → num ∈ gone) :
    Cleaned m configName (tmp.map XSnapshot.num) ended d where
  numbers := h.numbers
  stays s hs hnot := by
    obtain ⟨hinfo, hreadable⟩ := mem_readable.mp hs
    -- it is on disk and its entry can be read, so it is in the list
    obtain ⟨m', hfind, hid, hdisk⟩ := h.held hinfo hnot
    have hvisible : Visible d m'.id m'.configName s.core.num := by
      rw [visible_of_same h.reads, hid]
      exact (visible_iff hstart hm).mpr hreadable
    obtain ⟨s', hs', hcore⟩ := h.alone.coherent.shows (mem_of_find hfind) hvisible hdisk
    have hnum : s'.num = s.num := congrArg Core.num hcore
    rw [Daemon.numbers, hfind, List.mem_toFinset, ← hnum]
    exact List.mem_map_of_mem hs'
  goes hend s _ hmem := h.gone s.num (hgone hend s.num hmem)
  disk s hs hnot := by
    obtain ⟨m', hfind, -, hdisk⟩ := h.held hs hnot
    exact ⟨m', hfind, hdisk⟩

/-- A cleanup that has the daemon to itself deletes nothing but what is selected from the snapshots
that can be read at the start, and all of that when it comes to its end.  Steps may fail at any
point, configs may be unloaded, and the daemon may leave the client without an answer; but what can
be read stays the same. -/
theorem cleanup_exact (algorithm : Algorithm) (now : Int) (name configName : Str)
    (hstart : start.Initial) (hfind : start.find configName = some m)
    (outcome : UInt32 → UInt32 → List DBus.SentFile) (turns : List (List Action))
    (hsteady : ∀ turn ∈ turns, ∀ a ∈ turn, a.Steady) :
    ∃ snapshots : XSnapshots, snapshots.entries = m.disk.read.map DBus.toXSnapshot ∧
      let result := (cleanup name outcome configName algorithm now).run ⟨start, turns⟩
      Cleaned m configName ((algorithm.cleanup m.configInfo.raw).requested now snapshots)
        (result.1 = .ok ⟨⟩) result.2.daemon := by
  have hmem := mem_of_find hfind
  refine ⟨⟨_, read_ascending (hstart.disk m hmem)⟩, rfl, ?_⟩
  set snapshots : XSnapshots := ⟨_, read_ascending (hstart.disk m hmem)⟩
  -- a freshly started daemon has nothing loaded, so it offers what can be read
  have hopening : Opening name configName start m start := by
    have hshown : m.shown = m.disk.read := shown_of_unloaded (hstart.unloaded m hmem)
    have hunmounted : m.shown.map unmounted = m.disk.read := by
      rw [hshown, read_unmounted (hstart.disk m hmem)]
    refine ⟨⟨hstart.base, initial_begins hstart, initial_visible hstart, ?_, ?_, hstart.tasks,
      hstart.background⟩, ⟨m, hfind, rfl, rfl, hunmounted⟩, .refl, rfl⟩
    · rw [hstart.clients]
      simp
    · rw [hstart.clients]
      simp
  -- no client is there yet, so none waits for an answer
  have hready : Ready name start := by
    intro k hk
    obtain ⟨c, hc, -⟩ := client_of_desk hk
    have hmem := mem_of_client hc
    rw [hstart.clients] at hmem
    cases hmem
  have hinfo : ∀ m' ∈ start.metaSnappers, m'.id = m.id → m'.configInfo = m.configInfo := by
    intro m' hm' hid
    have hsame := hstart.base.addresses.metaSnapper_of_mem hm'
    rw [hid, hstart.base.addresses.metaSnapper_of_find hfind] at hsame
    rw [Option.some.inj hsame]
  have hspec : Act.Spec (Waiting name (Opening name configName start m))
      (cleanup name outcome configName algorithm now)
      (fun _ s => Cleaned m configName
        ((algorithm.cleanup m.configInfo.raw).requested now snapshots) True s.daemon)
      fun _ s => Cleaned m configName
        ((algorithm.cleanup m.configInfo.raw).requested now snapshots) False s.daemon := by
    -- the client asks for the config and then for the list, and gets those of the start
    refine Act.Spec.bind ((opening_getXconfig (hstart.nextId m hmem) hinfo).conseq (fun _ h => h)
      (fun _ _ h => h) fun _ _ h => h.cleaned) fun ci => ?_
    refine Act.Spec.of_fact (fun s hs => hs.2) fun hraw => ?_
    refine Act.Spec.bind (opening_listXsnapshots.conseq (fun s hs => hs.1)
      (fun _ _ h => h) fun _ _ h => h.cleaned) fun list => ?_
    refine Act.Spec.of_fact (fun s hs => hs.2) fun hentries => ?_
    obtain rfl : list = snapshots := by
      cases list
      cases hentries
      rfl
    rw [hraw]
    cases hrun : (algorithm.cleanup m.configInfo.raw).run now snapshots with
    | none => exact Act.Spec.throw fun s hs => hs.1.1.cleaned
    | some tmp =>
      -- from here on it deletes what it has selected, one by one
      have htmp : ∀ x ∈ tmp, x ∈ m.disk.read.map DBus.toXSnapshot := fun x hx =>
        hentries ▸ (run_selected hrun x hx).1
      have hrequested : (algorithm.cleanup m.configInfo.raw).requested now snapshots =
          tmp.map XSnapshot.num := by
        rw [Cleanup.requested, hrun]
        rfl
      rw [hrequested]
      have hdeletes : Act.Spec (Waiting name (Closing name configName start m tmp []))
          (deleteEach name outcome configName tmp)
          (fun _ s => Closing name configName start m tmp
            ([] ++ tmp.map fun x => .ofNat x.num) s.daemon)
          fun _ s => Closing name configName start m tmp [] s.daemon :=
        closing_deleteEach htmp fun _ h => h
      refine hdeletes.conseq (fun s hs => ⟨hs.1.1.closing hs.1.2.1, hs.1.2⟩)
        (fun _ s h => h.cleaned hstart.base hmem fun _ num hnum => ?_)
        fun _ s h => h.cleaned hstart.base hmem False.elim
      obtain ⟨x, hx, hsame⟩ := List.mem_map.mp hnum
      rw [List.nil_append]
      refine List.mem_map.mpr ⟨x, hx, ?_⟩
      rw [hsame]
      exact UInt32.ofNat_toNat
  -- the run of the client ends in one of the two ways
  have hend := hspec ⟨start, turns⟩ ⟨hopening, hready, hsteady⟩
  dsimp only
  generalize (cleanup name outcome configName algorithm now).run ⟨start, turns⟩ = result at hend ⊢
  obtain ⟨r, s⟩ := result
  cases r with
  | ok _ => exact ⟨hend.numbers, hend.stays, fun _ => hend.goes trivial, hend.disk⟩
  | error e => exact ⟨hend.numbers, hend.stays, (by intro h; cases h), hend.disk⟩

end Exact

/-- A config with two snapshots for the number cleanup, one more than are kept -/
def numberConfig : MetaSnapper :=
  let made (num : UInt32) := { Snapshot.new .SINGLE num 0 with cleanup := str "number" }
  ⟨0, ⟨str "root", str "/", SortedMap.empty.set (str "NUMBER_LIMIT") (str "1")⟩, [], 0, 0, none,
    ⟨[1, 2], [made 1, made 2], []⟩⟩

def numberOnly : Daemon := { Daemon.rootOnly with metaSnappers := [numberConfig] }

/-- A started daemon with a config that only the number algorithm has something to do for. -/
theorem numberOnly_initial : numberOnly.Initial where
  ids := by simp [numberOnly]
  nextId := by simp [numberOnly, numberConfig, Daemon.rootOnly]
  counter := by simp [numberOnly, numberConfig]
  unloaded := by simp [numberOnly, numberConfig]
  disk := by
    intro m hm
    obtain rfl := List.mem_singleton.mp hm
    exact ⟨by decide, by decide, by decide, by decide⟩
  clients := rfl
  tasks := rfl
  background := rfl
  sent := rfl
  running := ⟨rfl, rfl⟩

/-- The older snapshot goes. -/
theorem cleanup_exact_number :
    let d' := ((cleanup (str ":1.5") (fun _ _ => []) (str "root") .number 5000).run
      ⟨numberOnly, promptTurns (str ":1.5")⟩).2.daemon
    1 ∉ d'.numbers (str "root") ∧ 2 ∈ d'.numbers (str "root") := by
  have hfind : numberOnly.find (str "root") = some numberConfig := rfl
  obtain ⟨snapshots, hentries, hcleaned⟩ := cleanup_exact .number 5000 (str ":1.5") (str "root")
    numberOnly_initial hfind (fun _ _ => []) (promptTurns (str ":1.5")) promptTurns_steady
  have hrequested : (Algorithm.number.cleanup numberConfig.configInfo.raw).requested 5000
      snapshots = [1] := by
    obtain ⟨entries, hascending⟩ := snapshots
    obtain rfl : entries = _ := hentries
    clear hcleaned
    revert hascending
    decide +kernel
  rw [hrequested] at hcleaned
  exact ⟨hcleaned.goes rfl _ List.mem_cons_self (by decide),
    hcleaned.stays _ (List.mem_cons_of_mem _ List.mem_cons_self) (by decide)⟩

end Snapper.Client
