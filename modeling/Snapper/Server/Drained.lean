import Snapper.Server.Progress

/-!
# The daemon becomes idle

When all clients have gone, their workers, the background and the periodic work end one after
the other: nothing waits for something that does not come, and no use of a config is left.

## Main results

* `able_of_busy`: there is always a thread that can go on.
* `able_less`: each of their steps lowers the burden of the daemon.
* `drained_in_the_end`: without clients the daemon gets idle.
-/

namespace Snapper.Server

open General Act

/-! ## What is to be done -/

/-- What the worker of a client still has to do, apart from its queue. -/
def Worker.burden : Worker → ℕ
  | .waiting => 2
  | .comparing making => if making.mounted then 3 else 4
  | .ended => 1

/-- A request may begin a comparison, or give the background a task. -/
def Desk.burden (k : Desk) : ℕ := 8 * k.tasks.length + k.worker.burden

/-- The phases of a task that are still to come. -/
def Background.burden : Background → ℕ
  | .waiting => 3
  | .comparing making => if making.mounted then 1 else 2
  | .counted => 0

/-- All phases that are still to come, of the clients and of the background. -/
def Daemon.burden (d : Daemon) : ℕ :=
  ((d.clients.map Client.desk).map Desk.burden).sum + (4 * d.tasks.length + d.background.burden)

/-- A thread can take this step, be it a worker, the background or the main loop that removes a
client which has gone. -/
inductive Able (d : Daemon) : Action → Prop
  | worker {name : Str} {a : Action} (h : Can name d a) : Able d a
  | retire {name : Str} {c : Client} (hclient : d.client name = some c)
      (hworker : c.worker = .waiting) (htasks : c.tasks = []) (hzombie : c.zombie = true) :
      Able d (.endWorker name)
  | reap {name : Str} {c : Client} (env : Env) (hclient : d.client name = some c)
      (hworker : c.worker = .ended) (hzombie : c.zombie = true) : Able d (.reap name env)
  | start (env : Env) (hbackground : d.background = .waiting) (htasks : d.tasks ≠ []) :
      Able d (.startTask env)
  | mount {making : Making} {nums : UInt32 × UInt32} (env : Env)
      (hbackground : d.background = .comparing making) (hmounted : making.mounted = false)
      (hsnapshots : making.snapshots = some nums) : Able d (.mountTask env)
  | finish {making : Making} (env : Env) (hbackground : d.background = .comparing making) :
      Able d (.finishTask env)
  | pop (hbackground : d.background = .counted) : Able d .popTask

section Burden

variable {d d' : Daemon} {env : Env} {name : Str} {a : Action} {k : Desk} {f : Desk → Desk}

theorem desks_names (h : d.Base) : ((d.clients.map Client.desk).map Desk.name).Nodup := by
  rw [List.map_map]
  exact h.addresses.names

theorem mem_of_desk (hk : d.desk name = some k) :
    k ∈ d.clients.map Client.desk ∧ k.name = name := by
  rw [desk_eq_find] at hk
  exact ⟨List.mem_of_find?_eq_some hk, by simpa using List.find?_some hk⟩

/-- The burden after the change of one desk. -/
theorem burden_update (h : d.Base) (hk : d.desk name = some k)
    (hdesks : d'.clients.map Client.desk = update Desk.name name f (d.clients.map Client.desk))
    (htasks : d'.tasks = d.tasks) (hbackground : d'.background = d.background) :
    d'.burden + k.burden = d.burden + (f k).burden := by
  obtain ⟨hmem, hname⟩ := mem_of_desk hk
  have hsum := sum_update (w := Desk.burden) (f := f) (desks_names h) hmem hname
  rw [Daemon.burden, Daemon.burden, hdesks, htasks, hbackground]
  omega

theorem burden_of_calm (h : d'.calm = d.calm) : d'.burden = d.burden := by
  have hdesks : d'.clients.map Client.desk = d.clients.map Client.desk :=
    congrArg Prod.fst (talk_of_calm h)
  rw [Daemon.burden, Daemon.burden, hdesks, tasks_of_calm h, background_of_calm h]

theorem worker_burden_le (worker : Worker) : worker.burden ≤ 4 := by
  cases worker with
  | waiting => decide
  | comparing making =>
    rw [Worker.burden]
    split <;> decide
  | ended => decide

theorem worker_burden_pos (worker : Worker) : 0 < worker.burden := by
  cases worker with
  | waiting => decide
  | comparing making =>
    rw [Worker.burden]
    split <;> decide
  | ended => decide

/-! ## Steps of workers -/

/-- Where the worker is changed only, its own burden counts. -/
theorem burden_setWorker {worker : Worker} {g : Client → Client} (h : d.Base)
    (hk : d.desk name = some k) (hg : ∀ c, (g c).desk = { c.desk with worker := worker }) :
    (d.modClient name g).burden + k.worker.burden = d.burden + worker.burden := by
  have hdesks : (d.modClient name g).clients.map Client.desk =
      update Desk.name name (fun k => { k with worker := worker }) (d.clients.map Client.desk) :=
    desks_modClient hg
  have hburden := burden_update h hk hdesks rfl rfl
  simp only [Desk.burden] at hburden
  omega

theorem burden_comparing {making : Making} (hworker : k.worker = .comparing making) :
    2 < k.worker.burden := by
  rw [hworker, Worker.burden]
  split <;> decide

/-- A constructor that fails takes its request with it. -/
theorem burden_failed {making making' : Making} {e : Exception} (h : d.Base)
    (hk : d.desk name = some k) (hworker : k.worker = .comparing making') :
    (d.failed env name making e).burden < d.burden := by
  have hburden : (d.failed env name making e).burden + k.worker.burden =
      d.burden + Worker.waiting.burden := burden_setWorker h hk (by intro; rfl)
  have hbusy := burden_comparing hworker
  have hwaiting : Worker.waiting.burden = 2 := rfl
  omega

/-- A finished comparison is one constructor less to be run. -/
theorem burden_finished {making making' : Making} {comparison : Comparison} (h : d.Base)
    (hk : d.desk name = some k) (hworker : k.worker = .comparing making') :
    (d.finished env name making comparison).burden < d.burden := by
  have hburden : (d.finished env name making comparison).burden + k.worker.burden =
      d.burden + Worker.waiting.burden := burden_setWorker h hk (by intro; rfl)
  have hbusy := burden_comparing hworker
  have hwaiting : Worker.waiting.burden = 2 := rfl
  omega

/-- A request is worth more than what it can begin. -/
theorem burden_work (h : d.Base) :
    d.work name env = d ∨ (d.work name env).burden < d.burden := by
  have hcases : d.work name env = d ∨ _ := work_cases
  rcases hcases with hsame | ⟨c, request, rest, hclient, hworker, htasks, hwork⟩
  · exact Or.inl hsame
  · right
    rw [hwork]
    generalize htaken : (d.modClient name fun c => { c with tasks := c.tasks.tail }) = d₁
    have hbase : d₁.Base := by
      rw [← htaken]
      exact h.modClient (by intro; rfl)
    have hdesk := desk_of_client hclient
    have hdesks : d₁.clients.map Client.desk =
        update Desk.name name Desk.take (d.clients.map Client.desk) := by
      rw [← htaken]
      exact desks_modClient (by intro; rfl)
    have hdesk₁ : d₁.desk name = some c.desk.take := by
      rw [desk_eq_find, hdesks]
      exact (lookup_update_self (by intro; rfl)).trans (by rw [lookup, ← desk_eq_find, hdesk]; rfl)
    -- the request leaves the queue, which takes eight away
    have htake := burden_update h hdesk hdesks (by rw [← htaken]; rfl) (by rw [← htaken]; rfl)
    have hqueue : c.desk.tasks.length = c.desk.take.tasks.length + 1 := by
      simp [Desk.take, Client.desk, htasks]
    have hless : d₁.burden + 8 = d.burden := by
      have hsame : c.desk.take.worker = c.desk.worker := rfl
      simp only [Desk.burden, hsame] at htake
      omega
    -- serving it gives back less: a task for the background or a worker that compares
    have hserved : Served name request d₁ (dispatch env name request d₁) := dispatch_answers
    cases hserved with
    | answered _ _ _ hdesks' htasks' hbackground =>
      have hlength : (dispatch env name request d₁).tasks.length ≤ d₁.tasks.length + 1 := by
        rcases htasks' with hsame | ⟨task, hmore⟩
        · rw [hsame]
          exact Nat.le_succ _
        · rw [hmore, List.length_append, List.length_singleton]
      have hburden : (dispatch env name request d₁).burden ≤ d₁.burden + 4 := by
        rw [Daemon.burden, Daemon.burden, hdesks', hbackground]
        omega
      omega
    | comparing making _ _ hdesks' htasks' hbackground =>
      have hburden := burden_update hbase hdesk₁ hdesks' htasks' hbackground
      have hbegin := worker_burden_le (Worker.comparing making)
      simp only [Desk.burden, Desk.begin] at hburden
      omega

/-- A worker that has its snapshots mounted is nearer to its end. -/
theorem burden_mountComparison (h : d.Base) :
    d.mountComparison name env = d ∨ (d.mountComparison name env).burden < d.burden := by
  have hcases : d.mountComparison name env = d ∨ _ := mountComparison_cases
  rcases hcases with hsame | ⟨making, num1, num2, d₁, hmaking, hmounted, -, hsteps, hrest⟩
  · exact Or.inl hsame
  · right
    obtain ⟨k, hk, hworker⟩ := desk_of_making hmaking
    have hbase := Recount.steps_base hsteps h
    -- mounting touches no queue
    have hcalm : d₁.calm = d.calm := by
      rcases hrest with ⟨hrun, -⟩ | ⟨e, hrun, -⟩
      · exact mountBoth_mute.run hrun
      · exact mountBoth_mute.run hrun
    have hk₁ : d₁.desk name = some k := by rw [desk_of_talk (talk_of_calm hcalm), hk]
    rw [← burden_of_calm hcalm]
    rcases hrest with ⟨-, hmount⟩ | ⟨e, -, hfailed⟩
    · have hburden : (d.mountComparison name env).burden + k.worker.burden =
          d₁.burden + (Worker.comparing { making with mounted := true }).burden := by
        rw [hmount]
        exact burden_setWorker hbase hk₁ (by intro; rfl)
      have hbefore : k.worker.burden = 4 := by simp [hworker, Worker.burden, hmounted]
      have hafter : (Worker.comparing { making with mounted := true }).burden = 3 := rfl
      omega
    · rw [hfailed]
      exact burden_failed hbase hk₁ hworker

/-- A comparison that ends takes its burden with it, by whichever answer. -/
theorem burden_finishComparison {files : List DBus.SentFile} (h : d.Base) :
    d.finishComparison name env files = d ∨
      (d.finishComparison name env files).burden < d.burden := by
  have hcases : d.finishComparison name env files = d ∨ _ := finishComparison_cases
  rcases hcases with hsame | ⟨making, num1, num2, d₁, hmaking, -, hsteps, hrest⟩
  · exact Or.inl hsame
  · right
    obtain ⟨k, hk, hworker⟩ := desk_of_making hmaking
    have hbase := Recount.steps_base hsteps h
    have hcalm : d₁.calm = d.calm := by
      rcases hrest with ⟨hrun, -⟩ | ⟨e, -, hrun, -⟩
      · split at hrun
        · exact umountBoth_mute.run hrun
        · rw [hrun]
      · exact umountBoth_mute.run hrun
    have hk₁ : d₁.desk name = some k := by rw [desk_of_talk (talk_of_calm hcalm), hk]
    rw [← burden_of_calm hcalm]
    rcases hrest with ⟨-, hfinished⟩ | ⟨e, -, -, hfailed⟩
    · rw [hfinished]
      exact burden_finished hbase hk₁ hworker
    · rw [hfailed]
      exact burden_failed hbase hk₁ hworker

/-- A constructor that throws is either not running at all, or its request is done with. -/
theorem burden_failComparison {failure : Failure} (h : d.Base) :
    d.failComparison name env failure = d ∨
      (d.failComparison name env failure).burden < d.burden := by
  have hcases : d.failComparison name env failure = d ∨ _ := failComparison_cases
  rcases hcases with hsame | ⟨making, hmaking, hrest⟩
  · exact Or.inl hsame
  · right
    obtain ⟨k, hk, hworker⟩ := desk_of_making hmaking
    rcases hrest with ⟨e, hfailed⟩ | ⟨-, hended⟩
    · rw [hfailed]
      exact burden_failed h hk hworker
    · have hburden : (d.failComparison name env failure).burden + k.worker.burden =
          d.burden + Worker.ended.burden := by
        rw [hended]
        exact burden_setWorker h hk (by intro; rfl)
      have hbusy := burden_comparing hworker
      have hgone : Worker.ended.burden = 1 := rfl
      omega

/-- A worker that ends has no tasks left to come back for. -/
theorem burden_endWorker (h : d.Base) :
    d.endWorker name = d ∨ (d.endWorker name).burden < d.burden := by
  have hcases : d.endWorker name = d ∨ _ := endWorker_cases
  rcases hcases with hsame | ⟨c, hclient, hworker, -, hend⟩
  · exact Or.inl hsame
  · right
    have hburden : (d.endWorker name).burden + c.desk.worker.burden =
        d.burden + Worker.ended.burden := by
      rw [hend]
      exact burden_setWorker h (desk_of_client hclient) (by intro; rfl)
    have hwaiting : c.desk.worker = .waiting := hworker
    rw [hwaiting] at hburden
    have hgone : Worker.waiting.burden = Worker.ended.burden + 1 := rfl
    omega

/-! ## The main loop and the background -/

theorem decAll_calm {comparisons : List Comparison} : (decAll env comparisons d).calm = d.calm := by
  induction comparisons generalizing d with
  | nil => rfl
  | cons comparison comparisons ih =>
    show (decAll env comparisons (decUseCount env comparison.snapper d)).calm = d.calm
    rw [ih]
    rfl

/-- The last burden of a client is that it is listed. -/
theorem burden_reap (h : d.Base) : d.reap name env = d ∨ (d.reap name env).terminated = true ∨
    (d.reap name env).burden < d.burden := by
  have hcases : d.reap name env = d ∨ _ := reap_cases
  rcases hcases with hsame | ⟨c, d₁, hclient, -, -, ⟨hrun, hreap⟩ | ⟨e, hrun, hend⟩⟩
  · exact Or.inl hsame
  · right
    right
    -- the destructor counts uses and mounts, and touches no queue
    have hcalm : d₁.calm = d.calm := (umountAll_mute.run hrun).trans decAll_calm
    have hdesks : d₁.clients.map Client.desk = d.clients.map Client.desk :=
      congrArg Prod.fst (talk_of_calm hcalm)
    have hfilter : (d.reap name env).clients.map Client.desk =
        (d.clients.map Client.desk).filter (Desk.name · ≠ name) := by
      rw [← hdesks, List.filter_map, hreap]
      rfl
    obtain ⟨hmem, hname⟩ := mem_of_desk (desk_of_client hclient)
    -- what is left is the sum without the burden of this client, which is positive
    have hsum := sum_filter_ne (w := Desk.burden) (desks_names h) hmem hname
    have hpos : 0 < c.desk.burden := by
      have hworker := worker_burden_pos c.desk.worker
      simp only [Desk.burden]
      omega
    have hsame := tasks_of_calm hcalm
    have htasks : (d.reap name env).tasks = d.tasks := by
      rw [hreap]
      exact hsame
    have hsame := background_of_calm hcalm
    have hbackground : (d.reap name env).background = d.background := by
      rw [hreap]
      exact hsame
    rw [Daemon.burden, Daemon.burden, hfilter, htasks, hbackground]
    omega
  · right
    left
    rw [hend]
    rfl

/-- Starting a task is a phase of it; an exception here ends the daemon. -/
theorem burden_startTask : d.startTask env = d ∨ (d.startTask env).terminated = true ∨
    (d.startTask env).burden < d.burden := by
  have hcases : d.startTask env = d ∨ d.startTask env = d.terminate ∨ _ := startTask_cases
  rcases hcases with hsame | hend | ⟨task, rest, hbackground, -, hstart⟩
  · exact Or.inl hsame
  · right
    left
    rw [hend]
    rfl
  · right
    right
    have hcalm : (d.openedAt env task.metaSnapper).calm = d.calm := openedAt_calm
    rw [← burden_of_calm hcalm, hstart, Daemon.burden, Daemon.burden,
      background_of_calm hcalm, hbackground]
    simp [Background.burden]

/-- Mounting is the next phase of a task; an exception here ends the daemon. -/
theorem burden_mountTask : d.mountTask env = d ∨ (d.mountTask env).terminated = true ∨
    (d.mountTask env).burden < d.burden := by
  have hcases : d.mountTask env = d ∨ _ := mountTask_cases
  rcases hcases with hsame | ⟨d₁, -, hend⟩ |
    ⟨making, num1, num2, d₁, hbackground, hmounted, -, -, hrun, hmount⟩
  · exact Or.inl hsame
  · right
    left
    rw [hend]
    rfl
  · right
    right
    have hcalm : d₁.calm = d.calm := mountBoth_mute.run hrun
    rw [← burden_of_calm hcalm, hmount, Daemon.burden, Daemon.burden,
      background_of_calm hcalm, hbackground]
    simp [Background.burden, hmounted]

/-- So does the background when it has counted the use of its task down, if the daemon goes on. -/
theorem burden_finishTask : d.finishTask env = d ∨ (d.finishTask env).terminated = true ∨
    (d.finishTask env).burden < d.burden := by
  have hcases : d.finishTask env = d ∨ _ := finishTask_cases
  rcases hcases with hsame | ⟨d₁, -, hend⟩ |
    ⟨making, num1, num2, d₁, hbackground, -, -, hrun, hfinish⟩
  · exact Or.inl hsame
  · right
    left
    rw [hend]
    rfl
  · right
    right
    have hcalm : d₁.calm = d.calm := by
      split at hrun
      · exact umountBoth_mute.run hrun
      · rw [hrun]
    -- what is left to do for the task is to take it off the list
    have hless : Background.counted.burden < d₁.background.burden := by
      rw [background_of_calm hcalm, hbackground, Background.burden, Background.burden]
      split <;> decide
    rw [← burden_of_calm hcalm, hfinish, Daemon.burden, Daemon.burden]
    have hsame : (d₁.release env making.metaSnapper).clients = d₁.clients := rfl
    have htasks : (d₁.release env making.metaSnapper).tasks = d₁.tasks := rfl
    simp only [hsame, htasks]
    omega

/-- The last phase takes the task out of the queue. -/
theorem burden_popTask (hhead : d.background = .counted → d.tasks ≠ []) :
    d.popTask = d ∨ d.popTask.burden < d.burden := by
  rcases popTask_cases with hsame | ⟨hbackground, hpop⟩
  · exact Or.inl hsame
  · right
    obtain ⟨task, rest, htasks⟩ := List.exists_cons_of_ne_nil (hhead hbackground)
    rw [hpop, Daemon.burden, Daemon.burden, hbackground]
    have hlength : d.tasks.length = d.tasks.tail.length + 1 := by rw [htasks]; rfl
    simp only [Background.burden]
    omega

theorem unload_calm {id : Nat} : (d.unload id env).calm = d.calm := by
  have hcases : d.unload id env = d ∨ _ := unload_cases
  rcases hcases with hsame | ⟨-, written, -, -, -, hend⟩ | ⟨m, -, -, -, -, hunload⟩
  · rw [hsame]
  · rw [hend]
    rfl
  · rw [hunload]
    rfl

/-- The steps which are none of a thread that has work: of the bus when a client goes, of the clock
when a config was idle, of constructors that race, and of the disk. -/
def Action.Outer : Action → Prop
  | .disconnect _ | .unload _ _ | .race _ _ _ _ | .spoil _ _ => True
  | _ => False

theorem not_able_of_outer (h : a.Outer) : ¬ Able d a := by
  intro hable
  cases hable with
  | worker hcan => cases hcan <;> exact h
  | _ => exact h

/-- Whatever is done except for a new request, there is not more to be done afterwards, and the
step of a thread that can go on leaves less.  The other steps (a client goes, a config is
unloaded, a mount count is changed by a racing thread, an entry can not be read any more) leave
the work as it is. -/
theorem burden_step (hbase : d.Base) (hhead : d.background = .counted → d.tasks ≠ [])
    (hgoes : ¬ (d.aborted ∨ d.terminated)) (hreceive : ∀ name request, a ≠ .receive name request)
    (hrunning : (d.step a).terminated = false) :
    (d.step a).burden ≤ d.burden ∧
      (Able d a → d.step a ≠ d → (d.step a).burden < d.burden) := by
  rw [Daemon.step.eq_def, if_neg hgoes] at hrunning ⊢
  have hless : ∀ {d' : Daemon}, d' = d ∨ d'.burden < d.burden → d'.burden ≤ d.burden ∧
      (Able d a → d' ≠ d → d'.burden < d.burden) := by
    rintro d' (rfl | hless)
    · exact ⟨le_rfl, fun _ hne => absurd rfl hne⟩
    · exact ⟨hless.le, fun _ _ => hless⟩
  -- an exception would have ended the daemon
  have hgoing : ∀ {d' : Daemon}, d'.terminated = false →
      d' = d ∨ d'.terminated = true ∨ d'.burden < d.burden → d' = d ∨ d'.burden < d.burden := by
    rintro d' hrunning (hsame | hend | hless)
    · exact Or.inl hsame
    · rw [hrunning] at hend
      cases hend
    · exact Or.inr hless
  -- what is no step of a thread must not bring more work
  have hkept : ∀ {d' : Daemon}, ¬ Able d a → d'.burden ≤ d.burden → d'.burden ≤ d.burden ∧
      (Able d a → d' ≠ d → d'.burden < d.burden) := fun hnot hle =>
    ⟨hle, fun hable => absurd hable hnot⟩
  cases a with
  | receive name request => exact absurd rfl (hreceive name request)
  | disconnect name =>
    refine hkept (not_able_of_outer trivial) ?_
    have hdesks : (d.disconnect name).clients.map Client.desk =
        update Desk.name name (fun k => { k with zombie := true }) (d.clients.map Client.desk) :=
      desks_modClient (by intro; rfl)
    have hsum : ((update Desk.name name (fun k => { k with zombie := true })
        (d.clients.map Client.desk)).map Desk.burden).sum = _ :=
      sum_update_same (by intros; rfl)
    show (d.disconnect name).burden ≤ d.burden
    rw [Daemon.burden, Daemon.burden, hdesks, hsum]
    rfl
  | work name env => exact hless (burden_work hbase)
  | endWorker name => exact hless (burden_endWorker hbase)
  | mountComparison name env => exact hless (burden_mountComparison hbase)
  | finishComparison name env files => exact hless (burden_finishComparison hbase)
  | failComparison name env failure => exact hless (burden_failComparison hbase)
  | startTask env => exact hless (hgoing hrunning burden_startTask)
  | mountTask env => exact hless (hgoing hrunning burden_mountTask)
  | finishTask env => exact hless (hgoing hrunning burden_finishTask)
  | popTask => exact hless (burden_popTask hhead)
  | reap name env => exact hless (hgoing hrunning (burden_reap hbase))
  | unload id env =>
    exact hkept (not_able_of_outer trivial) (burden_of_calm unload_calm).le
  | race id num userRequest useCount => exact hkept (not_able_of_outer trivial) le_rfl
  | spoil id nums => exact hkept (not_able_of_outer trivial) le_rfl

/-! ## Somebody can go on -/

/-- The background is over with the comparison, or the daemon. -/
theorem finishTask_ends {making : Making} (hbackground : d.background = .comparing making) :
    (d.finishTask env).terminated = true ∨ (d.finishTask env).background = .counted := by
  rw [Daemon.finishTask, hbackground]
  dsimp only
  split
  · split
    · exact Or.inr rfl
    · exact Or.inl rfl
  · exact Or.inr rfl
  · exact Or.inl rfl

/-- A step that somebody can take changes something. -/
theorem Able.changes (h : Able d a) (hgoes : ¬ (d.aborted ∨ d.terminated))
    (hrunning : (d.step a).terminated = false) : d.step a ≠ d := by
  cases h with
  | worker h => exact fun hsame => h.changes hgoes (congrArg (Daemon.seat _) hsame)
  | @retire name c hclient hworker htasks hzombie =>
    intro hsame
    have hend : d.step (.endWorker name) = d.modClient name fun c =>
      { c with worker := .ended } := by
      rw [Daemon.step.eq_def, if_neg hgoes]
      show d.endWorker name = _
      rw [Daemon.endWorker, hclient]
      simp only [hworker, htasks, hzombie]
    have hlookup : (d.modClient name fun c => { c with worker := .ended }).client name =
        (d.client name).map fun c => { c with worker := .ended } :=
          lookup_update_self (by intro; rfl)
    rw [← hend, hsame, hclient] at hlookup
    have hworker' := congrArg Client.worker (Option.some.inj hlookup)
    rw [hworker] at hworker'
    cases hworker'
  | @reap name c env hclient hworker hzombie =>
    rw [Daemon.step.eq_def, if_neg hgoes] at hrunning ⊢
    show d.reap name env ≠ d
    have hrunning : (d.reap name env).terminated = false := hrunning
    rw [Daemon.reap, hclient] at hrunning ⊢
    simp only [hworker, hzombie] at hrunning ⊢
    split at hrunning
    · next d₁ hrun =>
      intro hsame
      -- the client is not listed any more
      have hnone : ({ d₁ with clients := d₁.clients.filter (·.name ≠ name) } : Daemon).client name =
          none := by
        rw [Daemon.client, lookup, List.find?_filter]
        simp
      rw [hsame, hclient] at hnone
      cases hnone
    · cases hrunning
  | start env hbackground htasks =>
    obtain ⟨task, rest, hqueue⟩ := List.exists_cons_of_ne_nil htasks
    rw [Daemon.step.eq_def, if_neg hgoes] at hrunning ⊢
    have hrunning : (d.startTask env).terminated = false := hrunning
    show d.startTask env ≠ d
    intro hsame
    have hsame := congrArg Daemon.background hsame
    rw [Daemon.startTask] at hrunning hsame
    simp only [hbackground, hqueue] at hrunning hsame
    split at hrunning
    · next d₁ hrun =>
      rw [hrun] at hsame
      cases hsame
    · cases hrunning
  | @mount making nums env hbackground hmounted hsnapshots =>
    rw [Daemon.step.eq_def, if_neg hgoes] at hrunning ⊢
    have hrunning : (d.mountTask env).terminated = false := hrunning
    show d.mountTask env ≠ d
    intro hsame
    have hsame := congrArg Daemon.background hsame
    rw [Daemon.mountTask] at hrunning hsame
    simp only [hbackground, hmounted, hsnapshots] at hrunning hsame
    split at hrunning
    · next d₁ hrun =>
      rw [hrun] at hsame
      have hmounted' : making = { making with mounted := true } := by
        injection hsame.symm
      rw [hmounted'] at hmounted
      cases hmounted
    · cases hrunning
  | @finish making env hbackground =>
    rw [Daemon.step.eq_def, if_neg hgoes] at hrunning ⊢
    have hrunning : (d.finishTask env).terminated = false := hrunning
    show d.finishTask env ≠ d
    intro hsame
    rcases finishTask_ends hbackground with hend | hcounted
    · rw [hend] at hrunning
      cases hrunning
    · rw [hsame, hbackground] at hcounted
      cases hcounted
  | pop hbackground =>
    rw [Daemon.step.eq_def, if_neg hgoes]
    show d.popTask ≠ d
    intro hsame
    have hsame := congrArg Daemon.background hsame
    rw [Daemon.popTask] at hsame
    simp only [hbackground] at hsame
    cases hsame

/-- As long as a client is listed or the background has work, somebody can go on. -/
theorem able_of_busy (hgone : ∀ c ∈ d.clients, c.zombie = true)
    (hbusy : ¬ (d.clients = [] ∧ d.tasks = [] ∧ d.background = .waiting)) (hbase : d.Base) :
    ∃ a, Able d a := by
  cases hclients : d.clients with
  | cons c rest =>
    have hmem : c ∈ d.clients := by rw [hclients]; exact List.mem_cons_self
    have hclient := hbase.addresses.client_of_mem hmem
    have hzombie := hgone c hmem
    cases hworker : c.worker with
    | waiting =>
      -- the interruption comes after the requests
      cases htasks : c.tasks with
      | nil => exact ⟨_, .retire hclient hworker htasks hzombie⟩
      | cons request tasks =>
        exact ⟨_, .worker (.work Env.quiet hclient hworker (by simp [htasks]))⟩
    | comparing making =>
      have hmaking := making_of_desk (desk_of_client hclient) hworker
      cases hsnapshots : making.snapshots with
      | none => exact ⟨_, .worker (.refuse Env.quiet hmaking hsnapshots)⟩
      | some nums =>
        cases hmounted : making.mounted with
        | false => exact ⟨_, .worker (.mount Env.quiet hmaking hmounted hsnapshots)⟩
        | true => exact ⟨_, .worker (.finish Env.quiet [] hmaking hmounted hsnapshots)⟩
    | ended => exact ⟨_, .reap Env.quiet hclient hworker hzombie⟩
  | nil =>
    cases hbackground : d.background with
    | waiting =>
      have htasks : d.tasks ≠ [] := fun htasks => hbusy ⟨hclients, htasks, hbackground⟩
      exact ⟨_, .start Env.quiet hbackground htasks⟩
    | comparing making => exact ⟨_, .finish Env.quiet hbackground⟩
    | counted => exact ⟨_, .pop hbackground⟩

/-- Then nobody has anything to do. -/
theorem not_able (hclients : d.clients = []) (htasks : d.tasks = [])
    (hbackground : d.background = .waiting) : ¬ Able d a := by
  have hclient : ∀ name, d.client name = none := by
    intro name
    rw [Daemon.client, hclients]
    rfl
  have hmaking : ∀ name, d.making name = none := by
    intro name
    rw [Daemon.making, hclient]
  intro h
  cases h with
  | worker h => cases h <;> simp_all
  | retire hclient' => simp [hclient] at hclient'
  | reap _ hclient' => simp [hclient] at hclient'
  | start _ _ hne => exact hne htasks
  | mount _ hcomparing => simp [hbackground] at hcomparing
  | finish _ hcomparing => simp [hbackground] at hcomparing
  | pop hcounted => simp [hbackground] at hcounted

/-- No client comes back. -/
theorem gone_step (hbase : d.Base) (hgoes : ¬ (d.aborted ∨ d.terminated))
    (hreceive : ∀ name request, a ≠ .receive name request)
    (hgone : ∀ c ∈ d.clients, c.zombie = true) : ∀ c ∈ (d.step a).clients, c.zombie = true := by
  intro c hc
  have hmove : Moves c.name a (d.seat c.name) ((d.step a).seat c.name) := step_moves hgoes a
  have hclient := (step_base hbase a).addresses.client_of_mem hc
  have hold : ∀ k, d.desk c.name = some k → k.zombie = true := by
    intro k hk
    obtain ⟨c', hclient', rfl⟩ := client_of_desk hk
    exact hgone c' (mem_of_client hclient')
  rw [seat_of_desk (desk_of_client hclient), Daemon.seat] at hmove
  show c.desk.zombie = true
  generalize c.desk = k' at hmove ⊢
  generalize d.desk c.name = k at hmove hold
  generalize (d.step a).mail c.name = mail' at hmove
  generalize d.mail c.name = mail at hmove
  -- only a message can bring a client, and none comes
  cases hmove with
  | other _ => exact hold k' rfl
  | first request => exact absurd rfl (hreceive _ request)
  | queue request k => exact absurd rfl (hreceive _ request)
  | leave k => rfl
  | answer _ _ _ => exact (hold _ rfl :)
  | begin _ _ _ => exact (hold _ rfl :)
  | mount _ _ => exact (hold _ rfl :)
  | finish _ _ _ => exact (hold _ rfl :)
  | interrupt _ hzombie => exact hzombie
  | retire _ _ hzombie => exact hzombie

end Burden

/-! ## Runs without end -/

section Runs

variable {start : Daemon} {actions : ℕ → Action} {n : ℕ}

/-- When all clients have gone and no other comes, a daemon that goes on gets idle: the clients
are removed, the background has done its work, and no config is in use. -/
theorem drained_in_the_end (hstart : start.Initial) (actions : ℕ → Action)
    (hfair : WeaklyFair Able Daemon.step actions start)
    (hrunning : ∀ n, (after Daemon.step actions start n).terminated = false)
    (hgone : ∀ c ∈ (after Daemon.step actions start n).clients, c.zombie = true)
    (hquiet : ∀ m ≥ n, ∀ name request, actions m ≠ .receive name request) :
    ∃ m ≥ n, (after Daemon.step actions start m).clients = [] ∧
      (after Daemon.step actions start m).tasks = [] ∧
      (after Daemon.step actions start m).background = .waiting ∧
      ∀ x ∈ (after Daemon.step actions start m).metaSnappers, x.counter = 0 := by
  have hreachable : ∀ m, (after Daemon.step actions start m).Reachable := by
    intro m
    rw [after_eq_foldl]
    exact ⟨start, _, hstart, rfl⟩
  have hgoes : ∀ m, ¬ ((after Daemon.step actions start m).aborted ∨
      (after Daemon.step actions start m).terminated) := by
    rintro m (haborted | hended)
    · rw [(hreachable m).counting.aborted] at haborted
      cases haborted
    · rw [hrunning m] at hended
      cases hended
  have hcounted : ∀ m, Counted (after Daemon.step actions start m) := fun m =>
    (hreachable m).counting.counted (hrunning m)
  -- who has gone stays gone, and nobody comes
  have hzombies : ∀ m ≥ n, ∀ c ∈ (after Daemon.step actions start m).clients, c.zombie = true := by
    intro m hm
    induction hm with
    | refl => exact hgone
    | @step m hm ih => exact gone_step (hreachable m).base (hgoes m) (hquiet m hm) ih
  have hstep : ∀ m ≥ n, _ ∧ _ := fun m hm =>
    burden_step (hreachable m).base (hcounted m).head (hgoes m) (hquiet m hm) (hrunning (m + 1))
  obtain ⟨m, hm, hclients, htasks, hbackground⟩ : ∃ m ≥ n,
      (after Daemon.step actions start m).clients = [] ∧
      (after Daemon.step actions start m).tasks = [] ∧
      (after Daemon.step actions start m).background = .waiting := by
    -- the burden never rises, and a step of whoever is able to go on lowers it
    refine hfair.eventually (fun m => (after Daemon.step actions start m).burden) ?_ ?_ ?_
    · exact fun m hm hbusy => able_of_busy (hzombies m hm) hbusy (hreachable m).base
    · exact fun m hm _ => (hstep m hm).1
    · intro m hm _ hable
      exact (hstep m hm).2 hable (hable.changes (hgoes m) (hrunning (m + 1)))
  refine ⟨m, hm, hclients, htasks, hbackground, fun x hx => ?_⟩
  -- a count is the number of its holders, and there are none left
  rw [(hcounted m).counts x hx, Daemon.uses]
  have hpending : (after Daemon.step actions start m).pending = [] := by
    rw [Daemon.pending, hbackground, htasks]
  simp only [Daemon.heldBy, Daemon.comparing, Daemon.queued, hpending, hclients]
  split <;> rfl

/-- A client asks for the configs and goes. -/
def asksAndGoes : ℕ → Action
  | 0 => .receive (str "a") .listConfigs
  | 1 => .work (str "a") Env.quiet
  | 2 => .disconnect (str "a")
  | 3 => .endWorker (str "a")
  | _ + 4 => .reap (str "a") Env.quiet

/-- After five steps nothing changes any more. -/
theorem asksAndGoes_rests (m : ℕ) : after Daemon.step asksAndGoes Daemon.rootOnly (m + 5) =
    after Daemon.step asksAndGoes Daemon.rootOnly 5 := by
  induction m with
  | zero => rfl
  | succ m ih =>
    have hnext : after Daemon.step asksAndGoes Daemon.rootOnly (m + 6) =
        (after Daemon.step asksAndGoes Daemon.rootOnly (m + 5)).step
          (.reap (str "a") Env.quiet) := rfl
    rw [hnext, ih]
    rfl

theorem asksAndGoes_fair : WeaklyFair Able Daemon.step asksAndGoes Daemon.rootOnly := by
  intro n hable
  -- after five steps there is nobody left
  obtain ⟨a, ha⟩ := hable (n + 5) (Nat.le_add_right n 5)
  rw [asksAndGoes_rests] at ha
  exfalso
  exact not_able rfl rfl rfl ha

/-- The one client asks for the configs and disconnects, and in five steps it is gone. -/
theorem drained_in_the_end_gone : ∃ m ≥ 3,
    (after Daemon.step asksAndGoes Daemon.rootOnly m).clients = [] ∧
    (after Daemon.step asksAndGoes Daemon.rootOnly m).tasks = [] ∧
    (after Daemon.step asksAndGoes Daemon.rootOnly m).background = .waiting ∧
    ∀ x ∈ (after Daemon.step asksAndGoes Daemon.rootOnly m).metaSnappers, x.counter = 0 := by
  refine drained_in_the_end rootOnly_initial asksAndGoes asksAndGoes_fair ?_ ?_ ?_
  · intro n
    -- after the fifth step nothing happens any more
    match n with
    | 0 => rfl
    | 1 => rfl
    | 2 => rfl
    | 3 => rfl
    | 4 => rfl
    | n + 5 =>
      rw [asksAndGoes_rests]
      rfl
  · intro c hc
    have hlist : (after Daemon.step asksAndGoes Daemon.rootOnly 3).clients.map Client.zombie =
        [true] := rfl
    have hzombie := List.mem_map_of_mem (f := Client.zombie) hc
    rw [hlist] at hzombie
    exact List.mem_singleton.mp hzombie
  · intro m hm name request
    match m with
    | 3 => nofun
    | m + 4 => nofun

end Runs

end Snapper.Server
