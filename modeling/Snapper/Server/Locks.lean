import Snapper.General.Run
import Snapper.Server.Moves

/-!
# Locks

A client with a lock is seen by `check_lock` of every other client until it unlocks or goes.
The lock is in the set of the client, so it does not matter what others lock and unlock.

## Main results

* `step_held`: a step keeps the lock of a client that does not unlock and does not go.
* `lock_protects`: while a client has the lock, others delete nothing, and they may create.
-/

namespace Snapper.Server

open General Act

/-! ## Requests that are processed -/

/-- The request that the worker of a client takes next. -/
def Daemon.next (name : Str) (d : Daemon) : Option Request :=
  if d.aborted ∨ d.terminated then none
  else
    match d.client name with
    | none => none
    | some client =>
      match client.worker, client.tasks with
      | .waiting, request :: _ => some request
      | _, _ => none

/-- The request is taken. -/
def Daemon.take (name : Str) : Daemon → Daemon :=
  Daemon.modClient name fun c => { c with tasks := c.tasks.tail }

/-- The request deletes the config or snapshots of it. -/
def Request.deletes (configName : Str) : Request → Bool
  | .deleteConfig name => name = configName
  | .deleteSnapshots name _ => name = configName
  | _ => false

/-- The request creates a config or a snapshot. -/
def Request.creates : Request → Bool
  | .createConfig .. => true
  | .createSingleSnapshot .. => true
  | .createPreSnapshot .. => true
  | .createPostSnapshot .. => true
  | _ => false

section Next

variable {name : Str} {env : Env} {d : Daemon} {request : Request}

/-- A worker that has a request serves it. -/
theorem step_work (h : d.next name = some request) :
    d.step (.work name env) = dispatch env name request (d.take name) := by
  rw [Daemon.next] at h
  split at h
  · cases h
  · next hrunning =>
    rw [Daemon.step.eq_def, if_neg hrunning]
    show d.work name env = _
    rw [Daemon.work]
    -- `next` is there only for a waiting worker with a request in its queue
    cases hclient : d.client name with
    | none =>
      rw [hclient] at h
      cases h
    | some client =>
      rw [hclient] at h
      dsimp only at h ⊢
      cases hworker : client.worker with
      | waiting =>
        cases htasks : client.tasks with
        | nil => simp [hworker, htasks] at h
        | cons request' rest =>
          obtain rfl : request' = request := by simpa [hworker, htasks] using h
          rfl
      | comparing making => simp [hworker] at h
      | ended => simp [hworker] at h

/-- A worker that has none does nothing. -/
theorem step_work_none (h : d.next name = none) : d.step (.work name env) = d := by
  rw [Daemon.next] at h
  rw [Daemon.step.eq_def]
  split
  · rfl
  · next hrunning =>
    rw [if_neg hrunning] at h
    show d.work name env = _
    rw [Daemon.work]
    cases hclient : d.client name with
    | none => rfl
    | some client =>
      rw [hclient] at h
      dsimp only at h ⊢
      -- an idle worker with an empty queue, or one that is busy
      cases hworker : client.worker with
      | waiting =>
        cases htasks : client.tasks with
        | nil => rfl
        | cons request rest => simp [hworker, htasks] at h
      | comparing making => rfl
      | ended => rfl

/-- The client of a request is there, and its worker has nothing else to do. -/
theorem client_of_next (h : d.next name = some request) :
    ∃ client, d.client name = some client ∧ client.worker = .waiting := by
  rw [Daemon.next] at h
  split at h
  · cases h
  · cases hclient : d.client name with
    | none =>
      rw [hclient] at h
      cases h
    | some client =>
      rw [hclient] at h
      dsimp only at h
      split at h
      · next hworker _ => exact ⟨client, rfl, hworker⟩
      · cases h

theorem take_base (h : d.Base) : (d.take name).Base := h.modClient (by intro; rfl)

/-- The step of a worker makes changes of the request that it takes. -/
theorem step_work_changes (hd : d.Base) (h : d.next name = some request) :
    Relation.ReflTransGen (Change name request) (d.take name) (d.step (.work name env)) := by
  obtain ⟨client, hclient, hworker⟩ := client_of_next h
  rw [step_work h]
  exact dispatch_changes (take_base hd) (idle_of_taken hclient hworker)

end Next

/-! ## Holding a lock -/

/-- The client is listed, it is not a zombie and has the lock. -/
def Held (name configName : Str) (d : Daemon) : Prop :=
  ∃ c ∈ d.clients, c.name = name ∧ c.zombie = false ∧ configName ∈ c.locks

section Held

variable {name configName : Str} {d d' : Daemon} {me : Str} {request : Request}

/-- A lock is part of what clients hold. -/
theorem held_of_holdings (hsame : d'.holdings = d.holdings) (h : Held name configName d) :
    Held name configName d' := by
  obtain ⟨c, hc, hname, hzombie, hlock⟩ := h
  have hmem : c.holding ∈ d'.holdings := by
    rw [hsame]
    exact List.mem_map_of_mem hc
  obtain ⟨c', hc', hholding⟩ := List.mem_map.mp hmem
  simp only [Client.holding, Holding.mk.injEq] at hholding
  obtain ⟨hname', hlocks', -, hzombie'⟩ := hholding
  exact ⟨c', hc', hname'.trans hname, hzombie'.trans hzombie, hlocks' ▸ hlock⟩

/-- It is a matter of the clients only. -/
theorem held_of_clients (hsame : d'.clients = d.clients) (h : Held name configName d) :
    Held name configName d' := by
  rw [Held, hsame]
  exact h

/-- A change of a client that keeps this lock of this client. -/
theorem held_modClient {g : Client → Client} (h : Held name configName d)
    (hname : ∀ c, (g c).name = c.name) (hzombie : ∀ c, c.name = me → c.name = name →
      (g c).zombie = c.zombie)
    (hlock : ∀ c, c.name = me → c.name = name → configName ∈ c.locks → configName ∈ (g c).locks) :
    Held name configName (d.modClient me g) := by
  obtain ⟨c, hc, rfl, hlive, hheld⟩ := h
  by_cases hme : c.name = me
  · refine ⟨g c, mem_update_self hc hme, hname c, ?_, hlock c hme rfl hheld⟩
    rw [hzombie c hme rfl]
    exact hlive
  · exact ⟨c, mem_update_other hc hme, rfl, hlive, hheld⟩

/-- Creating a snapshot does nothing to clients. -/
theorem Create.clients (h : Create d d') : d'.clients = d.clients := by
  cases h with
  | edit h => exact h.clients
  | makeDir => rfl
  | removeDir => rfl
  | insert => rfl

/-- Only the unlocking by the client itself ends a lock.  A request of another client changes
another set of locks. -/
theorem Change.held (h : Change me request d d') (hd : Held name configName d)
    (hunlock : me = name → request ≠ .unlockConfig configName) : Held name configName d' := by
  cases h with
  | create h => exact held_of_clients h.clients hd
  | mount hrequest h => exact held_of_clients h.clients hd
  | loseInfo => exact hd
  | erase => exact hd
  -- a client that locks one more config keeps the locks it has
  | lock =>
    apply held_modClient hd
    · exact fun _ => rfl
    · exact fun _ _ _ => rfl
    · intro c _ _ hlock
      exact Finset.mem_insert_of_mem hlock
  | @unlock configName' hrequest =>
    apply held_modClient hd
    · exact fun _ => rfl
    · exact fun _ _ _ => rfl
    · -- it is another lock
      intro c hme hname hlock
      apply Finset.mem_erase.mpr ⟨_, hlock⟩
      rintro rfl
      exact hunlock (hme.symm.trans hname) hrequest
  | addMount =>
    apply held_modClient hd
    · exact fun _ => rfl
    · exact fun _ _ _ => rfl
    · exact fun _ _ _ hlock => hlock
  | removeMount =>
    -- neither branch of `remove_mount` is about locks
    have hremove : ∀ c : Client, ∀ key num, (c.removeMount key num).name = c.name ∧
        (c.removeMount key num).zombie = c.zombie ∧ (c.removeMount key num).locks = c.locks := by
      intro c key num
      rw [Client.removeMount]
      split
      · exact ⟨rfl, rfl, rfl⟩
      · split
        · exact ⟨rfl, rfl, rfl⟩
        · exact ⟨rfl, rfl, rfl⟩
    apply held_modClient hd
    · exact fun c => (hremove c _ _).1
    · exact fun c _ _ => (hremove c _ _).2.1
    · intro c _ _ hlock
      rw [(hremove c _ _).2.2]
      exact hlock
  | addTask => exact hd
  | createConfig => exact hd
  | removeConfig => exact hd
  | loseInfos => exact hd
  | startComparison =>
    apply held_modClient (d := incUseCount _ d) hd
    · exact fun _ => rfl
    · exact fun _ _ _ => rfl
    · exact fun _ _ _ hlock => hlock
  | endComparison =>
    apply held_modClient (d := decUseCount _ _ d) hd
    · exact fun _ => rfl
    · exact fun _ _ _ => rfl
    · exact fun _ _ _ hlock => hlock

/-- The client neither goes nor unlocks in this step. -/
def Keeps (name configName : Str) (d : Daemon) (a : Action) : Prop :=
  a ≠ .disconnect name ∧
    ∀ env, a = .work name env → d.next name ≠ some (.unlockConfig configName)

/-- A step keeps the lock of a client that does not unlock and does not go. -/
theorem step_held (hd : d.Base) (h : Held name configName d) {a : Action}
    (hkeeps : Keeps name configName d a) : Held name configName (d.step a) := by
  by_cases hinternal : a.internal = true
  -- a step inside the daemon does not change what clients hold
  · exact held_of_holdings (step_holdings hinternal) h
  · cases a with
    | receive other request =>
      rw [Daemon.step.eq_def]
      split
      · exact h
      · show Held name configName (d.receive other request)
        rw [Daemon.receive]
        apply held_modClient
        · split
          -- a new client comes after those that are there
          · obtain ⟨c, hc, hheld⟩ := h
            exact ⟨c, List.mem_append_left _ hc, hheld⟩
          · exact h
        · exact fun _ => rfl
        · exact fun _ _ _ => rfl
        · exact fun _ _ _ hlock => hlock
    | disconnect other =>
      rw [Daemon.step.eq_def]
      split
      · exact h
      · apply held_modClient h
        · exact fun _ => rfl
        · -- another client goes
          rintro c rfl hname
          exact absurd (congrArg Action.disconnect hname) hkeeps.1
        · exact fun _ _ _ hlock => hlock
    | work other env =>
      cases hnext : d.next other with
      | none =>
        rw [step_work_none hnext]
        exact h
      | some request =>
        have htaken : Held name configName (d.take other) := by
          apply held_modClient h
          · exact fun _ => rfl
          · exact fun _ _ _ => rfl
          · exact fun _ _ _ hlock => hlock
        -- only the unlock request of the holder itself ends the lock
        apply keeps_of_steps _ (step_work_changes hd hnext) htaken
        intro d₁ d₂ hchange hheld
        apply hchange.held hheld
        rintro rfl rfl
        exact hkeeps.2 env rfl hnext
    | reap other env =>
      rw [Daemon.step.eq_def]
      split
      · exact h
      · show Held name configName (d.reap other env)
        have hclients : (d.reap other env).clients = d.clients ∨ _ := reap_clients hd
        rcases hclients with hsame | ⟨⟨client, hclient, hzombie⟩, hrest⟩
        · exact held_of_clients hsame h
        · -- the client that is reaped is a zombie
          obtain ⟨c, hc, rfl, hlive, hlock⟩ := h
          have hne : c.name ≠ other := by
            rintro rfl
            have hsame := hd.addresses.client_of_mem hc
            obtain rfl := Option.some.inj (hclient.symm.trans hsame)
            rw [hzombie] at hlive
            cases hlive
          refine ⟨c, ?_, rfl, hlive, hlock⟩
          rw [hrest]
          exact List.mem_filter.mpr ⟨hc, by simpa using hne⟩
    | _ => exact absurd rfl hinternal

end Held

/-! ## What the lock does to the others -/

section Others

variable {env : Env} {me name configName : Str} {d : Daemon} {nums : List UInt32}

/-- The lock is seen by every other client. -/
theorem lockedByOther_of_held (h : Held name configName d) (hme : me ≠ name) :
    d.lockedByOther me configName = true := by
  obtain ⟨c, hc, rfl, hlive, hlock⟩ := h
  apply List.any_eq_true.mpr
  refine ⟨c, hc, ?_⟩
  have hne : c.name ≠ me := fun h => hme h.symm
  simp [hlive, hne, Client.hasLock, hlock]

/-- The check fails with the exception of locks, without a change. -/
theorem checkLock_run (h : d.lockedByOther me configName = true) :
    (checkLock me configName).run d = (.error .Lock, d) := by
  simp [checkLock, Act.run_bind, h, Act.throwIf]

/-- The check for root changes nothing, whatever it finds. -/
theorem checkRoot_run : (checkRoot env).run d = (.ok ⟨⟩, d) ∨
    ∃ e, (checkRoot env).run d = (.error e, d) := by
  cases hbus : env.fault (.getUnixUserid false) with
  | some fault =>
    exact Or.inr ⟨.fault fault, by simp [checkRoot, getUnixUserid, call, Act.run_bind, hbus]⟩
  | none =>
    by_cases huid : env.uid = 0
    · exact Or.inl (by
        simp [checkRoot, getUnixUserid, call, Act.run_bind, hbus, Act.throwIf, huid])
    · exact Or.inr ⟨.Permissions, by
        simp [checkRoot, getUnixUserid, call, Act.run_bind, hbus, Act.throwIf, huid]⟩

/-- The request is refused, at the lock or before it. -/
theorem deleteConfig_locked (h : d.lockedByOther me configName = true) :
    ∃ e, (deleteConfig env me configName).run d = (.error e, d) := by
  cases hfind : d.find configName with
  | none => exact ⟨_, Act.run_bind_error (findConfig_run_none hfind)⟩
  | some m =>
    rw [deleteConfig, Act.run_bind_ok (findConfig_run hfind)]
    have hroot : (checkRoot env).run d = (.ok ⟨⟩, d) ∨ _ := checkRoot_run
    rcases hroot with hroot | ⟨e, hroot⟩
    · rw [Act.run_bind_ok hroot]
      exact ⟨_, Act.run_bind_error (checkLock_run h)⟩
    · exact ⟨e, Act.run_bind_error hroot⟩

/-- The request is refused, at the lock or before it, so that no snapshot is deleted. -/
theorem deleteSnapshots_locked (h : d.lockedByOther me configName = true) :
    ∃ e, (deleteSnapshots env me configName nums).run d = (.error e, d) := by
  cases hfind : d.find configName with
  | none => exact ⟨_, Act.run_bind_error (findConfig_run_none hfind)⟩
  | some m =>
    rw [deleteSnapshots, Act.run_bind_ok (findConfig_run hfind)]
    by_cases hpermitted : Permitted env m
    · rw [Act.run_bind_ok (checkPermission_run hpermitted)]
      exact ⟨_, Act.run_bind_error (checkLock_run h)⟩
    · have hdenied : ∃ e, (checkPermission env m).run d = (.error e, d) :=
        checkPermission_run_not hpermitted
      obtain ⟨e, hdenied⟩ := hdenied
      exact ⟨e, Act.run_bind_error hdenied⟩

/-- A request of another client that deletes is answered with an error, and that is all. -/
theorem dispatch_deletes {request : Request} (h : d.lockedByOther me configName = true)
    (hdeletes : request.deletes configName = true) :
    ∃ e : Exception, dispatch env me request d = d.send (.error me e.error) := by
  have hrefused : ∃ e, (handle env me request).run d = (.error e, d) := by
    cases request with
    | deleteConfig name =>
      obtain rfl : name = configName := by simpa [Request.deletes] using hdeletes
      exact deleteConfig_locked h
    | deleteSnapshots name nums =>
      obtain rfl : name = configName := by simpa [Request.deletes] using hdeletes
      exact deleteSnapshots_locked h
    | _ => cases hdeletes
  obtain ⟨e, hrun⟩ := hrefused
  exact ⟨e, by rw [dispatch, hrun]⟩

end Others

/-! ## Creating does not look at locks -/

section Creating

variable {α : Type} {env : Env} {me configName : Str} {id : Nat} {num : UInt32}

/-- The action never throws the exception of `check_lock`. -/
def Unlocked (c : Handler α) : Prop :=
  Spec (fun _ => True) c (fun _ _ => True) fun e _ => e ≠ Exception.Lock

namespace Unlocked

variable {β : Type}

theorem pure {a : α} : Unlocked (Pure.pure a) := Spec.pure fun _ _ => trivial

theorem throw {e : Exception} (h : e ≠ .Lock) : Unlocked (MonadExcept.throw e : Handler α) :=
  Spec.throw fun _ _ => h

theorem read {f : Daemon → α} : Unlocked (Act.read f) := Spec.read fun _ _ => trivial

theorem modify {f : Daemon → Daemon} : Unlocked (Act.modify f) := Spec.modify fun _ _ => trivial

theorem throwIf {b : Bool} {e : Exception} (h : e ≠ .Lock) : Unlocked (Act.throwIf b e) :=
  Spec.throwIf (fun _ _ _ => h) fun _ _ _ => trivial

theorem bind {c : Handler α} {k : α → Handler β} (hc : Unlocked c) (hk : ∀ a, Unlocked (k a)) :
    Unlocked (c >>= k) := Spec.bind hc hk

theorem call {c : Call} : Unlocked (Server.call env c) := by
  rw [Server.call]
  split
  · exact pure
  · exact throw (by simp)

end Unlocked

theorem findConfig_unlocked : Unlocked (findConfig configName) := by
  apply Unlocked.bind Unlocked.read
  intro found
  cases found with
  | none => exact Unlocked.throw (by simp)
  | some m => exact Unlocked.pure

theorem getUnixUserid_unlocked {again : Bool} : Unlocked (getUnixUserid env again) := by
  apply Unlocked.bind Unlocked.call
  intro _
  exact Unlocked.pure

/-- A config that cannot be loaded is another exception. -/
theorem getSnapper_unlocked : Unlocked (getSnapper env id) := by
  apply Unlocked.bind Unlocked.read
  intro found
  cases found with
  | none => exact Unlocked.pure
  | some m =>
    apply Spec.ite
    · intro _
      exact Unlocked.modify
    · intro _
      apply Unlocked.bind Unlocked.call
      intro _
      apply Unlocked.bind Unlocked.modify
      intro _
      exact Unlocked.modify

/-- Opening a config never asks for its lock. -/
theorem openConfig_unlocked : Unlocked (openConfig env configName) := by
  apply Unlocked.bind findConfig_unlocked
  intro m
  apply Unlocked.bind
  · apply Unlocked.bind getUnixUserid_unlocked
    intro uid
    exact Unlocked.throwIf (by simp)
  · intro _
    apply Unlocked.bind getSnapper_unlocked
    intro _
    exact Unlocked.pure

theorem nextNumber_unlocked : Unlocked (nextNumber env id) := by
  apply Unlocked.bind Unlocked.read
  intro snapshots
  apply Unlocked.bind Unlocked.read
  intro m
  dsimp only
  split
  · exact Unlocked.throw (by simp)
  · apply Unlocked.bind Unlocked.call
    intro _
    apply Unlocked.bind Unlocked.modify
    intro _
    exact Unlocked.pure

/-- What a creation throws are exceptions of calls. -/
theorem createHelper_unlocked {s : Snapshot} : Unlocked (createHelper env id s) := by
  have hremove : ∀ {e : Exception}, e ≠ .Lock →
      Unlocked (removeDir env id s.num >>= fun _ => throw e : Handler PUnit) := by
    intro e he
    apply Unlocked.bind Unlocked.modify
    intro _
    exact Unlocked.throw he
  apply Unlocked.bind (Unlocked.throwIf (by simp))
  intro _
  split
  · exact hremove (by simp)
  · exact Unlocked.throw (by simp)
  · split
    · apply Unlocked.bind Unlocked.call
      intro _
      exact hremove (by simp)
    · exact Unlocked.throw (by simp)
    · exact Unlocked.modify

theorem createSnapshot_unlocked {type : SnapshotType} {preNum : UInt32} {description : Str} :
    Unlocked (createSnapshot env id type preNum description) := by
  apply Unlocked.bind nextNumber_unlocked
  intro num
  apply Unlocked.bind createHelper_unlocked
  intro _
  exact Unlocked.pure

theorem setField_unlocked {f : Snapshot → Snapshot} : Unlocked (setField id num f) := by
  apply Spec.ite
  · intro _
    exact Unlocked.throw (by simp)
  · intro _
    exact Unlocked.modify

/-- Writing `info.xml` never asks for the lock. -/
theorem flushInfo_unlocked {again : Bool} : Unlocked (flushInfo env id num again) := by
  apply Unlocked.bind Unlocked.read
  intro found
  cases found with
  | none => exact Unlocked.pure
  | some s =>
    apply Spec.ite
    · intro _
      apply Unlocked.bind (Unlocked.throwIf (by simp))
      intro _
      apply Unlocked.bind Unlocked.call
      intro _
      apply Unlocked.bind Unlocked.modify
      intro _
      exact Unlocked.modify
    · intro _
      exact Unlocked.pure

/-- What follows the creation throws for the user, the userdata or the info. -/
theorem finishCreate_unlocked {cleanup : Str} {userdata : StrMap} :
    Unlocked (finishCreate env id num cleanup userdata) := by
  apply Unlocked.bind getUnixUserid_unlocked
  intro uid
  apply Unlocked.bind setField_unlocked
  intro _
  apply Unlocked.bind setField_unlocked
  intro _
  apply Unlocked.bind
  · apply Spec.ite
    · intro _
      exact Unlocked.throw (by simp)
    · intro _
      exact setField_unlocked
  · intro _
    exact flushInfo_unlocked

/-- The answer and the signal. -/
theorem reply_signal_unlocked {reply : Reply} {msg : Sent} :
    Unlocked (sendReply me reply >>= fun _ => signal msg) := by
  apply Unlocked.bind Unlocked.modify
  intro _
  exact Unlocked.modify

/-- No create request is refused because of a lock. -/
theorem creates_unlocked {request : Request} (h : request.creates = true) :
    Unlocked (handle env me request) := by
  cases request with
  | createConfig configName =>
    apply Unlocked.bind
    · apply Unlocked.bind getUnixUserid_unlocked
      intro uid
      exact Unlocked.throwIf (by simp)
    · intro _
      apply Unlocked.bind Unlocked.read
      intro known
      apply Unlocked.bind (Unlocked.throwIf (by simp))
      intro _
      apply Unlocked.bind Unlocked.call
      intro _
      apply Unlocked.bind Unlocked.modify
      intro _
      exact reply_signal_unlocked
  | createSingleSnapshot configName description cleanup userdata =>
    apply Unlocked.bind openConfig_unlocked
    intro m
    apply Unlocked.bind createSnapshot_unlocked
    intro num
    apply Unlocked.bind finishCreate_unlocked
    intro _
    exact reply_signal_unlocked
  | createPreSnapshot configName description cleanup userdata =>
    apply Unlocked.bind openConfig_unlocked
    intro m
    apply Unlocked.bind createSnapshot_unlocked
    intro num
    apply Unlocked.bind finishCreate_unlocked
    intro _
    exact reply_signal_unlocked
  -- the pre snapshot is looked up first; neither of its errors is about locks
  | createPostSnapshot configName preNum description cleanup userdata =>
    apply Unlocked.bind openConfig_unlocked
    intro m
    apply Unlocked.bind Unlocked.read
    intro pre
    apply Unlocked.bind
    · apply Unlocked.bind Unlocked.read
      intro snapshots
      cases pre with
      | none => exact Unlocked.throw (by simp)
      | some pre =>
        apply Spec.ite
        · intro _
          exact Unlocked.throw (by simp)
        · intro _
          exact createSnapshot_unlocked
    · intro num
      apply Unlocked.bind finishCreate_unlocked
      intro _
      apply Spec.ite
      · intro _
        apply Unlocked.bind
        · apply Unlocked.bind Unlocked.modify
          intro _
          exact Unlocked.modify
        · intro _
          exact reply_signal_unlocked
      · intro _
        exact reply_signal_unlocked
  | _ => cases h

end Creating

/-! ## The guarantee -/

section Protection

variable {name configName : Str} {d : Daemon}

/-- Other clients delete neither the config nor snapshots of it: their requests are answered
with an error and change nothing else.  What they create is not refused because of a lock. -/
def Protected (name configName : Str) (d : Daemon) : Prop :=
  ∀ other env request, other ≠ name → d.next other = some request →
    (request.deletes configName = true → ∃ e : Exception,
      d.step (.work other env) = (d.take other).send (.error other e.error)) ∧
    (request.creates = true →
      ((handle env other request).run (d.take other)).1 ≠ .error .Lock)

/-- Taking a request from a queue ends no lock. -/
theorem held_take {other : Str} (h : Held name configName d) :
    Held name configName (d.take other) := by
  apply held_modClient h
  · exact fun _ => rfl
  · exact fun _ _ _ => rfl
  · exact fun _ _ _ hlock => hlock

/-- The lock is seen by every other client, so its requests to delete are refused. -/
theorem protected_of_held (h : Held name configName d) : Protected name configName d := by
  intro other env request hother hnext
  constructor
  · intro hdeletes
    rw [step_work hnext]
    exact dispatch_deletes (lockedByOther_of_held (held_take h) hother) hdeletes
  · intro hcreates hlock
    have hunlocked : Unlocked (handle env other request) := creates_unlocked hcreates
    have hspec := hunlocked (d.take other) trivial
    cases hrun : (handle env other request).run (d.take other) with
    | mk r d' =>
      rw [hrun] at hspec hlock
      cases r with
      | ok _ => cases hlock
      | error e => exact hspec (Except.error.inj hlock)

/-- Once the request is processed, the client holds the lock. -/
theorem held_of_locked {env : Env} (hnext : d.next name = some (.lockConfig configName))
    (hlive : (d.client name).any (!·.zombie) = true)
    (hdone : ((handle env name (.lockConfig configName)).run (d.take name)).1 = .ok ⟨⟩) :
    Held name configName (d.step (.work name env)) := by
  obtain ⟨client, hclient, hworker⟩ := client_of_next hnext
  have hzombie : client.zombie = false := by simpa [hclient] using hlive
  rw [step_work hnext, dispatch]
  -- the request is not refused, so it comes to the insertion
  have hlocked : ∃ m, (d.take name).find configName = some m ∧
      (checkPermission env m).run (d.take name) = (.ok ⟨⟩, d.take name) := by
    cases hfind : (d.take name).find configName with
    | none =>
      have hrun : (handle env name (.lockConfig configName)).run (d.take name) = (.error _, _) :=
        Act.run_bind_error (findConfig_run_none hfind)
      rw [hrun] at hdone
      cases hdone
    | some m =>
      by_cases hpermitted : Permitted env m
      · exact ⟨m, rfl, checkPermission_run hpermitted⟩
      · obtain ⟨e, hdenied⟩ : ∃ e, (checkPermission env m).run (d.take name) = (.error e, _) :=
          checkPermission_run_not hpermitted
        have hrun : (handle env name (.lockConfig configName)).run (d.take name) =
            (.error e, d.take name) := by
          show (lockConfig env name configName).run (d.take name) = _
          rw [lockConfig, Act.run_bind_ok (findConfig_run hfind), Act.run_bind_error hdenied]
        rw [hrun] at hdone
        cases hdone
  obtain ⟨m, hfind, hpermission⟩ := hlocked
  have hrun : (handle env name (.lockConfig configName)).run (d.take name) =
      (.ok ⟨⟩, ((d.take name).modClient name fun c =>
        { c with locks := insert configName c.locks }).send (.reply name .done)) := by
    show (lockConfig env name configName).run (d.take name) = _
    rw [lockConfig, Act.run_bind_ok (findConfig_run hfind), Act.run_bind_ok hpermission]
    rfl
  rw [hrun]
  have hname : client.name = name := name_of_client hclient
  have hmem : { client with tasks := client.tasks.tail } ∈ (d.take name).clients :=
    mem_update_self (mem_of_client hclient) hname
  exact ⟨_, mem_update_self hmem hname, hname, hzombie, Finset.mem_insert_self _ _⟩

/-- From the processing of `LockConfig` on, as long as the client neither unlocks nor goes,
whatever the others do: the config is protected. -/
theorem lock_protects {env : Env} {actions done rest : List Action} (hd : d.Reachable)
    (hnext : d.next name = some (.lockConfig configName))
    (hlive : (d.client name).any (!·.zombie) = true)
    (hdone : ((handle env name (.lockConfig configName)).run (d.take name)).1 = .ok ⟨⟩)
    (hkeeps : Along (Keeps name configName) Daemon.step actions (d.step (.work name env)))
    (hpoint : actions = done ++ rest) :
    Protected name configName (done.foldl Daemon.step (d.step (.work name env))) := by
  have hstart : (d.step (.work name env)).Base ∧ Held name configName (d.step (.work name env)) :=
    ⟨step_base hd.base _, held_of_locked hnext hlive hdone⟩
  have hheld : (done.foldl Daemon.step (d.step (.work name env))).Base ∧
      Held name configName (done.foldl Daemon.step (d.step (.work name env))) := by
    apply hkeeps.induction (P := fun _ d => d.Base ∧ Held name configName d) hstart _ hpoint
    intro done a rest _ hinv hkeep
    exact ⟨step_base hinv.1 a, step_held hinv.1 hinv.2 hkeep⟩
  exact protected_of_held hheld.2

end Protection

/-- One client has locked `root` when another comes and asks to delete it. -/
theorem lock_protects_root : Protected (str "a") (str "root")
    ([.receive (str "b") (.deleteConfig (str "root"))].foldl Daemon.step
      (([.receive (str "a") (.lockConfig (str "root"))].foldl Daemon.step Daemon.rootOnly).step
        (.work (str "a") Env.quiet))) := by
  apply lock_protects (rootOnly_reachable _) rfl rfl rfl _ (List.append_nil _).symm
  exact ⟨⟨by simp, by intro env h; cases h⟩, trivial⟩

end Snapper.Server
