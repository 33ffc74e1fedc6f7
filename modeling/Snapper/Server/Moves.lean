import Snapper.Server.Dispatch
import Snapper.Server.Steps

/-!
# What the other threads can change

The comparisons of the clients and of the background and the end of a client, taken apart: a
part that mounts or unmounts, and what is done with its result.

## Main results

* `mountComparison_cases` to `unload_cases`: what each step does.
* `Reachable.base`: addresses and numbers are well-formed in every reachable state.
* `step_holdings`: only requests and the comings and goings of clients change what clients hold.
-/

namespace Snapper.Server

open General Act

/-! ## Mounting for a comparison -/

section Mounting

variable {env : Env} {id : Nat} {num num1 num2 : UInt32} {configName : Str}
  {l : List (MountKey × UInt32)} {R : Daemon → Daemon → Prop}

/-- A kind of change that has all changes of snapshots which keep the numbers.  What mounts and
counts do is stated once for every such kind. -/
def ChangesSnapshots (R : Daemon → Daemon → Prop) : Prop :=
  ∀ {d : Daemon} (id : Nat) (num : UInt32) {f : Snapshot → Snapshot}, (∀ s, (f s).num = s.num) →
    R d (d.modSnapshot id num f)

/-- Mounting or unmounting one snapshot of a comparison is what the call does to a snapshot that
is found; where there is none, or where it is the current system, nothing is done. -/
theorem mountOf_through {f : Env → Nat → Str → Snapshot → Bool → Handler PUnit}
    (hf : ∀ configName s, Through R (fun _ => True) (f env id configName s false)
      fun _ _ => True) :
    Through R (fun _ => True) (mountOf env id num f) fun _ _ => True := by
  apply Through.ite
  · intro _
    exact Through.pure fun _ h => h
  · intro _
    apply Through.bind Through.look
    intro m
    apply Through.bind Through.look
    intro s
    split
    · exact hf _ _
    · exact Through.pure fun _ h => h

theorem mountFilesystemSnapshot_changes (hR : ChangesSnapshots R) {s : Snapshot} :
    Through R (fun _ => True) (mountFilesystemSnapshot env id configName s false)
      fun _ _ => True := by
  apply Through.conseq _ (fun _ h => h) (fun _ _ _ => trivial)
  · exact fun _ d => True ∧ s.num ≠ 0
  · exact mountFilesystemSnapshot_through (fun _ => hR id s.num checkMounted_num)
      (fun _ => hR id s.num countMount_num) fun _ _ _ h => h

theorem umountFilesystemSnapshot_changes (hR : ChangesSnapshots R) {P : Daemon → Prop}
    {s : Snapshot} (hP : ∀ d d', R d d' → P d → P d') :
    Through R P (umountFilesystemSnapshot env id configName s false) fun _ => P :=
  umountFilesystemSnapshot_through (fun _ => hR id s.num checkMounted_num)
    (fun _ => hR id s.num countUmount_num) hP

/-- A comparison mounts its first snapshot and then its second one. -/
theorem mountBoth_changes (hR : ChangesSnapshots R) :
    Through R (fun _ => True) (mountBoth env id num1 num2) fun _ _ => True := by
  apply Through.bind (mountOf_through fun _ _ => mountFilesystemSnapshot_changes hR)
  intro _
  exact mountOf_through fun _ _ => mountFilesystemSnapshot_changes hR

/-- A comparison unmounts its first snapshot and then its second one. -/
theorem umountBoth_changes (hR : ChangesSnapshots R) :
    Through R (fun _ => True) (umountBoth env id num1 num2) fun _ _ => True := by
  have humount : ∀ configName s, Through R (fun _ => True)
      (umountFilesystemSnapshot env id configName s false) fun _ _ => True :=
    fun _ _ => umountFilesystemSnapshot_changes hR fun _ _ _ h => h
  apply Through.bind (mountOf_through humount)
  intro _
  exact mountOf_through humount

/-- Counting is a change of snapshots that keeps their numbers. -/
theorem recount_changes : ChangesSnapshots Recount := by
  intro d id num f hnum
  exact Recount.recount id num hnum

theorem mountBoth_through :
    Through Recount (fun _ => True) (mountBoth env id num1 num2) fun _ _ => True :=
  mountBoth_changes recount_changes

theorem umountBoth_through :
    Through Recount (fun _ => True) (umountBoth env id num1 num2) fun _ _ => True :=
  umountBoth_changes recount_changes

/-- A mount is given back as often as the client has used it. -/
theorem umountTimes_through (hR : ChangesSnapshots R) {P : Daemon → Prop} {n : Nat}
    (hP : ∀ d d', R d d' → P d → P d') :
    Through R P (umountTimes env id configName num n) fun _ => P := by
  induction n with
  | zero => exact Through.pure fun _ h => h
  | succ n ih =>
    apply Through.bind getSnapshot_through
    intro s
    apply Through.bind (Q := fun _ => P)
    · exact (umountFilesystemSnapshot_changes hR hP).conseq (fun _ h => h.1) (fun _ _ h => h)
    · intro _
      exact ih

/-- The loop over the mounts of a client that goes: for each entry the config is found and loaded,
and the snapshot unmounted. -/
theorem umountAll_through :
    Through Recount Daemon.Base (umountAll env l) fun _ => Daemon.Base := by
  induction l with
  | nil => exact Through.pure fun _ h => h
  | cons entry rest ih =>
    apply Through.bind findConfig_through
    intro m
    apply Through.bind (getSnapper_through.mono fun _ _ h => Recount.edit h)
    intro _
    apply Through.bind getSnapshot_through
    intro _
    apply Through.bind (Q := fun _ => Daemon.Base)
    · apply (umountTimes_through recount_changes fun _ _ h hd => h.base hd).conseq
      · exact fun _ h => h.1.1
      · exact fun _ _ h => h
    · intro _
      exact ih

end Mounting

/-! ## The parts of a step -/

section Cases

variable {env : Env} {name : Str} {d : Daemon}

open Relation

/-- The worker that takes a task has none of its own in progress. -/
theorem idle_of_taken {client : Client} (hclient : d.client name = some client)
    (hworker : client.worker = .waiting) :
    (d.modClient name fun c => { c with tasks := c.tasks.tail }).Idle name := by
  refine ⟨{ client with tasks := client.tasks.tail }, ?_, hworker⟩
  have hlookup : (d.modClient name fun c => { c with tasks := c.tasks.tail }).client name =
      (d.client name).map _ := lookup_update_self (by intro; rfl)
  rw [hlookup, hclient]
  rfl

/-- A worker takes a task, or it has none or is busy; what it does with the task is `dispatch`. -/
theorem work_cases : d.work name env = d ∨
    ∃ client request rest, d.client name = some client ∧ client.worker = .waiting ∧
      client.tasks = request :: rest ∧
      d.work name env = dispatch env name request
        (d.modClient name fun c => { c with tasks := c.tasks.tail }) := by
  rw [Daemon.work]
  cases hclient : d.client name with
  | none => exact Or.inl rfl
  | some client =>
    dsimp only
    split
    · next request rest hworker htasks =>
      exact Or.inr ⟨client, request, rest, rfl, hworker, htasks, rfl⟩
    · exact Or.inl rfl

/-- Either there is no comparison to mount for, or its snapshots were mounted and it goes on, or
an exception ends it with an answer. -/
theorem mountComparison_cases : d.mountComparison name env = d ∨
    ∃ making num1 num2 d₁, d.making name = some making ∧ making.mounted = false ∧
      making.snapshots = some (num1, num2) ∧ ReflTransGen Recount d d₁ ∧
      (((mountBoth env making.metaSnapper num1 num2).run d = (.ok ⟨⟩, d₁) ∧
          d.mountComparison name env =
            d₁.setWorker name (.comparing { making with mounted := true })) ∨
        ∃ e, (mountBoth env making.metaSnapper num1 num2).run d = (.error e, d₁) ∧
          d.mountComparison name env = d₁.failed env name making e) := by
  rw [Daemon.mountComparison]
  cases hmaking : d.making name with
  | none => exact Or.inl rfl
  | some making =>
    dsimp only
    split
    · next num1 num2 hmounted hsnapshots =>
      cases hrun : (mountBoth env making.metaSnapper num1 num2).run d with
      | mk r d₁ =>
        have hsteps := mountBoth_through.steps_of_run trivial hrun
        refine Or.inr ⟨making, num1, num2, d₁, rfl, hmounted, hsnapshots, hsteps, ?_⟩
        -- whatever it comes to, mounting only counts
        cases r with
        | ok _ => exact Or.inl ⟨hrun, rfl⟩
        | error e => exact Or.inr ⟨e, hrun, rfl⟩
    · exact Or.inl rfl

/-- A comparison that was mounted is unmounted first. -/
theorem finishComparison_cases {files : List DBus.SentFile} :
    d.finishComparison name env files = d ∨
    ∃ making num1 num2 d₁, d.making name = some making ∧
      making.snapshots = some (num1, num2) ∧ ReflTransGen Recount d d₁ ∧
      (((if making.mounted then (umountBoth env making.metaSnapper num1 num2).run d = (.ok ⟨⟩, d₁)
            else d₁ = d) ∧
          d.finishComparison name env files =
            d₁.finished env name making ⟨making.snapper, num1, num2, files⟩) ∨
        ∃ e, making.mounted = true ∧
          (umountBoth env making.metaSnapper num1 num2).run d = (.error e, d₁) ∧
          d.finishComparison name env files = d₁.failed env name making e) := by
  rw [Daemon.finishComparison]
  cases hmaking : d.making name with
  | none => exact Or.inl rfl
  | some making =>
    dsimp only
    split
    · exact Or.inl rfl
    · next num1 num2 hsnapshots =>
      -- only what was mounted is unmounted
      cases hmounted : making.mounted with
      | true =>
        simp only [if_true]
        cases hrun : (umountBoth env making.metaSnapper num1 num2).run d with
        | mk r d₁ =>
          have hsteps := umountBoth_through.steps_of_run trivial hrun
          refine Or.inr ⟨making, num1, num2, d₁, rfl, hsnapshots, hsteps, ?_⟩
          cases r with
          | ok _ => exact Or.inl ⟨by simp [hmounted, hrun], rfl⟩
          | error e => exact Or.inr ⟨e, hmounted, hrun, rfl⟩
      | false =>
        simp only [Bool.false_eq_true, if_false]
        split
        · exact Or.inr ⟨making, num1, num2, d, rfl, hsnapshots, .refl,
            Or.inl ⟨by simp [hmounted], rfl⟩⟩
        · exact Or.inl rfl

/-- A comparison that fails is answered, unless its client has gone: then its worker just ends. -/
theorem failComparison_cases {failure : Failure} : d.failComparison name env failure = d ∨
    ∃ making, d.making name = some making ∧
      ((∃ e, d.failComparison name env failure = d.failed env name making e) ∨
        ((d.client name).any Client.zombie = true ∧
          d.failComparison name env failure =
            (d.setWorker name .ended).release env making.metaSnapper)) := by
  rw [Daemon.failComparison]
  cases hmaking : d.making name with
  | none => exact Or.inl rfl
  | some making =>
    dsimp only
    split
    · exact Or.inr ⟨making, rfl, Or.inl ⟨_, rfl⟩⟩
    · exact Or.inr ⟨making, rfl, Or.inl ⟨_, rfl⟩⟩
    · split
      · next hzombie => exact Or.inr ⟨making, rfl, Or.inr ⟨hzombie, rfl⟩⟩
      · exact Or.inl rfl
    · exact Or.inl rfl

/-- The state once the config of this address is loaded and used, if there is one. -/
def Daemon.openedAt (env : Env) (id : Nat) (d : Daemon) : Daemon :=
  match d.metaSnapper id with
  | none => d
  | some m => d.opened env m

/-- Loading a config leaves it loaded and used, or throws and leaves everything as it was. -/
theorem getSnapper_cases {id : Nat} : (getSnapper env id).run d = (.ok ⟨⟩, d.openedAt env id) ∨
    ∃ e, (getSnapper env id).run d = (.error e, d) := by
  rw [Daemon.openedAt]
  cases hm : d.metaSnapper id with
  | none => exact Or.inl (by simp [getSnapper, Act.run_bind, hm])
  | some m =>
    obtain rfl := id_of_metaSnapper hm
    by_cases hload : m.isLoaded = true ∨ env.fault (.loadSnapper m.configName) = none
    · exact Or.inl (getSnapper_run hm hload)
    · exact Or.inr (getSnapper_run_not hm hload)

/-- An exception in the background ends the daemon. -/
theorem startTask_cases : d.startTask env = d ∨ d.startTask env = d.terminate ∨
    ∃ task rest, d.background = .waiting ∧ d.tasks = task :: rest ∧
      d.startTask env = { d.openedAt env task.metaSnapper with
        background := .comparing ⟨task.metaSnapper,
          (d.openedAt env task.metaSnapper).snapperOf task.metaSnapper,
          some task.snapshot1, some task.snapshot2, false⟩ } := by
  rw [Daemon.startTask]
  split
  · next task rest hbackground htasks =>
    have hcases : (getSnapper env task.metaSnapper).run d = _ ∨ _ := getSnapper_cases
    rcases hcases with hrun | ⟨e, hrun⟩
    · rw [hrun]
      exact Or.inr (Or.inr ⟨task, rest, hbackground, htasks, rfl⟩)
    · rw [hrun]
      exact Or.inr (Or.inl rfl)
  · exact Or.inl rfl

/-- As for the comparison of a client, but without an answer: nothing catches an exception here.
-/
theorem mountTask_cases : d.mountTask env = d ∨
    (∃ d₁, ReflTransGen Recount d d₁ ∧ d.mountTask env = d₁.terminate) ∨
    ∃ making num1 num2 d₁, d.background = .comparing making ∧ making.mounted = false ∧
      making.snapshots = some (num1, num2) ∧ ReflTransGen Recount d d₁ ∧
      (mountBoth env making.metaSnapper num1 num2).run d = (.ok ⟨⟩, d₁) ∧
      d.mountTask env = { d₁ with background := .comparing { making with mounted := true } } := by
  rw [Daemon.mountTask]
  split
  · next making hbackground =>
    split
    -- the same two snapshots and the same calls
    · next num1 num2 hmounted hsnapshots =>
      cases hrun : (mountBoth env making.metaSnapper num1 num2).run d with
      | mk r d₁ =>
        have hsteps := mountBoth_through.steps_of_run trivial hrun
        cases r with
        | ok _ =>
          exact Or.inr (Or.inr ⟨making, num1, num2, d₁, hbackground, hmounted, hsnapshots, hsteps,
            hrun, rfl⟩)
        | error e => exact Or.inr (Or.inl ⟨d₁, hsteps, rfl⟩)
    · exact Or.inl rfl
  · exact Or.inl rfl

/-- A comparison of the background is over when its snapshots are unmounted; an exception ends the
daemon. -/
theorem finishTask_cases : d.finishTask env = d ∨
    (∃ d₁, ReflTransGen Recount d d₁ ∧ d.finishTask env = d₁.terminate) ∨
    ∃ making num1 num2 d₁, d.background = .comparing making ∧
      making.snapshots = some (num1, num2) ∧ ReflTransGen Recount d d₁ ∧
      (if making.mounted then (umountBoth env making.metaSnapper num1 num2).run d = (.ok ⟨⟩, d₁)
        else d₁ = d) ∧
      d.finishTask env = { d₁.release env making.metaSnapper with background := .counted } := by
  rw [Daemon.finishTask]
  split
  · next making hbackground =>
    split
    · next num1 num2 hmounted hsnapshots =>
      cases hrun : (umountBoth env making.metaSnapper num1 num2).run d with
      | mk r d₁ =>
        have hsteps := umountBoth_through.steps_of_run trivial hrun
        cases r with
        | ok _ =>
          exact Or.inr (Or.inr ⟨making, num1, num2, d₁, hbackground, hsnapshots, hsteps,
            by simp [hmounted, hrun], rfl⟩)
        | error e => exact Or.inr (Or.inl ⟨d₁, hsteps, rfl⟩)
    -- nothing was mounted, so nothing is unmounted
    · next snapshots hmounted hsnapshots =>
      exact Or.inr (Or.inr ⟨making, snapshots.1, snapshots.2, d, hbackground, hsnapshots, .refl,
        by simp [hmounted], rfl⟩)
    · exact Or.inr (Or.inl ⟨d, .refl, rfl⟩)
  · exact Or.inl rfl

/-- The task is taken from the queue when its config was counted down. -/
theorem popTask_cases : d.popTask = d ∨ (d.background = .counted ∧
    d.popTask = { d with tasks := d.tasks.tail, background := .waiting }) := by
  rw [Daemon.popTask]
  split
  · next hbackground => exact Or.inr ⟨hbackground, rfl⟩
  · exact Or.inl rfl

/-- A worker ends when it has nothing in progress and its client has gone. -/
theorem endWorker_cases : d.endWorker name = d ∨
    ∃ client, d.client name = some client ∧ client.worker = .waiting ∧ client.zombie = true ∧
      d.endWorker name = d.modClient name fun c => { c with worker := .ended } := by
  rw [Daemon.endWorker]
  cases hclient : d.client name with
  | none => exact Or.inl rfl
  | some client =>
    dsimp only
    split
    · next hworker _ hzombie => exact Or.inr ⟨client, rfl, hworker, hzombie, rfl⟩
    · exact Or.inl rfl

/-- The comparisons of a client are counted down. -/
def decAll (env : Env) (comparisons : List Comparison) (d : Daemon) : Daemon :=
  comparisons.foldl (fun d comparison => decUseCount env comparison.snapper d) d

/-- A client goes when its worker has ended.  Its comparisons are given back first, then its
mounts, and an exception of an unmount ends the daemon. -/
theorem reap_cases : d.reap name env = d ∨
    ∃ client d₁, d.client name = some client ∧ client.worker = .ended ∧ client.zombie = true ∧
      (((umountAll env client.mounts.entries).run (decAll env client.comparisons d) = (.ok ⟨⟩, d₁) ∧
          d.reap name env = { d₁ with clients := d₁.clients.filter (·.name ≠ name) }) ∨
        ∃ e, (umountAll env client.mounts.entries).run (decAll env client.comparisons d) =
            (.error e, d₁) ∧ d.reap name env = d₁.terminate) := by
  rw [Daemon.reap]
  cases hclient : d.client name with
  | none => exact Or.inl rfl
  | some client =>
    dsimp only
    split
    · next hworker hzombie =>
      -- the destructor begins with the comparisons, which cannot fail
      have hdestroy : (destroyClient env client).run d =
          (umountAll env client.mounts.entries).run (decAll env client.comparisons d) := rfl
      rw [hdestroy]
      cases hrun : (umountAll env client.mounts.entries).run (decAll env client.comparisons d) with
      | mk r d₁ =>
        cases r with
        | ok _ => exact Or.inr ⟨client, d₁, rfl, hworker, hzombie, Or.inl ⟨hrun, rfl⟩⟩
        | error e => exact Or.inr ⟨client, d₁, rfl, hworker, hzombie, Or.inr ⟨e, hrun, rfl⟩⟩
    · exact Or.inl rfl

/-- What the destructor of a `Snapper` has written when it ends, or when an exception ends it:
some of the modified snapshots, each of them not the current one. -/
theorem destroySnapper_written (env : Env) (snapshots : List Snapshot) :
    ∃ written : List Snapshot,
      (∀ s ∈ written, s ∈ snapshots ∧ s.infoModified = true ∧ s.isCurrent = false) ∧
      ∀ disk, (destroySnapper env snapshots disk).1 =
        written.foldl (fun disk s => disk.write s) disk := by
  induction snapshots with
  | nil => exact ⟨[], by simp, fun _ => rfl⟩
  | cons s snapshots ih =>
    obtain ⟨written, hwritten, hrest⟩ := ih
    have htail : ∀ s' ∈ written, s' ∈ s :: snapshots ∧ s'.infoModified = true ∧
        s'.isCurrent = false := fun s' hs' =>
      ⟨List.mem_cons_of_mem s (hwritten s' hs').1, (hwritten s' hs').2⟩
    -- where writing the first one fails nothing is written
    by_cases hflush : flushFails env s = true
    · exact ⟨[], by simp, fun disk => by simp [destroySnapper, hflush]⟩
    -- what is pending for the first snapshot is written before it is unmounted
    cases hmodified : s.infoModified with
    | false =>
      by_cases humount : umountFails env s = true
      · exact ⟨[], by simp, fun disk => by simp [destroySnapper, hflush, humount, hmodified]⟩
      · exact ⟨written, htail, fun disk => by
          simp [destroySnapper, hflush, humount, hmodified, hrest]⟩
    | true =>
      have hhead : s ∈ s :: snapshots ∧ s.infoModified = true ∧ s.isCurrent = false := by
        refine ⟨List.mem_cons_self, hmodified, Bool.eq_false_iff.mpr fun hcurrent => hflush ?_⟩
        simp [flushFails, hmodified, hcurrent]
      by_cases humount : umountFails env s = true
      · refine ⟨[s], by simpa using hhead, fun disk => ?_⟩
        simp [destroySnapper, hflush, humount, hmodified]
      · refine ⟨s :: written, fun s' hs' => ?_, fun disk => ?_⟩
        · rcases List.mem_cons.mp hs' with rfl | hs'
          · exact hhead
          · exact htail s' hs'
        · simp [destroySnapper, hflush, humount, hmodified, hrest]

/-- An exception leaves the destructor where one snapshot makes it fail. -/
theorem destroySnapper_thrown {snapshots : List Snapshot} {disk : Disk} :
    (destroySnapper env snapshots disk).2 =
      snapshots.any fun s => flushFails env s || umountFails env s := by
  induction snapshots generalizing disk with
  | nil => rfl
  | cons s snapshots ih =>
    rw [destroySnapper, List.any_cons]
    cases hflush : flushFails env s with
    | true => simp
    | false =>
      cases humount : umountFails env s with
      | true => simp
      | false => simp [ih]

/-- Without an exception everything that is pending is written, in the order of the list. -/
theorem destroySnapper_done {snapshots : List Snapshot}
    (h : (snapshots.any fun s => flushFails env s || umountFails env s) = false) (disk : Disk) :
    (destroySnapper env snapshots disk).1 =
      (snapshots.filter Snapshot.infoModified).foldl (fun disk s => disk.write s) disk := by
  induction snapshots generalizing disk with
  | nil => rfl
  | cons s snapshots ih =>
    simp only [List.any_cons, Bool.or_eq_false_iff] at h
    obtain ⟨⟨hflush, humount⟩, hrest⟩ := h
    rw [destroySnapper, if_neg (by simp [hflush]), if_neg (by simp [humount]), ih hrest]
    cases hmodified : s.infoModified with
    | true => simp [hmodified]
    | false => simp [hmodified]

/-- The infos of some snapshots are written. -/
def Daemon.writeInfos (id : Nat) (written : List Snapshot) : Daemon → Daemon :=
  Daemon.modDisk id fun disk => written.foldl (fun disk s => disk.write s) disk

/-- An unload does nothing, or it has written everything that was pending, or it has written a
part of that and ends the daemon.  In any case the config was not in use. -/
theorem unload_cases {id : Nat} : d.unload id env = d ∨
    (∃ (m : MetaSnapper) (written : List Snapshot), d.metaSnapper id = some m ∧ m.counter = 0 ∧
      (∀ s ∈ written, s ∈ m.snapshots ∧ s.infoModified = true ∧ s.isCurrent = false) ∧
      d.unload id env = (d.writeInfos id written).terminate) ∨
    ∃ m, d.metaSnapper id = some m ∧ m.isLoaded = true ∧ m.counter = 0 ∧
      (∀ s ∈ m.snapshots, s.infoModified = true → s.isCurrent = false) ∧
      d.unload id env = d.modMeta id fun m' => { m' with
        snapper := none
        disk := (m.snapshots.filter Snapshot.infoModified).foldl (fun disk s => disk.write s)
          m'.disk } := by
  rw [Daemon.unload]
  cases hm : d.metaSnapper id with
  | none => exact Or.inl rfl
  | some m =>
    dsimp only
    split
    · next hidle =>
      -- a config with uses has been unused for no time
      have hcounter : m.counter = 0 := by
        by_contra hne
        have hunused : m.unusedFor env.now = 0 := by simp [MetaSnapper.unusedFor, hne]
        have hlt := hidle.2
        rw [hunused] at hlt
        exact absurd hlt (by decide)
      -- the destructor throws or not
      split
      · obtain ⟨written, hwritten, hdisk⟩ := destroySnapper_written env m.snapshots
        refine Or.inr (Or.inl ⟨m, written, rfl, hcounter, hwritten, ?_⟩)
        rw [Daemon.writeInfos, funext hdisk]
      · next hdone =>
        rw [destroySnapper_thrown, Bool.not_eq_true] at hdone
        refine Or.inr (Or.inr ⟨m, rfl, hidle.1, hcounter, ?_, ?_⟩)
        · intro s hs hmodified
          -- the current snapshot would have ended the daemon
          have hfine := List.any_eq_false.mp hdone s hs
          by_contra hcurrent
          apply hfine
          simp [flushFails, hmodified, Bool.eq_true_of_not_eq_false hcurrent]
        · rw [funext (destroySnapper_done hdone), Daemon.modDisk, modMeta_modMeta (by intro; rfl)]
    · exact Or.inl rfl

end Cases

/-! ## Addresses and numbers -/

section Base

variable {env : Env} {name : Str} {d d' : Daemon} {id : Nat}

/-- A kind of change that keeps the base keeps it along a sequence. -/
theorem Recount.steps_base (h : Relation.ReflTransGen Recount d d') (hd : d.Base) : d'.Base :=
  keeps_of_steps (fun _ _ h hd => h.base hd) h hd

/-- Counts and times are no matter of addresses and numbers. -/
theorem Daemon.Base.release (h : d.Base) : (d.release env id).Base := by
  have hdec : (d.modMeta id (MetaSnapper.dec env)).Base := by
    apply h.modMeta (by intro; rfl)
    · intro m
      exact Or.inl rfl
    · intro m _ hm
      exact numbered_of_nums hm rfl rfl
  exact hdec.of_same rfl le_rfl hdec.addresses.names

theorem Daemon.Base.setWorker {worker : Worker} (h : d.Base) : (d.setWorker name worker).Base :=
  h.modClient (by intro; rfl)

theorem Daemon.Base.send {msg : Sent} (h : d.Base) : (d.send msg).Base :=
  h.of_same rfl le_rfl h.addresses.names

/-- A comparison that fails changes a worker, a count and the messages. -/
theorem Daemon.Base.failed {making : Making} {e : Exception} (h : d.Base) :
    (d.failed env name making e).Base := h.setWorker.release.send

theorem Daemon.Base.finished {making : Making} {comparison : Comparison} (h : d.Base) :
    (d.finished env name making comparison).Base := by
  have hclient : (d.modClient name fun c =>
      { c with comparisons := c.comparisons ++ [comparison], worker := .waiting }).Base :=
    h.modClient (by intro; rfl)
  exact hclient.incUseCount.send.release

theorem Daemon.Base.terminate (h : d.Base) : d.terminate.Base :=
  h.of_same rfl le_rfl h.addresses.names

/-- Giving back comparisons changes counts only. -/
theorem Daemon.Base.decAll {comparisons : List Comparison} (h : d.Base) :
    (decAll env comparisons d).Base := by
  induction comparisons generalizing d with
  | nil => exact h
  | cons comparison comparisons ih => exact ih h.decUseCount

/-- A client has the name of its connection, and there is none of this name yet. -/
theorem Daemon.Base.newClient (h : d.Base) (hnone : (d.client name).isNone = true) :
    Daemon.Base { d with clients := d.clients ++ [Client.new name] } := by
  apply h.of_same
  · rfl
  · rfl
  · show ((d.clients ++ [Client.new name]).map Client.name).Nodup
    rw [List.map_append, List.nodup_append]
    refine ⟨h.addresses.names, by simp, ?_⟩
    rintro name' hold _ hnew rfl
    obtain ⟨c, hc, rfl⟩ := List.mem_map.mp hold
    have hname : c.name = name := by simpa [Client.new] using hnew
    exact lookup_eq_none_iff.mp (Option.isNone_iff_eq_none.mp hnone) c hc hname

theorem Daemon.Base.receive {request : Request} (h : d.Base) : (d.receive name request).Base := by
  have hknown : (if (d.client name).isNone then { d with clients := d.clients ++ [Client.new name] }
      else d).Base := by
    split
    · next hnone => exact h.newClient hnone
    · exact h
  exact hknown.modClient (by intro; rfl)

/-- Writing what is pending. -/
theorem wf_writes {snapshots : List Snapshot} {disk : Disk} (h : disk.WF)
    (hs : ∀ s ∈ snapshots, s.num ≠ 0 ∧ s.num ∈ disk.dirs) :
    (snapshots.foldl (fun disk s => disk.write s) disk).WF := by
  induction snapshots generalizing disk with
  | nil => exact h
  | cons s snapshots ih =>
    obtain ⟨hnum, hdir⟩ := hs s List.mem_cons_self
    apply ih (h.write hnum hdir)
    intro s' hs'
    exact hs s' (List.mem_cons_of_mem s hs')

/-- Writing makes no directories. -/
theorem dirs_writes {snapshots : List Snapshot} {disk : Disk} :
    (snapshots.foldl (fun disk s => disk.write s) disk).dirs = disk.dirs := by
  induction snapshots generalizing disk with
  | nil => rfl
  | cons s snapshots ih =>
    rw [List.foldl_cons, ih]
    rfl

/-- Nor does it change what can be read. -/
theorem unreadable_writes {snapshots : List Snapshot} {disk : Disk} :
    (snapshots.foldl (fun disk s => disk.write s) disk).unreadable = disk.unreadable := by
  induction snapshots generalizing disk with
  | nil => rfl
  | cons s snapshots ih =>
    rw [List.foldl_cons, ih]
    rfl

/-- What a failed unload has written are snapshots of the list. -/
theorem Daemon.Base.writeInfos {m : MetaSnapper} {written : List Snapshot} (h : d.Base)
    (hm : d.metaSnapper id = some m)
    (hwritten : ∀ s ∈ written, s ∈ m.snapshots ∧ s.infoModified = true ∧ s.isCurrent = false) :
    (d.writeInfos id written).Base := by
  refine h.modMeta (by intro; rfl) (by intro _; exact Or.inl rfl) ?_
  intro m' hm' hnumbered
  obtain rfl := Option.some.inj (hm.symm.trans hm')
  have hnums : ∀ s ∈ written, s.num ≠ 0 ∧ s.num ∈ m.disk.dirs := by
    intro s hs
    obtain ⟨hs, -, hcurrent⟩ := hwritten s hs
    have hnum : s.num ≠ 0 := by simpa [Snapshot.isCurrent] using hcurrent
    exact ⟨hnum, (hnumbered.dirs s hs).resolve_left hnum⟩
  refine ⟨wf_writes hnumbered.disk hnums, hnumbered.nodup, fun s hs => ?_⟩
  rw [dirs_writes]
  exact hnumbered.dirs s hs

/-- The infos that an unload writes are of snapshots of the list, which have directories. -/
theorem Daemon.Base.unload (h : d.Base) : (d.unload id env).Base := by
  have hcases : d.unload id env = d ∨ _ := unload_cases
  rcases hcases with hsame | hend | hmore
  · rw [hsame]
    exact h
  · obtain ⟨m, written, hm, -, hwritten, hend⟩ := hend
    rw [hend]
    exact (h.writeInfos hm hwritten).terminate
  · obtain ⟨m, hm, -, -, hcurrent, hunload⟩ := hmore
    rw [hunload]
    apply h.modMeta (by intro; rfl)
    · intro m'
      exact Or.inr rfl
    · intro m' hm' hnumbered
      obtain rfl := Option.some.inj (hm.symm.trans hm')
      refine ⟨wf_writes hnumbered.disk ?_, List.nodup_nil, by intro s hs; cases hs⟩
      intro s hs
      obtain ⟨hs, hmodified⟩ := List.mem_filter.mp hs
      -- the current snapshot would have stopped the destructor
      have hnum : s.num ≠ 0 := by simpa [Snapshot.isCurrent] using hcurrent s hs hmodified
      exact ⟨hnum, (hnumbered.dirs s hs).resolve_left hnum⟩

/-- A request keeps addresses and numbers, by what `handle_through` says of all handlers. -/
theorem Daemon.Base.work (h : d.Base) : (d.work name env).Base := by
  have hcases : d.work name env = d ∨ _ := work_cases
  rcases hcases with hsame | ⟨client, request, rest, hclient, hworker, -, hwork⟩
  · rw [hsame]
    exact h
  · rw [hwork]
    have htaken : (d.modClient name fun c => { c with tasks := c.tasks.tail }).Base :=
      h.modClient (by intro; rfl)
    exact keeps_of_steps (fun _ _ hchange hd => hchange.base hd)
      (dispatch_changes htaken (idle_of_taken hclient hworker)) htaken

theorem Daemon.Base.endWorker (h : d.Base) : (d.endWorker name).Base := by
  have hcases : d.endWorker name = d ∨ _ := endWorker_cases
  rcases hcases with hsame | ⟨-, -, -, -, hend⟩
  · rw [hsame]
    exact h
  · rw [hend]
    exact h.modClient (by intro; rfl)

theorem Daemon.Base.mountComparison (h : d.Base) : (d.mountComparison name env).Base := by
  have hcases : d.mountComparison name env = d ∨ _ := mountComparison_cases
  rcases hcases with hsame | ⟨making, num1, num2, d₁, -, -, -, hsteps, hrest⟩
  · rw [hsame]
    exact h
  · have hbase := Recount.steps_base hsteps h
    rcases hrest with ⟨-, hmounted⟩ | ⟨e, -, hfailed⟩
    · rw [hmounted]
      exact hbase.setWorker
    · rw [hfailed]
      exact hbase.failed

theorem Daemon.Base.finishComparison {files : List DBus.SentFile} (h : d.Base) :
    (d.finishComparison name env files).Base := by
  have hcases : d.finishComparison name env files = d ∨ _ := finishComparison_cases
  rcases hcases with hsame | ⟨making, num1, num2, d₁, -, -, hsteps, hrest⟩
  · rw [hsame]
    exact h
  · have hbase := Recount.steps_base hsteps h
    rcases hrest with ⟨-, hfinished⟩ | ⟨e, -, -, hfailed⟩
    · rw [hfinished]
      exact hbase.finished
    · rw [hfailed]
      exact hbase.failed

theorem Daemon.Base.failComparison {failure : Failure} (h : d.Base) :
    (d.failComparison name env failure).Base := by
  have hcases : d.failComparison name env failure = d ∨ _ := failComparison_cases
  rcases hcases with hsame | ⟨making, -, ⟨e, hfailed⟩ | ⟨-, hreleased⟩⟩
  · rw [hsame]
    exact h
  · rw [hfailed]
    exact h.failed
  · rw [hreleased]
    exact h.setWorker.release

theorem Daemon.Base.openedAt (h : d.Base) : (d.openedAt env id).Base := by
  rw [Daemon.openedAt]
  split
  · exact h
  · next m hm =>
    have hload : (if m.isLoaded = true then d else d.load m.id).Base := by
      split
      · exact h
      · exact h.load
    apply hload.modMeta (by intro; rfl)
    · intro m
      exact Or.inl rfl
    · intro m _ hm
      exact numbered_of_nums hm rfl rfl

theorem Daemon.Base.startTask (h : d.Base) : (d.startTask env).Base := by
  have hcases : d.startTask env = d ∨ d.startTask env = d.terminate ∨ _ := startTask_cases
  rcases hcases with hsame | hend | ⟨task, rest, -, -, hstart⟩
  · rw [hsame]
    exact h
  · rw [hend]
    exact h.terminate
  · rw [hstart]
    have hopened : (d.openedAt env task.metaSnapper).Base := h.openedAt
    exact hopened.of_same rfl le_rfl hopened.addresses.names

theorem Daemon.Base.mountTask (h : d.Base) : (d.mountTask env).Base := by
  have hcases : d.mountTask env = d ∨ _ := mountTask_cases
  rcases hcases with hsame | ⟨d₁, hsteps, hend⟩ |
    ⟨making, num1, num2, d₁, -, -, -, hsteps, -, hmount⟩
  · rw [hsame]
    exact h
  · rw [hend]
    exact (Recount.steps_base hsteps h).terminate
  · have hbase := Recount.steps_base hsteps h
    rw [hmount]
    exact hbase.of_same rfl le_rfl hbase.addresses.names

theorem Daemon.Base.finishTask (h : d.Base) : (d.finishTask env).Base := by
  have hcases : d.finishTask env = d ∨ _ := finishTask_cases
  rcases hcases with hsame | ⟨d₁, hsteps, hend⟩ |
    ⟨making, num1, num2, d₁, -, -, hsteps, -, hfinish⟩
  · rw [hsame]
    exact h
  · rw [hend]
    exact (Recount.steps_base hsteps h).terminate
  · have hbase : (d₁.release env making.metaSnapper).Base :=
      (Recount.steps_base hsteps h).release
    rw [hfinish]
    exact hbase.of_same rfl le_rfl hbase.addresses.names

theorem Daemon.Base.popTask (h : d.Base) : d.popTask.Base := by
  rcases popTask_cases with hsame | ⟨-, hpop⟩
  · rw [hsame]
    exact h
  · rw [hpop]
    exact h.of_same rfl le_rfl h.addresses.names

/-- A client that goes leaves the others with their names. -/
theorem Daemon.Base.reap (h : d.Base) : (d.reap name env).Base := by
  have hcases : d.reap name env = d ∨ _ := reap_cases
  rcases hcases with hsame | ⟨client, d₁, -, -, -, hrest⟩
  · rw [hsame]
    exact h
  · -- the comparisons are counted down, then the mounts go
    have hdec : (Server.decAll env client.comparisons d).Base := h.decAll
    rcases hrest with ⟨hrun, hreap⟩ | ⟨e, hrun, hend⟩
    · have hbase := Recount.steps_base (umountAll_through.steps_of_run hdec hrun) hdec
      rw [hreap]
      exact hbase.of_same rfl le_rfl
        ((List.filter_sublist.map _).nodup hbase.addresses.names)
    · have hbase := Recount.steps_base (umountAll_through.steps_of_run hdec hrun) hdec
      rw [hend]
      exact hbase.terminate

theorem raced_num {userRequest : Bool} {useCount : UInt32} (s : Snapshot) :
    (s.raced userRequest useCount).num = s.num := by
  rw [Snapshot.raced]
  split <;> rfl

/-- A race changes what mounting and unmounting changes. -/
theorem race_recount {num : UInt32} {userRequest : Bool} {useCount : UInt32} :
    Recount d (d.race id num userRequest useCount) := Recount.recount id num raced_num

theorem Daemon.Base.race {num : UInt32} {userRequest : Bool} {useCount : UInt32} (h : d.Base) :
    (d.race id num userRequest useCount).Base := race_recount.base h

/-- What can be read has nothing to do with addresses and numbers. -/
theorem Daemon.Base.spoil {nums : List UInt32} (h : d.Base) : (d.spoil id nums).Base := by
  refine h.modMeta (by intro; rfl) (by intro _; exact Or.inl rfl) ?_
  intro m _ hm
  exact ⟨⟨hm.disk.nodup, hm.disk.nonzero, hm.disk.dirs, hm.disk.stored⟩, hm.nodup, hm.dirs⟩

/-- Every step keeps addresses unique and numbers well-formed. -/
theorem step_base (h : d.Base) (a : Action) : (d.step a).Base := by
  rw [Daemon.step.eq_def]
  split
  · exact h
  -- a lemma for each part of a thread
  · cases a with
    | receive name request => exact h.receive
    | disconnect name => exact h.modClient (by intro; rfl)
    | work name env => exact h.work
    | endWorker name => exact h.endWorker
    | mountComparison name env => exact h.mountComparison
    | finishComparison name env files => exact h.finishComparison
    | failComparison name env failure => exact h.failComparison
    | startTask env => exact h.startTask
    | mountTask env => exact h.mountTask
    | finishTask env => exact h.finishTask
    | popTask => exact h.popTask
    | reap name env => exact h.reap
    | unload id env => exact h.unload
    | race id num userRequest useCount => exact h.race
    | spoil id nums => exact h.spoil

/-- The daemon starts with nothing loaded. -/
theorem Daemon.Initial.base (h : d.Initial) : d.Base := by
  -- no list is there yet
  have hnone : ∀ m ∈ d.metaSnappers, m.snapshots = [] := by
    intro m hm
    simp [MetaSnapper.snapshots, h.unloaded m hm]
  constructor
  · refine ⟨h.ids, h.nextId, ?_, ?_, ?_⟩
    · intro m hm loaded hsome
      rw [h.unloaded m hm] at hsome
      cases hsome
    · intro m hm _ _ loaded _ hsome
      rw [h.unloaded m hm] at hsome
      cases hsome
    · rw [h.clients]
      exact List.nodup_nil
  · intro m hm
    refine ⟨h.disk m hm, ?_, ?_⟩
    · rw [hnone m hm]
      exact List.nodup_nil
    · intro s hs
      rw [hnone m hm] at hs
      cases hs

/-- What the start establishes and each step keeps holds in every reachable state.  A step may
assume that addresses and numbers are well-formed. -/
theorem Daemon.Reachable.invariant {I : Daemon → Prop} (h : d.Reachable)
    (hinit : ∀ d, d.Initial → I d) (hstep : ∀ d a, d.Base → I d → I (d.step a)) : I d := by
  obtain ⟨start, actions, hstart, rfl⟩ := h
  have hrun : ∀ (actions : List Action) (d : Daemon), d.Base → I d →
      I (actions.foldl Daemon.step d) := by
    intro actions
    induction actions with
    | nil => exact fun d _ hd => hd
    | cons a actions ih => exact fun d hbase hd => ih _ (step_base hbase a) (hstep d a hbase hd)
  exact hrun actions start hstart.base (hinit start hstart)

/-- The daemon of the examples is one that has just started. -/
theorem rootOnly_initial : Daemon.rootOnly.Initial where
  ids := by simp [Daemon.rootOnly]
  nextId := by simp [Daemon.rootOnly]
  counter := by simp [Daemon.rootOnly]
  unloaded := by simp [Daemon.rootOnly]
  disk := by
    intro m hm
    obtain rfl := List.mem_singleton.mp hm
    exact ⟨by decide, by decide, by decide, by decide⟩
  clients := rfl
  tasks := rfl
  background := rfl
  sent := rfl
  running := ⟨rfl, rfl⟩

theorem rootOnly_reachable (actions : List Action) :
    (actions.foldl Daemon.step Daemon.rootOnly).Reachable :=
  ⟨Daemon.rootOnly, actions, rootOnly_initial, rfl⟩

theorem Daemon.Reachable.base (h : d.Reachable) : d.Base := by
  have htrivial : ∀ d a, Daemon.Base d → d.Base → (d.step a).Base := fun _ a _ hd => step_base hd a
  exact h.invariant (fun _ hstart => hstart.base) htrivial

end Base

/-! ## What clients hold -/

/-- The locks and mounts of a client, and whether it is still there. -/
structure Holding where
  name : Str
  locks : Finset Str
  mounts : SortedMap MountKey UInt32
  zombie : Bool

/-- What a client has locked and mounted. -/
def Client.holding (c : Client) : Holding := ⟨c.name, c.locks, c.mounts, c.zombie⟩

/-- What each client has locked and mounted. -/
def Daemon.holdings (d : Daemon) : List Holding := d.clients.map Client.holding

/-- A step of a comparison, of the background or of an idle worker, an unload, or one that no thread
makes. -/
def Action.internal : Action → Bool
  | .receive .. => false
  | .disconnect .. => false
  | .work .. => false
  | .reap .. => false
  | _ => true

section Holdings

variable {env : Env} {name : Str} {d d' : Daemon} {id : Nat} {g : Client → Client}

/-- A change of a client that is not about its locks, its mounts and its end. -/
theorem modClient_holdings (hg : ∀ c, (g c).holding = c.holding) :
    (d.modClient name g).holdings = d.holdings := map_update hg

theorem setWorker_holdings {worker : Worker} : (d.setWorker name worker).holdings = d.holdings :=
  modClient_holdings (by intro; rfl)

theorem Edit.clients (h : Edit d d') : d'.clients = d.clients := by
  cases h <;> rfl

/-- Counting is done to snapshots, not to clients. -/
theorem Recount.clients (h : Recount d d') : d'.clients = d.clients := by
  cases h with
  | edit h => exact h.clients
  | recount id num hnum => rfl

/-- Mounting and unmounting is not done to clients. -/
theorem Recount.steps_clients (h : Relation.ReflTransGen Recount d d') :
    d'.clients = d.clients := by
  induction h with
  | refl => rfl
  | tail _ hstep ih => exact hstep.clients.trans ih

theorem Recount.steps_holdings (h : Relation.ReflTransGen Recount d d') :
    d'.holdings = d.holdings := by
  rw [Daemon.holdings, Recount.steps_clients h]
  rfl

theorem failed_holdings {making : Making} {e : Exception} :
    (d.failed env name making e).holdings = d.holdings := setWorker_holdings

theorem finished_holdings {making : Making} {comparison : Comparison} :
    (d.finished env name making comparison).holdings = d.holdings :=
  modClient_holdings (by intro; rfl)

theorem endWorker_holdings : (d.endWorker name).holdings = d.holdings := by
  have hcases : d.endWorker name = d ∨ _ := endWorker_cases
  rcases hcases with hsame | ⟨client, -, -, -, hend⟩
  · rw [hsame]
  · rw [hend]
    exact modClient_holdings (by intro; rfl)

theorem mountComparison_holdings : (d.mountComparison name env).holdings = d.holdings := by
  have hcases : d.mountComparison name env = d ∨ _ := mountComparison_cases
  rcases hcases with hsame | ⟨making, num1, num2, d₁, -, -, -, hsteps, hrest⟩
  · rw [hsame]
  · have hsame := Recount.steps_holdings hsteps
    rcases hrest with ⟨-, hmounted⟩ | ⟨e, -, hfailed⟩
    · rw [hmounted, setWorker_holdings, hsame]
    · rw [hfailed, failed_holdings, hsame]

theorem finishComparison_holdings {files : List DBus.SentFile} :
    (d.finishComparison name env files).holdings = d.holdings := by
  have hcases : d.finishComparison name env files = d ∨ _ := finishComparison_cases
  rcases hcases with hsame | ⟨making, num1, num2, d₁, -, -, hsteps, hrest⟩
  · rw [hsame]
  · have hsame := Recount.steps_holdings hsteps
    rcases hrest with ⟨-, hfinished⟩ | ⟨e, -, -, hfailed⟩
    · rw [hfinished, finished_holdings, hsame]
    · rw [hfailed, failed_holdings, hsame]

theorem failComparison_holdings {failure : Failure} :
    (d.failComparison name env failure).holdings = d.holdings := by
  have hcases : d.failComparison name env failure = d ∨ _ := failComparison_cases
  rcases hcases with hsame | ⟨making, -, ⟨e, hfailed⟩ | ⟨-, hreleased⟩⟩
  · rw [hsame]
  · rw [hfailed, failed_holdings]
  · rw [hreleased]
    exact setWorker_holdings

theorem openedAt_clients : (d.openedAt env id).clients = d.clients := by
  rw [Daemon.openedAt]
  split
  · rfl
  · show (if _ then d else _).clients = d.clients
    split
    · rfl
    · rfl

theorem startTask_holdings : (d.startTask env).holdings = d.holdings := by
  have hcases : d.startTask env = d ∨ d.startTask env = d.terminate ∨ _ := startTask_cases
  rcases hcases with hsame | hend | ⟨task, rest, -, -, hstart⟩
  · rw [hsame]
  · rw [hend]
    rfl
  · rw [hstart]
    show (d.openedAt env task.metaSnapper).clients.map Client.holding = d.holdings
    rw [openedAt_clients]
    rfl

theorem mountTask_holdings : (d.mountTask env).holdings = d.holdings := by
  have hcases : d.mountTask env = d ∨ _ := mountTask_cases
  rcases hcases with hsame | ⟨d₁, hsteps, hend⟩ |
    ⟨making, num1, num2, d₁, -, -, -, hsteps, -, hmount⟩
  · rw [hsame]
  · rw [hend]
    have hsame := Recount.steps_holdings hsteps
    exact hsame
  · rw [hmount]
    have hsame := Recount.steps_holdings hsteps
    exact hsame

theorem finishTask_holdings : (d.finishTask env).holdings = d.holdings := by
  have hcases : d.finishTask env = d ∨ _ := finishTask_cases
  rcases hcases with hsame | ⟨d₁, hsteps, hend⟩ |
    ⟨making, num1, num2, d₁, -, -, hsteps, -, hfinish⟩
  · rw [hsame]
  · rw [hend]
    have hsame := Recount.steps_holdings hsteps
    exact hsame
  · rw [hfinish]
    have hsame := Recount.steps_holdings hsteps
    exact hsame

theorem popTask_holdings : d.popTask.holdings = d.holdings := by
  rcases popTask_cases with hsame | ⟨-, hpop⟩
  · rw [hsame]
  · rw [hpop]
    rfl

theorem unload_holdings : (d.unload id env).holdings = d.holdings := by
  have hcases : d.unload id env = d ∨ _ := unload_cases
  rcases hcases with hsame | ⟨-, written, -, -, -, hend⟩ | ⟨m, -, -, -, -, hunload⟩
  · rw [hsame]
  · rw [hend]
    rfl
  · rw [hunload]
    rfl

/-- What clients hold changes with their requests and with themselves only: no comparison, no task
of the background and no unload takes a lock or a mount from anybody. -/
theorem step_holdings {a : Action} (ha : a.internal = true) :
    (d.step a).holdings = d.holdings := by
  rw [Daemon.step.eq_def]
  split
  · rfl
  -- the steps that are left count uses, load or unload
  · cases a with
    | receive name request => cases ha
    | disconnect name => cases ha
    | work name env => cases ha
    | endWorker name => exact endWorker_holdings
    | mountComparison name env => exact mountComparison_holdings
    | finishComparison name env files => exact finishComparison_holdings
    | failComparison name env failure => exact failComparison_holdings
    | startTask env => exact startTask_holdings
    | mountTask env => exact mountTask_holdings
    | finishTask env => exact finishTask_holdings
    | popTask => exact popTask_holdings
    | reap name env => cases ha
    | unload id env => exact unload_holdings
    | race id num userRequest useCount => rfl
    | spoil id nums => rfl

/-- Giving back comparisons is done to configs. -/
theorem decAll_clients {comparisons : List Comparison} :
    (decAll env comparisons d).clients = d.clients := by
  induction comparisons generalizing d with
  | nil => rfl
  | cons comparison comparisons ih =>
    show (decAll env comparisons (decUseCount env comparison.snapper d)).clients = d.clients
    rw [ih]
    rfl

/-- A reaped client was a zombie, and only it goes. -/
theorem reap_clients (hd : d.Base) : (d.reap name env).clients = d.clients ∨
    (∃ client, d.client name = some client ∧ client.zombie = true) ∧
      (d.reap name env).clients = d.clients.filter (·.name ≠ name) := by
  have hcases : d.reap name env = d ∨ _ := reap_cases
  rcases hcases with hsame | ⟨client, d₁, hclient, -, hzombie, hrest⟩
  · rw [hsame]
    exact Or.inl rfl
  · have hdec : (decAll env client.comparisons d).Base := hd.decAll
    have hsteps : ∀ {r},
        (umountAll env client.mounts.entries).run (decAll env client.comparisons d) =
        (r, d₁) → d₁.clients = d.clients := by
      intro r hrun
      rw [Recount.steps_clients (umountAll_through.steps_of_run hdec hrun), decAll_clients]
    rcases hrest with ⟨hrun, hreap⟩ | ⟨e, hrun, hend⟩
    · refine Or.inr ⟨⟨client, hclient, hzombie⟩, ?_⟩
      rw [hreap, ← hsteps hrun]
    · rw [hend]
      exact Or.inl (hsteps hrun)

end Holdings

end Snapper.Server
