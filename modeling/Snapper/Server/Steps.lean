import Snapper.General.Run
import Snapper.Server.Handlers

/-!
# The steps of `snapperd`

The main loop receives requests, sees clients go and does its periodic work; the worker of
each client takes one request after the other; the background thread makes the comparisons
of new post snapshots.  A step is what a thread does while it holds `big_mutex`, or a part
of the constructor of `Comparison`, which runs without it.

Two kinds of steps are no thread's.  As the constructor runs without the mutex, its changes of the
plain fields `mount_user_request` and `mount_use_count` are in a race with those of the other
threads: `race` says what the fields have become.  And what can be read of a disk changes at any
time: `spoil` says what `Snapshots::read` passes over from now on.
-/

namespace Snapper.Server

open General

/-- How the constructor of a comparison can fail. -/
inductive Failure where
  /-- a snapshot does not exist, or both are the same -/
  | illegal
  | fault (fault : Fault)
  /-- the client has gone and the thread is interrupted -/
  | interrupted

/-- What may happen next: the parts of the threads, each with the answers it gets from outside. -/
inductive Action where
  | receive (name : Str) (request : Request)
  | disconnect (name : Str)
  | work (name : Str) (env : Env)
  | endWorker (name : Str)
  | mountComparison (name : Str) (env : Env)
  | finishComparison (name : Str) (env : Env) (files : List DBus.SentFile)
  | failComparison (name : Str) (env : Env) (failure : Failure)
  | startTask (env : Env)
  | mountTask (env : Env)
  | finishTask (env : Env)
  | popTask
  | reap (name : Str) (env : Env)
  | unload (id : Nat) (env : Env)
  /-- an update of another thread is lost -/
  | race (id : Nat) (num : UInt32) (userRequest : Bool) (useCount : UInt32)
  /-- other files of a config cannot be read -/
  | spoil (id : Nat) (nums : List UInt32)

namespace Daemon

/-! ## The main loop -/

/-- `method_call` -/
def receive (name : Str) (request : Request) (d : Daemon) : Daemon :=
  let d :=
    if (d.client name).isNone then { d with clients := d.clients ++ [Client.new name] } else d
  d.modClient name fun c => { c with tasks := c.tasks ++ [request] }

/-- `client_disconnected` -/
def disconnect (name : Str) : Daemon → Daemon :=
  Daemon.modClient name fun c => { c with zombie := true }

/-! ## Workers -/

/-- The worker takes its next task. -/
def work (name : Str) (env : Env) (d : Daemon) : Daemon :=
  match d.client name with
  | none => d
  | some client =>
    match client.worker, client.tasks with
    -- the task is taken from the queue before it is served
    | .waiting, request :: _ =>
      dispatch env name request (d.modClient name fun c => { c with tasks := c.tasks.tail })
    | _, _ => d

/-- The interruption reaches a worker that waits for a task. -/
def endWorker (name : Str) (d : Daemon) : Daemon :=
  match d.client name with
  | none => d
  | some client =>
    match client.worker, client.tasks, client.zombie with
    -- tasks that are left are served first
    | .waiting, [], true => d.modClient name fun c => { c with worker := .ended }
    | _, _, _ => d

/-- The comparison that the worker of a client makes. -/
def making (name : Str) (d : Daemon) : Option Making :=
  match d.client name with
  | none => none
  | some client =>
    match client.worker with
    | .comparing making => some making
    | _ => none

/-- The worker of a client goes on with something else. -/
def setWorker (name : Str) (worker : Worker) : Daemon → Daemon :=
  Daemon.modClient name fun c => { c with worker := worker }

/-- `RefHolder::~RefHolder` and the background's `dec_use_count` -/
def release (env : Env) (id : Nat) (d : Daemon) : Daemon :=
  { d.modMeta id (MetaSnapper.dec env) with
    aborted := d.aborted || d.metaSnappers.any fun m => m.id = id && m.counter = 0 }

end Daemon

/-- What the constructor of `Comparison` checks. -/
def Making.snapshots (making : Making) : Option (UInt32 × UInt32) :=
  match making.snapshot1, making.snapshot2 with
  | some num1, some num2 => if num1 = num2 then none else some (num1, num2)
  | _, _ => none

/-- `Comparison::mount` and `Comparison::umount`, for one of the snapshots. -/
def mountOf (env : Env) (id : Nat) (num : UInt32)
    (f : Env → Nat → Str → Snapshot → Bool → Handler PUnit) : Handler PUnit := do
  if num = 0 then pure ⟨⟩
  else
    match ← Act.read (·.metaSnapper id), ← findSnapshot id num with
    | some m, some snapshot => f env id m.configName snapshot false
    | _, _ => pure ⟨⟩

/-- `Comparison::mount` of both snapshots.  An exception of the second call leaves the first one
mounted and counted. -/
def mountBoth (env : Env) (id : Nat) (num1 num2 : UInt32) : Handler PUnit := do
  mountOf env id num1 mountFilesystemSnapshot
  mountOf env id num2 mountFilesystemSnapshot

/-- `Comparison::umount` of both snapshots. -/
def umountBoth (env : Env) (id : Nat) (num1 num2 : UInt32) : Handler PUnit := do
  mountOf env id num1 umountFilesystemSnapshot
  mountOf env id num2 umountFilesystemSnapshot

namespace Daemon

/-- The exception leaves `create_comparison`. -/
def failed (env : Env) (name : Str) (making : Making) (e : Exception) (d : Daemon) : Daemon :=
  ((d.setWorker name .waiting).release env making.metaSnapper).send (.error name e.error)

/-- The constructor of a comparison mounts its snapshots, without the mutex. -/
def mountComparison (name : Str) (env : Env) (d : Daemon) : Daemon :=
  match d.making name with
  | none => d
  | some making =>
    match making.mounted, making.snapshots with
    | false, some (num1, num2) =>
      match (mountBoth env making.metaSnapper num1 num2).run d with
      | (.ok _, d) => d.setWorker name (.comparing { making with mounted := true })
      | (.error e, d) => d.failed env name making e
    | _, _ => d

/-- The rest of `create_comparison`, after `lock.lock()`. -/
def finished (env : Env) (name : Str) (making : Making) (comparison : Comparison) (d : Daemon) :
    Daemon :=
  let d := d.modClient name fun c =>
    { c with comparisons := c.comparisons ++ [comparison], worker := .waiting }
  ((incUseCount making.metaSnapper d).send (.reply name .done)).release env making.metaSnapper

/-- The constructor returns.  Without mounting it does so for a list of files that was saved
for two snapshots of the past. -/
def finishComparison (name : Str) (env : Env) (files : List DBus.SentFile) (d : Daemon) :
    Daemon :=
  match d.making name with
  | none => d
  | some making =>
    match making.snapshots with
    | none => d
    | some (num1, num2) =>
      let comparison : Comparison := ⟨making.snapper, num1, num2, files⟩
      if making.mounted then
        match (umountBoth env making.metaSnapper num1 num2).run d with
        | (.ok _, d) => d.finished env name making comparison
        | (.error e, d) => d.failed env name making e
      else if num1 ≠ 0 ∧ num2 ≠ 0 then d.finished env name making comparison
      else d

/-- The constructor throws: for its arguments before it mounts anything, for a call at any time,
or for an interruption, which only a client that has gone gets. -/
def failComparison (name : Str) (env : Env) (failure : Failure) (d : Daemon) : Daemon :=
  match d.making name with
  | none => d
  | some making =>
    match failure, making.snapshots with
    | .illegal, none => d.failed env name making .IllegalSnapshotException
    | .fault fault, some _ => d.failed env name making (.fault fault)
    | .interrupted, some _ =>
      if (d.client name).any Client.zombie then
        (d.setWorker name .ended).release env making.metaSnapper
      else d
    | _, _ => d

/-! ## The background -/

/-- An exception leaves the thread. -/
def terminate (d : Daemon) : Daemon := { d with terminated := true }

/-- The background takes the first task and loads its config. -/
def startTask (env : Env) (d : Daemon) : Daemon :=
  match d.background, d.tasks with
  | .waiting, task :: _ =>
    match (getSnapper env task.metaSnapper).run d with
    | (.ok _, d) =>
      { d with background := .comparing ⟨task.metaSnapper, d.snapperOf task.metaSnapper,
                some task.snapshot1, some task.snapshot2, false⟩ }
    | (.error _, d) => d.terminate
  | _, _ => d

/-- The constructor of the comparison of the background mounts; nothing catches its exceptions. -/
def mountTask (env : Env) (d : Daemon) : Daemon :=
  match d.background with
  | .comparing making =>
    match making.mounted, making.snapshots with
    | false, some (num1, num2) =>
      match (mountBoth env making.metaSnapper num1 num2).run d with
      | (.ok _, d) => { d with background := .comparing { making with mounted := true } }
      | (.error _, d) => d.terminate
    | _, _ => d
  | _ => d

/-- The comparison of the background ends and counts its config down.  The task is still in the
queue. -/
def finishTask (env : Env) (d : Daemon) : Daemon :=
  match d.background with
  | .comparing making =>
    match making.mounted, making.snapshots with
    | true, some (num1, num2) =>
      match (umountBoth env making.metaSnapper num1 num2).run d with
      | (.ok _, d) => { d.release env making.metaSnapper with background := .counted }
      | (.error _, d) => d.terminate
    | false, some _ => { d.release env making.metaSnapper with background := .counted }
    | _, none => d.terminate
  | _ => d

/-- The task leaves the queue, in another critical section than the count. -/
def popTask (d : Daemon) : Daemon :=
  match d.background with
  | .counted => { d with tasks := d.tasks.tail, background := .waiting }
  | _ => d

end Daemon

/-! ## Periodic work -/

/-- `umountFilesystemSnapshot(false)`, a number of times -/
def umountTimes (env : Env) (id : Nat) (configName : Str) (num : UInt32) : Nat → Handler PUnit
  | 0 => pure ⟨⟩
  | n + 1 => do
    -- the loop of the source finds the snapshot once; its fields are read anew for each round
    let snapshot ← getSnapshot id num
    umountFilesystemSnapshot env id configName snapshot false
    umountTimes env id configName num n

/-- `Client::~Client`, the loop over the mounts -/
def umountAll (env : Env) : List (MountKey × UInt32) → Handler PUnit
  | [] => pure ⟨⟩
  | (key, use) :: rest => do
    let m ← findConfig (ofLex key).1
    getSnapper env m.id
    let _ ← getSnapshot m.id (ofLex key).2
    umountTimes env m.id m.configName (ofLex key).2 use.toNat
    umountAll env rest

/-- `Client::~Client` -/
def destroyClient (env : Env) (client : Client) : Handler PUnit := do
  Act.modify fun d =>
    client.comparisons.foldl (fun d comparison => decUseCount env comparison.snapper d) d
  umountAll env client.mounts.entries

namespace Daemon

/-- `Clients::remove_zombies`, for one of them -/
def reap (name : Str) (env : Env) (d : Daemon) : Daemon :=
  match d.client name with
  | none => d
  | some client =>
    match client.worker, client.zombie with
    -- a client whose worker has not ended is left for the next time
    | .ended, true =>
      match (destroyClient env client).run d with
      | (.ok _, d) => { d with clients := d.clients.filter (·.name ≠ name) }
      | (.error _, d) => d.terminate
    | _, _ => d

/-- `snapper_cleanup_time` -/
def snapperCleanupTime : Int := 30

/-- `periodic` unloads a config.  An exception of `Snapper::~Snapper` ends the daemon; what was
written before it stays. -/
def unload (id : Nat) (env : Env) (d : Daemon) : Daemon :=
  match d.metaSnapper id with
  | none => d
  | some m =>
    -- a config in use is unused for no time
    if m.isLoaded ∧ snapperCleanupTime < m.unusedFor env.now then
      let destroyed := d.modDisk id fun disk => (destroySnapper env m.snapshots disk).1
      if (destroySnapper env m.snapshots m.disk).2 then destroyed.terminate
      else destroyed.modMeta id fun m => { m with snapper := none }
    else d

/-! ## The surroundings -/

/-- An update of the two mount fields that no thread intends: the outcome of two that overlap. -/
def race (id : Nat) (num : UInt32) (userRequest : Bool) (useCount : UInt32) : Daemon → Daemon :=
  Daemon.modSnapshot id num (Snapshot.raced userRequest useCount)

/-- From now on these entries of `.snapshots` are passed over when the config is loaded. -/
def spoil (id : Nat) (nums : List UInt32) : Daemon → Daemon :=
  Daemon.modDisk id fun disk => { disk with unreadable := nums }

/-- A step.  What cannot happen changes nothing, and nothing happens to a daemon that has
ended. -/
def step (d : Daemon) (a : Action) : Daemon :=
  if d.aborted ∨ d.terminated then d
  else
    match a with
    | .receive name request => d.receive name request
    | .disconnect name => d.disconnect name
    | .work name env => d.work name env
    | .endWorker name => d.endWorker name
    | .mountComparison name env => d.mountComparison name env
    | .finishComparison name env files => d.finishComparison name env files
    | .failComparison name env failure => d.failComparison name env failure
    | .startTask env => d.startTask env
    | .mountTask env => d.mountTask env
    | .finishTask env => d.finishTask env
    | .popTask => d.popTask
    | .reap name env => d.reap name env
    | .unload id env => d.unload id env
    | .race id num userRequest useCount => d.race id num userRequest useCount
    | .spoil id nums => d.spoil id nums

/-- The daemon after `meta_snappers.init()`. -/
structure Initial (d : Daemon) : Prop where
  ids : (d.metaSnappers.map MetaSnapper.id).Nodup
  nextId : ∀ m ∈ d.metaSnappers, m.id < d.nextId
  counter : ∀ m ∈ d.metaSnappers, m.counter = 0
  unloaded : ∀ m ∈ d.metaSnappers, m.snapper = none
  disk : ∀ m ∈ d.metaSnappers, m.disk.WF
  clients : d.clients = []
  tasks : d.tasks = []
  background : d.background = .waiting
  sent : d.sent = []
  running : d.aborted = false ∧ d.terminated = false

/-- The daemon after some steps. -/
def Reachable (d : Daemon) : Prop :=
  ∃ (start : Daemon) (actions : List Action), Initial start ∧ d = actions.foldl step start

end Daemon

end Snapper.Server
