import Snapper.Server.Snapshots

/-!
# The request handlers of a client

`Client::list_configs` to `Client::debug` as they run under `big_mutex`, with `me` for the
client whose worker runs them.  `create_comparison` is here up to the place where it lets
go of the mutex.
-/

namespace Snapper.Server

open General

section Handlers

variable (env : Env) (me : Str)

/-! ## Checks -/

/-- `meta_snappers.find`; a name that is not there is an `UnknownConfig`. -/
def findConfig (configName : Str) : Handler MetaSnapper := do
  match ← Act.read (·.find configName) with
  | none => throw .UnknownConfig
  | some m => pure m

/-- `conn.get_unix_userid`, which asks the bus for the user of the sender.  A create request asks
twice. -/
def getUnixUserid (again : Bool) : Handler UInt32 := do
  call env (.getUnixUserid again)
  pure env.uid

/-- `check_permission`, for root only -/
def checkRoot : Handler PUnit := do
  let uid ← getUnixUserid env false
  Act.throwIf (uid ≠ 0) .Permissions

/-- `check_permission`, for root and the users of the config. -/
def checkPermission (m : MetaSnapper) : Handler PUnit := do
  let uid ← getUnixUserid env false
  Act.throwIf (uid ≠ 0 ∧ uid ∉ m.uids) .Permissions

/-- The clients other than `me`, zombies apart, that have the lock. -/
def Daemon.lockedByOther (me configName : Str) (d : Daemon) : Bool :=
  d.clients.any fun c => !c.zombie && c.name ≠ me && c.hasLock configName

/-- `check_lock`: a lock of the client itself does not count, nor does one of a client that has
gone. -/
def checkLock (configName : Str) : Handler PUnit := do
  let locked ← Act.read (Daemon.lockedByOther me configName)
  Act.throwIf locked .Lock

/-- `check_config_in_use`: comparisons and tasks of the background are uses, mounts are not. -/
def checkConfigInUse (m : MetaSnapper) : Handler PUnit := Act.throwIf (m.counter ≠ 0) .ConfigInUse

/-- The snapshot is mounted for a client. -/
def Daemon.snapshotInUse (configName : Str) (num : UInt32) (d : Daemon) : Bool :=
  d.clients.any fun c => (c.mounts.find (mountKey configName num)).isSome

/-- `check_snapshot_in_use`: any client that has the snapshot mounted uses it, also the one that
asks. -/
def checkSnapshotInUse (m : MetaSnapper) (num : UInt32) : Handler PUnit := do
  let inUse ← Act.read (Daemon.snapshotInUse m.configName num)
  Act.throwIf inUse .SnapshotInUse

/-- The reply to the request that is served. -/
def sendReply (reply : Reply) : Handler PUnit := Act.modify (Daemon.send (.reply me reply))

/-- A signal goes to everybody. -/
def signal (msg : Sent) : Handler PUnit := Act.modify (Daemon.send msg)

/-- What most handlers begin with: the config, the permission and the `Snapper`. -/
def openConfig (configName : Str) : Handler MetaSnapper := do
  let m ← findConfig configName
  checkPermission env m
  getSnapper env m.id
  pure m

/-! ## Configs -/

/-- `list_configs` needs no permission. -/
def listConfigs : Handler PUnit := do
  let metaSnappers ← Act.read Daemon.metaSnappers
  sendReply me (.configs (metaSnappers.map MetaSnapper.configInfo))

/-- `get_config` answers with the config as it was read; it does not load the snapshots. -/
def getConfig (configName : Str) : Handler PUnit := do
  let m ← findConfig configName
  checkPermission env m
  sendReply me (.config m.configInfo)

/-- The config that `MetaSnappers::createConfig` adds. -/
def Daemon.createdConfig (configName : Str) (d : Daemon) : MetaSnapper where
  id := d.nextId
  configInfo := { env.createdConfig with configName := configName }
  uids := env.createdUids
  counter := 0
  lastUsed := env.now
  snapper := none
  disk := env.createdDisk

/-- `Snapper::createConfig` refuses a name that is in `SNAPPER_CONFIGS`; what else it checks
and does is one call. -/
def createConfig (configName : Str) : Handler PUnit := do
  checkRoot env
  let known ← Act.read fun d => (d.find configName).isSome
  Act.throwIf known (.fault .CreateConfigFailedException)
  call env .createConfig
  Act.modify fun d =>
    { d with metaSnappers := d.metaSnappers ++ [d.createdConfig env configName]
             nextId := d.nextId + 1 }
  sendReply me .done
  signal (.configCreated configName)

/-- `Snapper::deleteConfig` deletes the snapshots on disk before it can fail.  With the entry the
`Snapper` that is loaded goes, and an exception of its destructor ends the daemon. -/
def deleteConfigOf (m : MetaSnapper) : Handler PUnit := do
  match env.fault .deleteConfig with
  | some fault => do
    Act.modify (Daemon.modDisk m.id fun disk =>
      { disk with infos := disk.infos.filter (·.num ∈ env.undeleted) })
    throw (.fault fault)
  -- the entry goes with the `Snapper`, whose destructor writes what is pending
  | none =>
    Act.modify fun d =>
      { d with metaSnappers := d.metaSnappers.filter (·.id ≠ m.id)
               terminated := d.terminated || (destroySnapper env (d.snapshots m.id) m.disk).2 }

/-- `delete_config` is for root only; it does not load the snapshots. -/
def deleteConfig (configName : Str) : Handler PUnit := do
  let m ← findConfig configName
  checkRoot env
  checkLock me configName
  checkConfigInUse m
  deleteConfigOf env m
  sendReply me .done
  signal (.configDeleted configName)

/-! ## Locks -/

/-- `lock_config` enters the lock without looking at the locks of others. -/
def lockConfig (configName : Str) : Handler PUnit := do
  let m ← findConfig configName
  checkPermission env m
  Act.modify (Daemon.modClient me fun c => { c with locks := insert configName c.locks })
  sendReply me .done

/-- `unlock_config`; a lock that is not there is no error. -/
def unlockConfig (configName : Str) : Handler PUnit := do
  let m ← findConfig configName
  checkPermission env m
  Act.modify (Daemon.modClient me fun c => { c with locks := c.locks.erase configName })
  sendReply me .done

/-! ## Snapshots -/

/-- `list_snapshots`; the current system is the first of the list. -/
def listSnapshots (configName : Str) : Handler PUnit := do
  let m ← openConfig env configName
  let snapshots ← Act.read (·.snapshots m.id)
  sendReply me (.snapshots snapshots)

/-- `list_snapshots_at_time`, with both ends of the interval. -/
def listSnapshotsAtTime (configName : Str) (begin_ end_ : Int64) : Handler PUnit := do
  let m ← openConfig env configName
  let snapshots ← Act.read (·.snapshots m.id)
  sendReply me (.snapshots (snapshots.filter fun s => begin_ ≤ s.date ∧ s.date ≤ end_))

/-- `get_snapshot` -/
def sendSnapshot (configName : Str) (num : UInt32) : Handler PUnit := do
  let m ← openConfig env configName
  let snapshot ← getSnapshot m.id num
  sendReply me (.snapshot snapshot)

/-- `set_snapshot`.  The fields are set one after the other, and an exception leaves what was set.
-/
def setSnapshot (configName : Str) (num : UInt32) (description cleanup : Str)
    (userdata : StrMap) : Handler PUnit := do
  let m ← openConfig env configName
  let snapshot ← getSnapshot m.id num
  setDescription m.id snapshot.num description
  setCleanup m.id snapshot.num cleanup
  setUserdata m.id snapshot.num userdata
  flushInfo env m.id snapshot.num true
  sendReply me .done
  signal (.snapshotModified configName snapshot.num)

/-- What the three handlers do with a snapshot that was created.  It is in the list by then, and
an exception does not take it back. -/
def finishCreate (id : Nat) (num : UInt32) (cleanup : Str) (userdata : StrMap) :
    Handler PUnit := do
  let uid ← getUnixUserid env true
  setUid id num uid
  setCleanup id num cleanup
  setUserdata id num userdata
  flushInfo env id num true

/-- `create_single_snapshot` -/
def handleCreateSingleSnapshot (configName description cleanup : Str) (userdata : StrMap) :
    Handler PUnit := do
  let m ← openConfig env configName
  let num ← createSingleSnapshot env m.id description
  finishCreate env m.id num cleanup userdata
  sendReply me (.number num)
  signal (.snapshotCreated configName num)

/-- `create_pre_snapshot` -/
def handleCreatePreSnapshot (configName description cleanup : Str) (userdata : StrMap) :
    Handler PUnit := do
  let m ← openConfig env configName
  let num ← createPreSnapshot env m.id description
  finishCreate env m.id num cleanup userdata
  sendReply me (.number num)
  signal (.snapshotCreated configName num)

/-- `pos == end() || pos->second == "yes"` -/
def wantsComparison (m : MetaSnapper) : Bool :=
  match m.configInfo.raw.find (str "BACKGROUND_COMPARISON") with
  | none => true
  | some value => value = str "yes"

/-- `inc_use_count` -/
def incUseCount (id : Nat) : Daemon → Daemon :=
  Daemon.modMeta id fun m => { m with counter := m.counter + 1 }

/-- `Backgrounds::add_task` -/
def addTask (task : Task) : Handler PUnit := do
  Act.modify fun d => { d with tasks := d.tasks ++ [task] }
  Act.modify (incUseCount task.metaSnapper)

/-- `create_post_snapshot`; the iterator to the pre snapshot may be one to `end()`. -/
def handleCreatePostSnapshot (configName : Str) (preNum : UInt32) (description cleanup : Str)
    (userdata : StrMap) : Handler PUnit := do
  let m ← openConfig env configName
  let pre ← findSnapshot m.id preNum
  let num ← createPostSnapshot env m.id description pre
  finishCreate env m.id num cleanup userdata
  -- the comparison of the background is put into the queue before the reply
  if wantsComparison m then addTask ⟨m.id, preNum, num⟩ else pure ⟨⟩
  sendReply me (.number num)
  signal (.snapshotCreated configName num)

/-- The loop of `delete_snapshots`.  What was deleted before an exception stays deleted. -/
def deleteAll (m : MetaSnapper) : List UInt32 → Handler PUnit
  | [] => pure ⟨⟩
  | num :: nums => do
    checkSnapshotInUse m num
    let snapshot ← findSnapshot m.id num
    deleteSnapshot env m.id snapshot
    deleteAll m nums

/-- `delete_snapshots`.  The use of the config is checked before its snapshots are loaded. -/
def deleteSnapshots (configName : Str) (nums : List UInt32) : Handler PUnit := do
  let m ← findConfig configName
  checkPermission env m
  checkLock me configName
  checkConfigInUse m
  getSnapper env m.id
  deleteAll env m nums
  sendReply me .done
  signal (.snapshotsDeleted configName nums)

/-! ## Mounts -/

/-- `mount_snapshot`.  The snapshot is mounted first; a mount that is not for the user is entered
at the client. -/
def mountSnapshot (configName : Str) (num : UInt32) (userRequest : Bool) : Handler PUnit := do
  let m ← openConfig env configName
  let snapshot ← getSnapshot m.id num
  mountFilesystemSnapshot env m.id configName snapshot userRequest
  if userRequest then pure ⟨⟩
  else Act.modify (Daemon.modClient me (Client.addMount configName num))
  sendReply me (.mountPoint (env.snapshotDir num))

/-- `umount_snapshot`, which unmounts before it looks whether the client has the mount. -/
def umountSnapshot (configName : Str) (num : UInt32) (userRequest : Bool) : Handler PUnit := do
  let m ← openConfig env configName
  let snapshot ← getSnapshot m.id num
  umountFilesystemSnapshot env m.id configName snapshot userRequest
  if userRequest then pure ⟨⟩
  else Act.modify (Daemon.modClient me (Client.removeMount configName num))
  sendReply me .done

/-- `get_mount_point` says where the snapshot would be mounted. -/
def getMountPoint (configName : Str) (num : UInt32) : Handler PUnit := do
  let m ← openConfig env configName
  let _ ← getSnapshot m.id num
  sendReply me (.mountPoint (env.snapshotDir num))

/-! ## Comparisons -/

/-- The `Snapper` of a config, its address. -/
def Daemon.snapperOf (id : Nat) (d : Daemon) : Nat :=
  match (d.metaSnapper id).bind MetaSnapper.snapper with
  | none => 0
  | some loaded => loaded.id

/-- `create_comparison` up to `lock.unlock()`: the iterators are looked up and the count is
taken by a `RefHolder`. -/
def createComparison (configName : Str) (num1 num2 : UInt32) : Handler PUnit := do
  let m ← openConfig env configName
  let snapper ← Act.read (Daemon.snapperOf m.id)
  let snapshot1 ← findSnapshot m.id num1
  let snapshot2 ← findSnapshot m.id num2
  -- from here on the config is in use, until the comparison is deleted or has failed
  Act.modify (incUseCount m.id)
  Act.modify (Daemon.modClient me fun c => { c with
    worker := .comparing ⟨m.id, snapper, snapshot1.map Snapshot.num, snapshot2.map Snapshot.num,
      false⟩ })

/-- `dec_use_count`; its assertion fails at zero. -/
def MetaSnapper.dec (m : MetaSnapper) : MetaSnapper :=
  { m with counter := m.counter - 1, lastUsed := if m.counter = 1 then env.now else m.lastUsed }

/-- `delete_comparison` of a comparison of this `Snapper`: the configs that are equal to it
count down. -/
def decUseCount (snapper : Nat) (d : Daemon) : Daemon :=
  { d with metaSnappers := d.metaSnappers.map fun m => if m.isEqual snapper then m.dec env else m
           aborted := d.aborted || d.metaSnappers.any fun m => m.isEqual snapper && m.counter = 0 }

/-- The comparison is the one of these iterators; iterators to `end()` are of none. -/
def Comparison.matches (snapper : Nat) (snapshot1 snapshot2 : Option Snapshot)
    (c : Comparison) : Bool :=
  c.snapper = snapper ∧ snapshot1.map Snapshot.num = some c.num1 ∧
    snapshot2.map Snapshot.num = some c.num2

/-- `find_comparison` -/
def findComparison (id : Nat) (num1 num2 : UInt32) : Handler Comparison := do
  let snapper ← Act.read (Daemon.snapperOf id)
  let snapshot1 ← findSnapshot id num1
  let snapshot2 ← findSnapshot id num2
  let client ← Act.read (·.client me)
  match client.bind fun c =>
    c.comparisons.find? (Comparison.matches snapper snapshot1 snapshot2) with
  | none => throw .NoComparison
  | some comparison => pure comparison

/-- `comparisons.erase` of the comparison that `find_comparison` found -/
def Client.eraseComparison (comparison : Comparison) (c : Client) : Client :=
  { c with comparisons := c.comparisons.eraseP fun c' =>
      c'.snapper = comparison.snapper ∧ c'.num1 = comparison.num1 ∧ c'.num2 = comparison.num2 }

/-- `delete_comparison` counts down and erases the comparison. -/
def deleteComparison (configName : Str) (num1 num2 : UInt32) : Handler PUnit := do
  let m ← openConfig env configName
  let comparison ← findComparison me m.id num1 num2
  Act.modify (decUseCount env comparison.snapper)
  Act.modify (Daemon.modClient me (Client.eraseComparison comparison))
  sendReply me .done

/-- `get_files` of a comparison that the client has made. -/
def getFiles (configName : Str) (num1 num2 : UInt32) : Handler PUnit := do
  let m ← openConfig env configName
  let comparison ← findComparison me m.id num1 num2
  sendReply me (.files comparison.files)

/-- `debug` only formats what there is; the texts are left out. -/
def debug : Handler PUnit := do
  checkRoot env
  sendReply me .done

/-! ## Dispatch -/

/-- The method of a request; the arguments of `CreateConfig` matter to the file system only. -/
def handle : Request → Handler PUnit
  | .listConfigs => listConfigs me
  | .createConfig configName _ _ _ => createConfig env me configName
  | .getConfig configName => getConfig env me configName
  | .deleteConfig configName => deleteConfig env me configName
  | .lockConfig configName => lockConfig env me configName
  | .unlockConfig configName => unlockConfig env me configName
  | .listSnapshots configName => listSnapshots env me configName
  | .listSnapshotsAtTime configName begin_ end_ => listSnapshotsAtTime env me configName begin_ end_
  | .getSnapshot configName num => sendSnapshot env me configName num
  | .setSnapshot configName num description cleanup userdata =>
    setSnapshot env me configName num description cleanup userdata
  | .createSingleSnapshot configName description cleanup userdata =>
    handleCreateSingleSnapshot env me configName description cleanup userdata
  | .createPreSnapshot configName description cleanup userdata =>
    handleCreatePreSnapshot env me configName description cleanup userdata
  | .createPostSnapshot configName preNum description cleanup userdata =>
    handleCreatePostSnapshot env me configName preNum description cleanup userdata
  | .deleteSnapshots configName nums => deleteSnapshots env me configName nums
  | .mountSnapshot configName num userRequest => mountSnapshot env me configName num userRequest
  | .umountSnapshot configName num userRequest => umountSnapshot env me configName num userRequest
  | .getMountPoint configName num => getMountPoint env me configName num
  | .createComparison configName num1 num2 => createComparison env me configName num1 num2
  | .deleteComparison configName num1 num2 => deleteComparison env me configName num1 num2
  | .getFiles configName num1 num2 => getFiles env me configName num1 num2
  | .debug => debug env me

/-- `Client::dispatch`: an exception is answered with an error reply. -/
def dispatch (request : Request) (d : Daemon) : Daemon :=
  match (handle env me request).run d with
  | (.ok _, d) => d
  | (.error e, d) => d.send (.error me e.error)

end Handlers

end Snapper.Server
