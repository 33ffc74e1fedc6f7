import Mathlib.Data.Finset.Erase
import Mathlib.Data.Finset.Insert
import Mathlib.Data.List.Sort
import Mathlib.Data.Prod.Lex
import Snapper.General.Act
import Snapper.General.Keyed
import Snapper.Dbus.Types

/-!
# The state of `snapperd`

The configs with their snapshots and use counts, the clients with what they hold, the tasks
in the background and what was sent.  An object that others point to has an `id` for its
address.  What is outside of the daemon answers through `Env`: the bus, the clock and the
calls that reach a file system, any of which may fail.
-/

namespace Snapper.Server

open General

/-! ## Exceptions -/

/-- Exceptions of calls that leave the daemon. -/
inductive Fault where
  | FatalException
  | ConfigNotFoundException
  | InvalidConfigException
  | IOErrorException
  | CreateConfigFailedException
  | DeleteConfigFailedException
  | CreateSnapshotFailedException
  | DeleteSnapshotFailedException
  | IsSnapshotMountedFailedException
  | MountSnapshotFailedException
  | UmountSnapshotFailedException
  deriving DecidableEq, Repr

/-- What the handlers throw: an exception of a call, or one of the daemon's own checks. -/
inductive Exception where
  | fault (fault : Fault)
  | UnknownConfig
  | Permissions
  | Lock
  | ConfigInUse
  | SnapshotInUse
  | NoComparison
  | IllegalSnapshotException
  | InvalidUserdataException
  deriving DecidableEq, Repr

/-- The error of the reply that `Client::dispatch` sends for an exception. -/
def Exception.error : Exception → Str
  | fault .FatalException => str "error.dbus.fatal"
  | UnknownConfig => str "error.unknown_config"
  | fault .CreateConfigFailedException => str "error.create_config_failed"
  | fault .DeleteConfigFailedException => str "error.delete_config_failed"
  | Permissions => str "error.no_permissions"
  | Lock => str "error.config_locked"
  | ConfigInUse => str "error.config_in_use"
  | SnapshotInUse => str "error.snapshot_in_use"
  | NoComparison => str "error.no_comparisons"
  | IllegalSnapshotException => str "error.illegal_snapshot"
  | fault .CreateSnapshotFailedException => str "error.create_snapshot_failed"
  | fault .DeleteSnapshotFailedException => str "error.delete_snapshot_failed"
  | InvalidUserdataException => str "error.invalid_userdata"
  | fault .IOErrorException => str "error.io_error"
  | fault .IsSnapshotMountedFailedException => str "error.is_snapshot_mounted"
  | fault .MountSnapshotFailedException => str "error.mount_snapshot"
  | fault .UmountSnapshotFailedException => str "error.umount_snapshot"
  | fault .ConfigNotFoundException => str "error.something"
  | fault .InvalidConfigException => str "error.something"

/-! ## Configs -/

/-- What a config has on disk: the numbers for which `checkSnapshot` or `mkdir` finds something,
the snapshots with an `info.xml`, and the numbers that `Snapshots::read` passes over for now.  It
catches every `IOErrorException`, for one snapshot or for all of them, and goes on without what it
could not read; so it does where an `info.xml` is not as it was written or `checkSnapshot` fails. -/
structure Disk where
  dirs : List UInt32
  infos : List Snapshot
  unreadable : List UInt32

/-- A snapshot as its `info.xml` has it. -/
def Snapshot.stored (snapshot : Snapshot) : Snapshot where
  type := snapshot.type
  num := snapshot.num
  date := snapshot.date
  uid := snapshot.uid
  preNum := if snapshot.type = .POST then snapshot.preNum else 0
  description := snapshot.description
  cleanup := snapshot.cleanup
  userdata := snapshot.userdata
  infoModified := false
  mountChecked := false
  mountUserRequest := false
  mountUseCount := 0

/-- Numbers stand once, with a directory and not for the current snapshot, and snapshots are as
an `info.xml` has them. -/
structure Disk.WF (disk : Disk) : Prop where
  nodup : (disk.infos.map Snapshot.num).Nodup
  nonzero : ∀ s ∈ disk.infos, s.num ≠ 0
  dirs : ∀ s ∈ disk.infos, s.num ∈ disk.dirs
  stored : ∀ s ∈ disk.infos, Snapshot.stored s = s

/-- `infos_dir.unlink(decString(num), AT_REMOVEDIR)`, whose result is ignored: a directory that is
not empty stays, and `nextNumber` passes over its number from then on. -/
def Disk.removeDir (num : UInt32) (stays : Bool) (disk : Disk) : Disk :=
  { disk with dirs := if stays then disk.dirs else disk.dirs.filter (· ≠ num) }

@[simp] theorem removeDir_infos {disk : Disk} {num : UInt32} {stays : Bool} :
    (disk.removeDir num stays).infos = disk.infos := rfl

/-- At most the directory of the number is removed. -/
theorem mem_removeDir {disk : Disk} {num n : UInt32} {stays : Bool} (hdir : n ∈ disk.dirs)
    (hne : n ≠ num) : n ∈ (disk.removeDir num stays).dirs := by
  cases stays with
  | true => exact hdir
  | false => exact List.mem_filter.mpr ⟨hdir, by simpa using hne⟩

/-- The snapshots that `Snapshots::read` adds. -/
def Disk.readable (disk : Disk) : List Snapshot := disk.infos.filter (·.num ∉ disk.unreadable)

/-- `Snapshots::initialize` -/
def Disk.read (disk : Disk) : List Snapshot :=
  Snapshot.current :: disk.readable.insertionSort fun a b => a.num ≤ b.num

theorem mem_readable {disk : Disk} {s : Snapshot} :
    s ∈ disk.readable ↔ s ∈ disk.infos ∧ s.num ∉ disk.unreadable := by
  simp [Disk.readable]

/-- What can be read is on disk. -/
theorem mem_infos_of_readable {disk : Disk} {s : Snapshot} (hs : s ∈ disk.readable) :
    s ∈ disk.infos := (mem_readable.mp hs).1

/-- The list begins with the system itself, and holds what can be read. -/
theorem mem_read {disk : Disk} {s : Snapshot} :
    s ∈ disk.read ↔ s = Snapshot.current ∨ s ∈ disk.readable := by
  simp [Disk.read, List.mem_insertionSort]

/-- What `Snapshot::writeInfo` does. -/
def Disk.write (snapshot : Snapshot) (disk : Disk) : Disk :=
  { disk with infos := disk.infos.filter (·.num ≠ snapshot.num) ++ [Snapshot.stored snapshot] }

/-- A `Snapper` object: its address and its list of snapshots. -/
structure Loaded where
  id : Nat
  snapshots : List Snapshot

/-- A config as the daemon keeps it: its data, the users it is for, how often it is in use, when
it was used last, its `Snapper` if there is one, and its disk. -/
structure MetaSnapper where
  id : Nat
  configInfo : ConfigInfo
  uids : List UInt32
  counter : Nat
  lastUsed : Int
  snapper : Option Loaded
  disk : Disk

namespace MetaSnapper

def configName (m : MetaSnapper) : Str := m.configInfo.configName

/-- `MetaSnapper::is_loaded` -/
def isLoaded (m : MetaSnapper) : Bool := m.snapper.isSome

/-- `is_equal` -/
def isEqual (m : MetaSnapper) (snapper : Nat) : Bool :=
  match m.snapper with
  | none => false
  | some loaded => loaded.id = snapper

/-- `getSnapshots`, of the object if there is one. -/
def snapshots (m : MetaSnapper) : List Snapshot :=
  match m.snapper with
  | none => []
  | some loaded => loaded.snapshots

/-- `unused_for` -/
def unusedFor (m : MetaSnapper) (now : Int) : Int := if m.counter ≠ 0 then 0 else now - m.lastUsed

/-- Changes the list of a config that is loaded. -/
def setSnapshots (f : List Snapshot → List Snapshot) (m : MetaSnapper) : MetaSnapper :=
  { m with snapper := m.snapper.map fun loaded => { loaded with snapshots := f loaded.snapshots } }

end MetaSnapper

/-! ## Clients -/

/-- A `Comparison` object: the address of its `Snapper`, its snapshots and its files. -/
structure Comparison where
  snapper : Nat
  num1 : UInt32
  num2 : UInt32
  files : List DBus.SentFile

/-- A comparison that is being made: the config, its `Snapper`, the two iterators and whether
the constructor has the snapshots mounted. -/
structure Making where
  metaSnapper : Nat
  snapper : Nat
  snapshot1 : Option UInt32
  snapshot2 : Option UInt32
  mounted : Bool

/-- The requests, with the arguments as the handlers get them. -/
inductive Request where
  | listConfigs
  | createConfig (configName subvolume fstype templateName : Str)
  | getConfig (configName : Str)
  | deleteConfig (configName : Str)
  | lockConfig (configName : Str)
  | unlockConfig (configName : Str)
  | listSnapshots (configName : Str)
  | listSnapshotsAtTime (configName : Str) (begin_ end_ : Int64)
  | getSnapshot (configName : Str) (num : UInt32)
  | setSnapshot (configName : Str) (num : UInt32) (description cleanup : Str) (userdata : StrMap)
  | createSingleSnapshot (configName description cleanup : Str) (userdata : StrMap)
  | createPreSnapshot (configName description cleanup : Str) (userdata : StrMap)
  | createPostSnapshot (configName : Str) (preNum : UInt32) (description cleanup : Str)
      (userdata : StrMap)
  | deleteSnapshots (configName : Str) (nums : List UInt32)
  | mountSnapshot (configName : Str) (num : UInt32) (userRequest : Bool)
  | umountSnapshot (configName : Str) (num : UInt32) (userRequest : Bool)
  | getMountPoint (configName : Str) (num : UInt32)
  | createComparison (configName : Str) (num1 num2 : UInt32)
  | deleteComparison (configName : Str) (num1 num2 : UInt32)
  | getFiles (configName : Str) (num1 num2 : UInt32)
  | debug

/-- What the worker thread of a client does. -/
inductive Worker where
  /-- between two tasks -/
  | waiting
  /-- in `create_comparison`, without `big_mutex` -/
  | comparing (making : Making)
  | ended

/-- A `pair<string, unsigned int>` of a config and a number, in the order of a `map`. -/
abbrev MountKey := Str ×ₗ UInt32

/-- The key of `Client::mounts`. -/
def mountKey (configName : Str) (num : UInt32) : MountKey := toLex (configName, num)

/-- A client of the bus, with what it holds, its queue of requests and its worker thread. -/
structure Client where
  name : Str
  comparisons : List Comparison
  locks : Finset Str
  mounts : SortedMap MountKey UInt32
  tasks : List Request
  worker : Worker
  zombie : Bool

/-- `Client::Client` -/
def Client.new (name : Str) : Client where
  name := name
  comparisons := []
  locks := ∅
  mounts := .empty
  tasks := []
  worker := .waiting
  zombie := false

/-- `Client::has_lock` -/
def Client.hasLock (client : Client) (configName : Str) : Bool := configName ∈ client.locks

/-- `Client::add_mount`; the count of uses is an `unsigned int`. -/
def Client.addMount (configName : Str) (num : UInt32) (client : Client) : Client :=
  let use := (client.mounts.find (mountKey configName num)).getD 0
  { client with mounts := client.mounts.set (mountKey configName num) (use + 1) }

/-- `Client::remove_mount`; the last use takes the entry away, and a mount that is not there is
ignored. -/
def Client.removeMount (configName : Str) (num : UInt32) (client : Client) : Client :=
  match client.mounts.find (mountKey configName num) with
  | none => client
  | some use =>
    if 1 < use then
      { client with mounts := client.mounts.set (mountKey configName num) (use - 1) }
    else { client with mounts := client.mounts.erase (mountKey configName num) }

/-! ## The daemon -/

/-- `Backgrounds::Task` -/
structure Task where
  metaSnapper : Nat
  snapshot1 : UInt32
  snapshot2 : UInt32

/-- What the background thread does. -/
inductive Background where
  | waiting
  /-- in the constructor of the comparison for the first task -/
  | comparing (making : Making)
  /-- the count of the first task is decremented, the task is still in the list -/
  | counted

/-- The contents of a reply. -/
inductive Reply where
  | done
  | configs (infos : List ConfigInfo)
  | config (info : ConfigInfo)
  | snapshots (snapshots : List Snapshot)
  | snapshot (snapshot : Snapshot)
  | number (num : UInt32)
  | mountPoint (path : Str)
  | files (files : List DBus.SentFile)

/-- What the daemon sends. -/
inductive Sent where
  | reply (client : Str) (reply : Reply)
  | error (client : Str) (name : Str)
  | configCreated (configName : Str)
  | configDeleted (configName : Str)
  | snapshotCreated (configName : Str) (num : UInt32)
  | snapshotModified (configName : Str) (num : UInt32)
  | snapshotsDeleted (configName : Str) (nums : List UInt32)

/-- The daemon.  The list of configs is in the order of the file, and what was sent in the order
of sending. -/
structure Daemon where
  metaSnappers : List MetaSnapper
  clients : List Client
  tasks : List Task
  background : Background
  sent : List Sent
  /-- an address that is not used yet -/
  nextId : Nat
  /-- an assertion failed -/
  aborted : Bool
  /-- an exception has left a destructor -/
  terminated : Bool

namespace Daemon

/-- The config that an iterator points to. -/
def metaSnapper (d : Daemon) (id : Nat) : Option MetaSnapper :=
  lookup MetaSnapper.id id d.metaSnappers

/-- `MetaSnappers::find`, `none` for the exception -/
def find (d : Daemon) (configName : Str) : Option MetaSnapper :=
  lookup MetaSnapper.configName configName d.metaSnappers

/-- `Clients::find` -/
def client (d : Daemon) (name : Str) : Option Client := lookup Client.name name d.clients

/-- The snapshots of the config that an iterator points to. -/
def snapshots (d : Daemon) (id : Nat) : List Snapshot :=
  match d.metaSnapper id with
  | none => []
  | some m => m.snapshots

/-- `Snapshots::find`, `none` for `end()` -/
def snapshot (d : Daemon) (id : Nat) (num : UInt32) : Option Snapshot :=
  lookup Snapshot.num num (d.snapshots id)

/-- Changes the config with this id. -/
def modMeta (id : Nat) (f : MetaSnapper → MetaSnapper) (d : Daemon) : Daemon :=
  { d with metaSnappers := update MetaSnapper.id id f d.metaSnappers }

/-- Changes the client with this name. -/
def modClient (name : Str) (f : Client → Client) (d : Daemon) : Daemon :=
  { d with clients := update Client.name name f d.clients }

/-- Changes one snapshot in the list of a loaded config. -/
def modSnapshot (id : Nat) (num : UInt32) (f : Snapshot → Snapshot) (d : Daemon) : Daemon :=
  d.modMeta id (MetaSnapper.setSnapshots (update Snapshot.num num f))

/-- Changes what is on the disk of a config. -/
def modDisk (id : Nat) (f : Disk → Disk) (d : Daemon) : Daemon :=
  d.modMeta id fun m => { m with disk := f m.disk }

/-- Appends to what has been sent. -/
def send (msg : Sent) (d : Daemon) : Daemon := { d with sent := d.sent ++ [msg] }

end Daemon

/-- A daemon that has started with the config `root`, which has one snapshot. -/
def Daemon.rootOnly : Daemon where
  metaSnappers := [⟨0, ⟨str "root", str "/", .empty⟩, [], 0, 0, none,
    ⟨[1], [Snapshot.new .SINGLE 1 0], []⟩⟩]
  clients := []
  tasks := []
  background := .waiting
  sent := []
  nextId := 1
  aborted := false
  terminated := false

/-! ## What is outside -/

/-- The calls that leave the daemon and may throw. -/
inductive Call where
  | getUnixUserid (again : Bool)
  | loadSnapper (configName : Str)
  | createConfig
  | deleteConfig
  | mkdir
  | createFilesystemSnapshot
  | undoCreate
  | writeInfo (num : UInt32) (again : Bool)
  | deleteFilesystemSnapshot (num : UInt32)
  | deleteInfo (num : UInt32)
  | isSnapshotMounted (configName : Str) (num : UInt32)
  | mountSnapshot (num : UInt32)
  | umountSnapshot (num : UInt32)
  deriving DecidableEq

/-- The answers that one step of the daemon gets. -/
structure Env where
  /-- the exceptions of the calls -/
  fault : Call → Option Fault
  /-- `CLOCK_MONOTONIC` -/
  now : Int
  /-- `time(NULL)` -/
  time : Int64
  /-- the user of the sender -/
  uid : UInt32
  /-- `isSnapshotMounted` -/
  isSnapshotMounted : UInt32 → Bool
  /-- the info directory of the number is not empty when it is to be removed -/
  stays : UInt32 → Bool
  /-- `snapshotDir` -/
  snapshotDir : UInt32 → Str
  /-- the config that `Snapper::createConfig` makes, apart from its name -/
  createdConfig : ConfigInfo
  createdUids : List UInt32
  createdDisk : Disk
  createdDisk_wf : createdDisk.WF
  /-- the snapshots that a failed `Snapper::deleteConfig` leaves -/
  undeleted : List UInt32

/-- Every call succeeds, for root. -/
def Env.quiet : Env where
  fault _ := none
  now := 0
  time := 0
  uid := 0
  isSnapshotMounted _ := false
  stays _ := false
  snapshotDir _ := []
  createdConfig := ⟨[], [], .empty⟩
  createdUids := []
  createdDisk := ⟨[], [], []⟩
  createdDisk_wf := ⟨List.nodup_nil, by simp, by simp, by simp⟩
  undeleted := []

abbrev Handler := Act Daemon Exception

/-- A call that leaves the daemon. -/
def call (env : Env) (c : Call) : Handler PUnit :=
  match env.fault c with
  | none => pure ⟨⟩
  | some fault => throw (.fault fault)

end Snapper.Server
