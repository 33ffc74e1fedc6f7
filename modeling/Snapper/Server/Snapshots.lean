import Snapper.Server.State

/-!
# Creating, changing, mounting and deleting snapshots

The operations of `Snapshot` and `Snapshots` on the snapshots of a config, and the loading of
a `Snapper` object.  An iterator to a config is its address, one to a snapshot its number.
-/

namespace Snapper

/-! ## Fields -/

namespace Snapshot

def setUid (val : UInt32) (s : Snapshot) : Snapshot := { s with uid := val, infoModified := true }

def setDescription (val : Str) (s : Snapshot) : Snapshot :=
  { s with description := val, infoModified := true }

def setCleanup (val : Str) (s : Snapshot) : Snapshot :=
  { s with cleanup := val, infoModified := true }

def setUserdata (val : StrMap) (s : Snapshot) : Snapshot :=
  { s with userdata := val, infoModified := true }

/-- `flushInfo` has written the file. -/
def flushed (s : Snapshot) : Snapshot := { s with infoModified := false }

/-- `mount_checked` and what goes with it -/
def checkMounted (mounted : Bool) (s : Snapshot) : Snapshot :=
  if s.mountChecked then s else { s with mountChecked := true, mountUserRequest := mounted }

/-- The change of `mountFilesystemSnapshot`. -/
def countMount (userRequest : Bool) (s : Snapshot) : Snapshot :=
  if userRequest then { s with mountUserRequest := true }
  else { s with mountUseCount := s.mountUseCount + 1 }

/-- The change of `umountFilesystemSnapshot`. -/
def countUmount (userRequest : Bool) (s : Snapshot) : Snapshot :=
  if userRequest then { s with mountUserRequest := false }
  else { s with mountUseCount := s.mountUseCount - 1 }

/-- What the mutable fields are after two threads have written them at the same time.  The current
snapshot is never mounted, `mountFilesystemSnapshot` throws before it writes. -/
def raced (userRequest : Bool) (useCount : UInt32) (s : Snapshot) : Snapshot :=
  if s.isCurrent then s
  else { s with mountChecked := true, mountUserRequest := userRequest, mountUseCount := useCount }

end Snapshot

/-- `find_first_of(",=") != npos` -/
def hasSeparator (s : Str) : Bool := s.any fun c => c = 44 ∨ c = 61

/-- What `setUserdata` demands of keys and values. -/
def validUserdata (userdata : StrMap) : Bool :=
  userdata.entries.all fun e => !e.1.isEmpty && !hasSeparator e.1 && !hasSeparator e.2

end Snapper

namespace Snapper.Server

open General

/-! ## Loading -/

/-- `new Snapper`, with the snapshots that can be read -/
def Daemon.load (id : Nat) (d : Daemon) : Daemon :=
  { d.modMeta id fun m => { m with snapper := some ⟨d.nextId, m.disk.read⟩ } with
    nextId := d.nextId + 1 }

/-- `MetaSnapper::getSnapper`: load the config if it is not loaded. -/
def getSnapper (env : Env) (id : Nat) : Handler PUnit := do
  match ← Act.read (·.metaSnapper id) with
  | none => pure ⟨⟩
  | some m => do
    if m.isLoaded then pure ⟨⟩
    else do
      call env (.loadSnapper m.configName)
      Act.modify (Daemon.load id)
    Act.modify (Daemon.modMeta id fun m => { m with lastUsed := env.now })

/-- `Snapshots::find`; the iterator may be one to `end()`. -/
def findSnapshot (id : Nat) (num : UInt32) : Handler (Option Snapshot) :=
  Act.read fun d => d.snapshot id num

/-- `Snapshots::find`, where `end()` is illegal -/
def getSnapshot (id : Nat) (num : UInt32) : Handler Snapshot := do
  match ← findSnapshot id num with
  | none => throw .IllegalSnapshotException
  | some snapshot => pure snapshot

/-! ## Setters -/

/-- The setters of `Snapshot`: only the current snapshot has none. -/
def setField (id : Nat) (num : UInt32) (f : Snapshot → Snapshot) : Handler PUnit := do
  if num = 0 then throw .IllegalSnapshotException
  else Act.modify (Daemon.modSnapshot id num f)

def setUid (id : Nat) (num : UInt32) (val : UInt32) : Handler PUnit :=
  setField id num (Snapshot.setUid val)

def setDescription (id : Nat) (num : UInt32) (val : Str) : Handler PUnit :=
  setField id num (Snapshot.setDescription val)

def setCleanup (id : Nat) (num : UInt32) (val : Str) : Handler PUnit :=
  setField id num (Snapshot.setCleanup val)

/-- `setUserdata` checks keys and values after the snapshot. -/
def setUserdata (id : Nat) (num : UInt32) (val : StrMap) : Handler PUnit := do
  if num ≠ 0 ∧ !validUserdata val then throw .InvalidUserdataException
  else setField id num (Snapshot.setUserdata val)

/-- `Snapshot::flushInfo` writes the info where it is modified.  For the current system it throws,
from `openInfoDir`. -/
def flushInfo (env : Env) (id : Nat) (num : UInt32) (again : Bool) : Handler PUnit := do
  match ← findSnapshot id num with
  | none => pure ⟨⟩
  | some snapshot =>
    if snapshot.infoModified then do
      -- `openInfoDir`
      Act.throwIf snapshot.isCurrent .IllegalSnapshotException
      call env (.writeInfo num again)
      Act.modify (Daemon.modDisk id (Disk.write snapshot))
      Act.modify (Daemon.modSnapshot id num Snapshot.flushed)
    else pure ⟨⟩

/-! ## Creation -/

/-- The numbers that the loop of `nextNumber` tries. -/
def candidates (last : UInt32) (n : Nat) : List UInt32 :=
  (List.range n).map fun i => last + 1 + UInt32.ofNat i

/-- `Snapshots::nextNumber`: a number without snapshot and directory, for which it makes the
directory.  Of more candidates than directories one is free. -/
def nextNumber (env : Env) (id : Nat) : Handler UInt32 := do
  let snapshots ← Act.read (·.snapshots id)
  let m ← Act.read (·.metaSnapper id)
  let dirs := (m.map fun m => m.disk.dirs).getD []
  let last := (snapshots.getLast?.map Snapshot.num).getD 0
  -- a directory that is there already is passed over; the numbers wrap like an `unsigned int`
  match (candidates last (dirs.length + 1)).find? (· ∉ dirs) with
  | none => throw (.fault .IOErrorException)
  | some num => do
    call env .mkdir
    Act.modify (Daemon.modDisk id fun disk => { disk with dirs := disk.dirs ++ [num] })
    pure num

/-- Remove the directory that `nextNumber` made, if it is empty. -/
def removeDir (env : Env) (id : Nat) (num : UInt32) : Handler PUnit :=
  Act.modify (Daemon.modDisk id (Disk.removeDir num (env.stays num)))

/-- The info is written and the snapshot is put at the end of the list. -/
def Daemon.insert (id : Nat) (snapshot : Snapshot) : Daemon → Daemon :=
  Daemon.modMeta id fun m =>
    { m.setSnapshots (· ++ [snapshot.flushed]) with disk := m.disk.write snapshot }

/-- `Snapshots::createHelper` -/
def createHelper (env : Env) (id : Nat) (snapshot : Snapshot) : Handler PUnit := do
  Act.throwIf snapshot.isCurrent .IllegalSnapshotException
  match env.fault .createFilesystemSnapshot with
  -- only this exception of the file system is caught
  | some .CreateSnapshotFailedException => do
    removeDir env id snapshot.num
    throw (.fault .CreateSnapshotFailedException)
  | some fault => throw (.fault fault)
  | none =>
    match env.fault (.writeInfo snapshot.num false) with
    -- only this exception of `writeInfo` is caught; what undoes the creation may throw as well
    | some .IOErrorException => do
      call env .undoCreate
      removeDir env id snapshot.num
      throw (.fault .IOErrorException)
    | some fault => throw (.fault fault)
    | none => Act.modify (Daemon.insert id snapshot)

/-- What the three `create…Snapshot` have in common. -/
def createSnapshot (env : Env) (id : Nat) (type : SnapshotType) (preNum : UInt32)
    (description : Str) : Handler UInt32 := do
  let num ← nextNumber env id
  createHelper env id { Snapshot.new type num env.time with
    preNum := preNum, description := description, infoModified := true }
  pure num

/-- `Snapshots::createSingleSnapshot` -/
def createSingleSnapshot (env : Env) (id : Nat) (description : Str) : Handler UInt32 :=
  createSnapshot env id .SINGLE 0 description

/-- `Snapshots::createPreSnapshot` -/
def createPreSnapshot (env : Env) (id : Nat) (description : Str) : Handler UInt32 :=
  createSnapshot env id .PRE 0 description

/-- `findPost(pre) != end()` -/
def hasPost (snapshots : List Snapshot) (pre : Snapshot) : Bool :=
  snapshots.any fun s => s.type = .POST ∧ s.preNum = pre.num

/-- `Snapshots::createPostSnapshot`: the pre snapshot must be one, and have no post snapshot yet.
-/
def createPostSnapshot (env : Env) (id : Nat) (description : Str) (pre : Option Snapshot) :
    Handler UInt32 := do
  let snapshots ← Act.read (·.snapshots id)
  match pre with
  | none => throw .IllegalSnapshotException
  | some pre =>
    if pre.isCurrent ∨ pre.type ≠ .PRE ∨ hasPost snapshots pre then throw .IllegalSnapshotException
    else createSnapshot env id .POST pre.num description

/-! ## Deletion -/

/-- `Snapshots::read` no longer adds the snapshot. -/
def Daemon.loseInfo (id : Nat) (num : UInt32) : Daemon → Daemon :=
  Daemon.modDisk id fun disk => { disk with infos := disk.infos.filter (·.num ≠ num) }

/-- The directory, if it is empty, and the entry in the list are removed. -/
def Daemon.erase (id : Nat) (num : UInt32) (stays : Bool) : Daemon → Daemon :=
  Daemon.modMeta id fun m =>
    { m.setSnapshots (·.eraseP (·.num = num)) with disk := m.disk.removeDir num stays }

/-- `Snapshots::deleteSnapshot`.  The file system comes first; after it a failure leaves the
snapshot in the list, but `Snapshots::read` no longer adds it. -/
def deleteSnapshot (env : Env) (id : Nat) (snapshot : Option Snapshot) : Handler PUnit := do
  match snapshot with
  | none => throw .IllegalSnapshotException
  | some snapshot =>
    if snapshot.isCurrent then throw .IllegalSnapshotException
    else do
      call env (.deleteFilesystemSnapshot snapshot.num)
      Act.modify (Daemon.loseInfo id snapshot.num)
      -- the info directories of the others are opened here, and one that is missing is an error
      call env (.deleteInfo snapshot.num)
      Act.modify (Daemon.erase id snapshot.num (env.stays snapshot.num))

/-! ## Mounting -/

/-- What both directions begin with: not for the current snapshot, and see once whether the
snapshot is mounted. -/
def checkMounted (env : Env) (id : Nat) (configName : Str) (snapshot : Snapshot) :
    Handler PUnit := do
  if snapshot.isCurrent then throw .IllegalSnapshotException
  else do
    if snapshot.mountChecked then pure ⟨⟩
    else call env (.isSnapshotMounted configName snapshot.num)
    Act.modify (Daemon.modSnapshot id snapshot.num
      (Snapshot.checkMounted (env.isSnapshotMounted snapshot.num)))

/-- `Snapshot::mountFilesystemSnapshot` counts before it calls the file system, so that a mount
that fails stays counted. -/
def mountFilesystemSnapshot (env : Env) (id : Nat) (configName : Str) (snapshot : Snapshot)
    (userRequest : Bool) : Handler PUnit := do
  checkMounted env id configName snapshot
  Act.modify (Daemon.modSnapshot id snapshot.num (Snapshot.countMount userRequest))
  call env (.mountSnapshot snapshot.num)

/-- `Snapshot::umountFilesystemSnapshot`.  The count goes down without a check for zero, and the
file system is called only where the user gives the mount back and nobody else uses it. -/
def umountFilesystemSnapshot (env : Env) (id : Nat) (configName : Str) (snapshot : Snapshot)
    (userRequest : Bool) : Handler PUnit := do
  checkMounted env id configName snapshot
  Act.modify (Daemon.modSnapshot id snapshot.num (Snapshot.countUmount userRequest))
  match ← findSnapshot id snapshot.num with
  | none => pure ⟨⟩
  | some snapshot =>
    if userRequest ∧ snapshot.mountUseCount = 0 then call env (.umountSnapshot snapshot.num)
    else pure ⟨⟩

/-! ## The destructor -/

/-- In the destructor `flushInfo` throws. -/
def flushFails (env : Env) (snapshot : Snapshot) : Bool :=
  snapshot.infoModified &&
    (snapshot.isCurrent || (env.fault (.writeInfo snapshot.num true)).isSome)

/-- In the destructor `handleUmountFilesystemSnapshot`, which unmounts what is no longer used,
throws something else than the exception that is caught there. -/
def umountFails (env : Env) (snapshot : Snapshot) : Bool :=
  snapshot.mountChecked && !snapshot.mountUserRequest && snapshot.mountUseCount = 0 &&
    (env.fault (.umountSnapshot snapshot.num)).any (· ≠ .UmountSnapshotFailedException)

/-- `Snapper::~Snapper`, the loop over the snapshots: what it leaves on disk, and whether an
exception leaves it. -/
def destroySnapper (env : Env) : List Snapshot → Disk → Disk × Bool
  | [], disk => (disk, false)
  | snapshot :: snapshots, disk =>
    if flushFails env snapshot then (disk, true)
    else
      -- the info is written first, so that a failing unmount leaves it written
      let disk := if snapshot.infoModified then disk.write snapshot else disk
      if umountFails env snapshot then (disk, true) else destroySnapper env snapshots disk

end Snapper.Server
