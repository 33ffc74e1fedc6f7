import Snapper.Client.Types

/-!
# What the server keeps of configs and snapshots

The numbers are the machine's: a snapshot number, a uid and a use count are `unsigned int`,
a date is a `time_t`.
-/

namespace Snapper

/-- `ConfigInfo` with the values of the config file. -/
structure ConfigInfo where
  configName : Str
  subvolume : Str
  raw : StrMap

/-- `Snapshot` with what the info file keeps and what only the daemon knows. -/
structure Snapshot where
  type : SnapshotType
  num : UInt32
  date : Int64
  uid : UInt32
  preNum : UInt32
  description : Str
  cleanup : Str
  userdata : StrMap
  infoModified : Bool
  mountChecked : Bool
  mountUserRequest : Bool
  mountUseCount : UInt32
  deriving DecidableEq

/-- `Snapshot::Snapshot` -/
def Snapshot.new (type : SnapshotType) (num : UInt32) (date : Int64) : Snapshot where
  type := type
  num := num
  date := date
  uid := 0
  preNum := 0
  description := []
  cleanup := []
  userdata := .empty
  infoModified := false
  mountChecked := false
  mountUserRequest := false
  mountUseCount := 0

/-- The snapshot that stands for the current system. -/
def Snapshot.current : Snapshot :=
  { Snapshot.new .SINGLE 0 (-1) with description := str "current" }

def Snapshot.isCurrent (snapshot : Snapshot) : Bool := snapshot.num = 0

end Snapper
