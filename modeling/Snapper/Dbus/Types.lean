import Snapper.Compare.Status
import Snapper.Client.Cleanup
import Snapper.Server.Types
import Snapper.Dbus.Hoho
import Snapper.Dbus.Requests

/-!
# The values that server and client exchange

The server puts its own structures into a reply and the client extracts its own; the client
puts arguments into a request and the handler of the method extracts them.
-/

namespace Snapper.DBus

open General

/-! ## The server's operators -/

instance : TypeInfo ConfigInfo := ⟨str "(ssa{ss})"⟩

instance : TypeInfo Snapshot := ⟨str "(uquxussa{ss})"⟩

/-- `static_cast<dbus_uint16_t>` -/
def typeNumber : SnapshotType → UInt16
  | .SINGLE => 0
  | .PRE => 1
  | .POST => 2

/-- `static_cast<SnapshotType>`, for the numbers that stand for a type -/
def typeOfNumber (tmp : UInt16) : SnapshotType :=
  if tmp = 0 then .SINGLE else if tmp = 1 then .PRE else .POST

instance : Put SnapshotType := ⟨fun data => put (typeNumber data)⟩

instance : Put ConfigInfo where
  put data := do
    openContainer .struct
    put data.configName
    put data.subvolume
    put data.raw
    closeContainer

instance : Put Snapshot where
  put data := do
    openContainer .struct
    put data.num
    put data.type
    put data.preNum
    put data.date
    put data.uid
    put data.description
    put data.cleanup
    put data.userdata
    closeContainer

/-- A `File` as it is sent: its name and its status from pre to post. -/
structure SentFile where
  name : Str
  preToPostStatus : UInt32

instance : TypeInfo SentFile := ⟨str "(su)"⟩

instance : Put SentFile where
  put data := do
    openContainer .struct
    put data.name
    put data.preToPostStatus
    closeContainer

/-! ## The client's operators -/

/-- A config as the client gets it. -/
structure XConfigInfo where
  configName : Str
  subvolume : Str
  raw : StrMap

instance : TypeInfo XConfigInfo := ⟨str "(ssa{ss})"⟩

instance : TypeInfo XSnapshot := ⟨str "(uquxussa{ss})"⟩

instance : TypeInfo XFile := ⟨str "(su)"⟩

instance : Extract SnapshotType where
  extract := do
    let tmp : UInt16 ← extract
    pure (typeOfNumber tmp)

instance : Extract XConfigInfo where
  extract := do
    Act.modify Hihi.openRecurse
    let configName : Str ← extract
    let subvolume : Str ← extract
    let raw : StrMap ← extract
    Act.modify Hihi.closeRecurse
    pure { configName, subvolume, raw }

instance : Extract XSnapshot where
  extract := do
    Act.modify Hihi.openRecurse
    let num : UInt32 ← extract
    let type : SnapshotType ← extract
    let preNum : UInt32 ← extract
    let date : Int64 ← extract
    let uid : UInt32 ← extract
    let description : Str ← extract
    let cleanup : Str ← extract
    let userdata : StrMap ← extract
    Act.modify Hihi.closeRecurse
    pure { type, num := num.toNat, date := date.toInt, uid := uid.toNat,
           preNum := preNum.toNat, description, cleanup, userdata }

instance : Extract XFile where
  extract := do
    Act.modify Hihi.openRecurse
    let name : Str ← extract
    let status : UInt32 ← extract
    Act.modify Hihi.closeRecurse
    pure { name, status := status.toNat }

/-! ## Requests -/

/-- The requests that the client makes, with the arguments of the function of each. -/
inductive Command where
  | listXconfigs
  | getXconfig (configName : Str)
  | createXconfig (configName subvolume fstype templateName : Str)
  | deleteXconfig (configName : Str)
  | listXsnapshots (configName : Str)
  | getXsnapshot (configName : Str) (num : UInt32)
  | setXsnapshot (configName : Str) (num : UInt32) (data : XSnapshot)
  | createSingleXsnapshot (configName description cleanup : Str) (userdata : StrMap)
  | createPreXsnapshot (configName description cleanup : Str) (userdata : StrMap)
  | createPostXsnapshot (configName : Str) (prenum : UInt32) (description cleanup : Str)
      (userdata : StrMap)
  | deleteXsnapshots (configName : Str) (nums : List UInt32)
  | mountXsnapshots (configName : Str) (num : UInt32) (userRequest : Bool)
  | umountXsnapshots (configName : Str) (num : UInt32) (userRequest : Bool)
  | getXmountPoint (configName : Str) (num : UInt32)
  | createXcomparison (configName : Str) (number1 number2 : UInt32)
  | getXfiles (configName : Str) (number1 number2 : UInt32)
  | xdebug

namespace Command

/-- The method that the request calls. -/
def method : Command → Method
  | listXconfigs => .ListConfigs
  | getXconfig .. => .GetConfig
  | createXconfig .. => .CreateConfig
  | deleteXconfig .. => .DeleteConfig
  | listXsnapshots .. => .ListSnapshots
  | getXsnapshot .. => .GetSnapshot
  | setXsnapshot .. => .SetSnapshot
  | createSingleXsnapshot .. => .CreateSingleSnapshot
  | createPreXsnapshot .. => .CreatePreSnapshot
  | createPostXsnapshot .. => .CreatePostSnapshot
  | deleteXsnapshots .. => .DeleteSnapshots
  | mountXsnapshots .. => .MountSnapshot
  | umountXsnapshots .. => .UmountSnapshot
  | getXmountPoint .. => .GetMountPoint
  | createXcomparison .. => .CreateComparison
  | getXfiles .. => .GetFiles
  | xdebug => .Debug

/-- What the request appends to its message. -/
def append : Command → Encode PUnit
  | listXconfigs => pure ⟨⟩
  | getXconfig configName => put configName
  | createXconfig configName subvolume fstype templateName => do
    put configName
    put subvolume
    put fstype
    put templateName
  | deleteXconfig configName => put configName
  | listXsnapshots configName => put configName
  | getXsnapshot configName num => do
    put configName
    put num
  | setXsnapshot configName num data => do
    put configName
    put num
    put data.description
    put data.cleanup
    put data.userdata
  | createSingleXsnapshot configName description cleanup userdata => do
    put configName
    put description
    put cleanup
    put userdata
  | createPreXsnapshot configName description cleanup userdata => do
    put configName
    put description
    put cleanup
    put userdata
  | createPostXsnapshot configName prenum description cleanup userdata => do
    put configName
    put prenum
    put description
    put cleanup
    put userdata
  | deleteXsnapshots configName nums => do
    put configName
    put nums
  | mountXsnapshots configName num userRequest => do
    put configName
    put num
    put userRequest
  | umountXsnapshots configName num userRequest => do
    put configName
    put num
    put userRequest
  | getXmountPoint configName num => do
    put configName
    put num
  | createXcomparison configName number1 number2 => do
    put configName
    put number1
    put number2
  | getXfiles configName number1 number2 => do
    put configName
    put number1
    put number2
  | xdebug => pure ⟨⟩

end Command

end Snapper.DBus
