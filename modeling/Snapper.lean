import Snapper.Base.AsciiFile
import Snapper.Base.Bytes
import Snapper.Base.Number
import Snapper.Btrfs.Commands
import Snapper.Btrfs.Faithful
import Snapper.Btrfs.FastPath
import Snapper.Btrfs.Flat
import Snapper.Btrfs.Lands
import Snapper.Btrfs.Map
import Snapper.Btrfs.Merge
import Snapper.Btrfs.Phantom
import Snapper.Btrfs.Rename
import Snapper.Btrfs.Renamed
import Snapper.Btrfs.Report
import Snapper.Btrfs.Special
import Snapper.Btrfs.StreamProcessor
import Snapper.Btrfs.Tracks
import Snapper.Client.Cleanup
import Snapper.Client.CleanupAlone
import Snapper.Client.CleanupRun
import Snapper.Client.CleanupSafe
import Snapper.Client.CleanupTwice
import Snapper.Client.DeleteRange
import Snapper.Client.EmptyPrePost
import Snapper.Client.FixedOffset
import Snapper.Client.Timeline
import Snapper.Client.Turn
import Snapper.Client.Types
import Snapper.Client.Userdata
import Snapper.Command.Output
import Snapper.Command.Quote
import Snapper.Compare.Blocks
import Snapper.Compare.CmpDirs
import Snapper.Compare.CmpFiles
import Snapper.Compare.Devices
import Snapper.Compare.Difference
import Snapper.Compare.Entries
import Snapper.Compare.Status
import Snapper.Compare.Symmetry
import Snapper.Compare.Tree
import Snapper.Comparison.Bridge
import Snapper.Comparison.Cached
import Snapper.Comparison.Filelist
import Snapper.Comparison.FullDisk
import Snapper.Comparison.Reuse
import Snapper.Comparison.RoundTrip
import Snapper.Config.Configs
import Snapper.Config.Failed
import Snapper.Config.Fstype
import Snapper.Config.Readers
import Snapper.Config.Registry
import Snapper.Config.Sysconfig
import Snapper.Dbus.Codec
import Snapper.Dbus.Escapes
import Snapper.Dbus.Hihi
import Snapper.Dbus.Hoho
import Snapper.Dbus.Message
import Snapper.Dbus.Reading
import Snapper.Dbus.Requests
import Snapper.Dbus.Types
import Snapper.General.Act
import Snapper.General.Best
import Snapper.General.Calendar
import Snapper.General.Cmd
import Snapper.General.Fair
import Snapper.General.Keyed
import Snapper.General.MergeJoin
import Snapper.General.Output
import Snapper.General.Replace
import Snapper.General.Run
import Snapper.General.Shell
import Snapper.General.Slots
import Snapper.General.SortedMap
import Snapper.General.Trie
import Snapper.General.TrieNodes
import Snapper.Info.Bridge
import Snapper.Info.Creating
import Snapper.Info.Datetime
import Snapper.Info.Deleting
import Snapper.Info.Info
import Snapper.Info.Loading
import Snapper.Info.Xml
import Snapper.Lvm.Names
import Snapper.Server.Access
import Snapper.Server.Answered
import Snapper.Server.Balance
import Snapper.Server.Change
import Snapper.Server.Coherent
import Snapper.Server.CoherentSteps
import Snapper.Server.Constructor
import Snapper.Server.Counted
import Snapper.Server.Counting
import Snapper.Server.Creating
import Snapper.Server.Current
import Snapper.Server.Dispatch
import Snapper.Server.Drained
import Snapper.Server.Durable
import Snapper.Server.Edits
import Snapper.Server.Files
import Snapper.Server.Finding
import Snapper.Server.Handlers
import Snapper.Server.Idle
import Snapper.Server.Links
import Snapper.Server.Locks
import Snapper.Server.Looking
import Snapper.Server.Mounted
import Snapper.Server.Moves
import Snapper.Server.Progress
import Snapper.Server.Refused
import Snapper.Server.Replies
import Snapper.Server.Restart
import Snapper.Server.SetSnapshot
import Snapper.Server.Signals
import Snapper.Server.Snapshots
import Snapper.Server.State
import Snapper.Server.Stays
import Snapper.Server.Steps
import Snapper.Server.Stored
import Snapper.Server.Tally
import Snapper.Server.Touches
import Snapper.Server.Types
import Snapper.Server.Unheard
import Snapper.System.Calls
import Snapper.System.Found
import Snapper.System.Fs
import Snapper.System.Literal
import Snapper.System.Outcome
import Snapper.System.Resolve
import Snapper.Undo.Effect
import Snapper.Undo.File
import Snapper.Undo.Frame
import Snapper.Undo.Halfway
import Snapper.Undo.Linked
import Snapper.Undo.Mounted
import Snapper.Undo.Parents
import Snapper.Undo.Plain
import Snapper.Undo.Rights
import Snapper.Undo.Run
import Snapper.Undo.Selected
import Snapper.Undo.Step
import Snapper.Undo.Steps
import Snapper.Undo.Structure
import Snapper.Undo.Success
import Snapper.Undo.Sure
import Snapper.Undo.SystemStatus
import Snapper.Undo.Targets
import Snapper.Undo.Unnoticed
