import Snapper.Comparison.Filelist
import Snapper.System.Calls

/-!
# Undoing the change of one file

The methods of `File` that bring a file of the running system back to what it was in the
pre snapshot.  The snapshot is read-only and is the compared tree; every directory above a
reported path is a directory of that tree, so its files are found without following a
symlink.
-/

namespace Snapper

open General

/-- `class FilePaths`, with the tree of the pre snapshot for its path. -/
structure FilePaths where
  pre : Tree
  systemPath : Str

namespace File

variable (paths : FilePaths) (file : File)

/-- `getAbsolutePath(LOC_SYSTEM)` -/
def systemPath : Str :=
  if paths.systemPath = [slash] then file.name else paths.systemPath ++ file.name

/-- `lstat(getAbsolutePath(LOC_PRE))` -/
def lstatPre : Cmd World (Except Errno Inode) :=
  syscall fun w =>
    match paths.pre.lookup (components file.name) with
    | none => .error .enoent
    | some f => .ok (f, w.fs)

/-- Read the file of the pre snapshot; `read` says what there is to read. -/
def readPre (read : Inode → Option Str) : Cmd World (Except Errno Str) :=
  syscall fun w =>
    match (paths.pre.lookup (components file.name)).bind read with
    | none => .error .eio
    | some bs => .ok (bs, w.fs)

/-- `open(getAbsolutePath(LOC_PRE), O_RDONLY)`, with what can be read from the descriptor. -/
def openPre : Cmd World (Except Errno Str) := file.readPre paths Inode.data

/-- `readlink(getAbsolutePath(LOC_PRE), tmp)`: `tmp` stays empty when it fails. -/
def readlinkPre : Cmd World Str := do
  match ← file.readPre paths readlink with
  | .error _ => return []
  | .ok tmp => return tmp

end File

/-! ## Helpers -/

/-- `path.substr(0, path.rfind('/'))` -/
def leadingPath (path : Str) : Option Str :=
  if slash ∈ path then some (path.reverse.dropWhile (· ≠ slash)).tail.reverse else none

/-- The leading path is shorter, so `create_parent_directories` ends. -/
theorem leadingPath_length {path leading : Str} (h : leadingPath path = some leading) :
    leading.length < path.length := by
  unfold leadingPath at h
  split_ifs at h with hmem
  cases h
  have hdrop := (List.dropWhile_sublist (· ≠ slash) (l := path.reverse)).length_le
  have hpos : 0 < path.length := List.length_pos_of_mem hmem
  rw [List.length_reverse] at hdrop
  rw [List.length_reverse, List.length_tail]
  omega

/-- `checkDir` -/
def checkDir (path : Str) : Cmd World Bool := do
  match ← stat path with
  | .error _ => return false
  | .ok fs => return fs.fmt = .dir

/-- `File::createParentDirectories` -/
def createParentDirectories (path : Str) : Cmd World Bool :=
  match h : leadingPath path with
  | none => return true
  | some leading => do
    match ← stat leading with
    | .ok fs => return fs.fmt = .dir
    | .error _ =>
      have : leading.length < path.length := leadingPath_length h
      if !(← createParentDirectories leading) then return false
      if failed (← mkdir leading 0o777) then return false
      return true
termination_by path.length

/-- `clonefile`; `src` is what the source descriptor holds. -/
def clonefile (src : Str) (fd : Path) : Cmd World Bool := do
  return !failed (← ioctlClone fd src)

/-- `copyfile`, with `src` left to read. -/
def copyfile (src : Str) (fd : Path) : Cmd World Bool := do
  match ← sendfile fd src 0xffff with
  | .error _ => return false
  | .ok _ =>
    if _h : src = [] then return true
    else copyfile (src.drop 0xffff) fd
termination_by src.length
decreasing_by
  rw [List.length_drop]
  have := List.length_pos_iff.mpr _h
  omega

namespace File

variable (paths : FilePaths) (file : File)

/-! ## Creating -/

/-- `File::createDirectory` -/
def createDirectory (mode : BitVec 12) (owner group : Nat) : Cmd World Bool := do
  let path := file.systemPath paths
  -- the only failure of `mkdir` that ends the call is that something else is there
  let r ← mkdir path 0
  let blocked ← Cmd.when (r = .error .eexist) (do return !(← checkDir path)) false
  if blocked then return false
  if failed (← chmod path mode) then return false
  if failed (← chown path owner group) then return false
  return true

/-- `File::createFile`: cloned if the file system can, copied otherwise. -/
def createFile (mode : BitVec 12) (owner group : Nat) : Cmd World Bool := do
  match ← file.openPre paths with
  | .error _ => return false
  | .ok src =>
    match ← openTrunc (file.systemPath paths) mode with
    | .error _ => return false
    | .ok fd =>
      if failed (← fchmod fd mode) then return false
      if failed (← fchown fd owner group) then return false
      if ← clonefile src fd then return true
      copyfile src fd

/-- `File::createLink`: the answer of `readlink` is not looked at. -/
def createLink (owner group : Nat) : Cmd World Bool := do
  let path := file.systemPath paths
  let tmp ← file.readlinkPre paths
  if failed (← symlink tmp path) then return false
  if failed (← lchown path owner group) then return false
  return true

/-- `File::createAllTypes`: only directories, files and links are made. -/
def createAllTypes : Cmd World Bool := do
  match ← file.lstatPre paths with
  | .error _ => return false
  | .ok fs =>
    if !(← createParentDirectories (file.systemPath paths)) then return false
    match fs.fmt with
    | .dir => file.createDirectory paths fs.perm fs.uid fs.gid
    | .reg => file.createFile paths fs.perm fs.uid fs.gid
    | .lnk => file.createLink paths fs.uid fs.gid
    | _ => return true

/-! ## Deleting -/

/-- `File::deleteAllTypes`: what is not there counts as deleted. -/
def deleteAllTypes : Cmd World Bool := do
  let path := file.systemPath paths
  match ← lstat path with
  | .ok fs =>
    match fs.fmt with
    | .dir => return !failed (← rmdir path)
    | .reg | .lnk => return !failed (← unlink path)
    | _ => return true
  | .error e => return e = .enoent

/-! ## Modifying -/

/-- The part of `modifyAllTypes` for a changed content. -/
def modifyContent (fs : Inode) : Cmd World Bool := do
  match fs.fmt with
  | .reg =>
    if !(← file.deleteAllTypes paths) then return false
    file.createFile paths fs.perm fs.uid fs.gid
  | .lnk =>
    if !(← file.deleteAllTypes paths) then return false
    file.createLink paths fs.uid fs.gid
  | _ => return true

/-- `File::modifyAllTypes`: content, mode and owner in this order, each if the status says so. -/
def modifyAllTypes : Cmd World Bool := do
  let path := file.systemPath paths
  let status := file.preToPostStatus
  match ← file.lstatPre paths with
  | .error _ => return false
  | .ok fs =>
    if !(← createParentDirectories path) then return false
    let done ← Cmd.when status.content (file.modifyContent paths fs) true
    if !done then return false
    let r ← Cmd.when status.permissions (chmod path fs.perm) (.ok ())
    if failed r then return false
    let r ← Cmd.when (status.user || status.group) (lchown path fs.uid fs.gid) (.ok ())
    if failed r then return false
    return true

/-! ## Undoing -/

/-- `File::doUndo`: the result is `false` when one of its parts failed. -/
def doUndo : Cmd World Bool := do
  let status := file.preToPostStatus
  let deleted ← Cmd.when (status.created || status.type) (file.deleteAllTypes paths) true
  let created ← Cmd.when (status.deleted || status.type) (file.createAllTypes paths) true
  let modified ← Cmd.when status.modified (file.modifyAllTypes paths) true
  return deleted && created && modified

end File

/-! ## Undoing a comparison -/

/-- `enum Action` -/
inductive Action where
  | create | modify | delete
  deriving DecidableEq, Repr

/-- `File::getAction` -/
def File.getAction (file : File) : Action :=
  if file.preToPostStatus = .CREATED then .delete
  else if file.preToPostStatus = .DELETED then .create
  else .modify

/-- `struct UndoStep` -/
structure UndoStep where
  name : Str
  action : Action
  deriving DecidableEq, Repr

/-- `Files::getUndoSteps`: the created files from the last one back, then the others from
the first one on. -/
def getUndoSteps (files : List File) : List UndoStep :=
  ((files.reverse.filter fun file => file.undo ∧ file.preToPostStatus = .CREATED) ++
    files.filter fun file => file.undo ∧ file.preToPostStatus ≠ .CREATED).map
    fun file => { name := file.name, action := file.getAction }

/-- `Files::find`: `lower_bound` is the first entry whose name is not less. -/
def findFile (files : List File) (name : Str) : Option File :=
  match files.find? fun file => ¬file.name < name with
  | none => none
  | some file => if file.name = name then some file else none

/-- `Files::doUndoStep` -/
def doUndoStep (paths : FilePaths) (files : List File) (step : UndoStep) : Cmd World Bool :=
  match findFile files step.name with
  | none => return false
  | some file => file.doUndo paths

/-- The loop over the undo steps, with the number of failed ones. -/
def doUndoSteps (paths : FilePaths) (files : List File) : List UndoStep → Cmd World Nat
  | [] => return 0
  | step :: steps => do
    let ok ← doUndoStep paths files step
    let errors ← doUndoSteps paths files steps
    return if ok then errors else errors + 1

end Snapper
