import Mathlib.Logic.Function.Basic
import Snapper.Base.AsciiFile
import Snapper.Base.Number
import Snapper.Compare.CmpDirs

/-!
# Comparisons and their cached file lists

A comparison of two snapshots that are not the current system is written to
`filelist-N.txt` in the info directory of the snapshot with the larger number, from
the point of view of the smaller one, and read from there the next time.

Reading and writing the info directories does not fail here; a file list may be missing.
-/

namespace Snapper

/-- `class File`: an entry of a comparison. -/
structure File where
  name : Str
  preToPostStatus : Status
  undo : Bool := false
  deriving DecidableEq, Repr

/-- The exceptions of `Comparison`. -/
inductive ComparisonError where
  | illegalSnapshot
  deriving DecidableEq, Repr

/-- `Files::sort`.  In which order `std::sort` leaves entries of one name is not specified;
a comparison has at most one. -/
def sortFiles (files : List File) : List File :=
  files.insertionSort fun a b => a.name ≤ b.name

/-- `Files::filter`; `fnmatch` is that of the C library. -/
def filterFiles (fnmatch : Str → Str → Bool) (ignorePatterns : List Str) (files : List File) :
    List File :=
  files.filter fun file => !ignorePatterns.any fun pattern => fnmatch pattern file.name

/-- The entries are in ascending order of their names. -/
def FilesSorted (files : List File) : Prop := files.Pairwise fun a b => a.name ≤ b.name

instance (files : List File) : Decidable (FilesSorted files) :=
  inferInstanceAs (Decidable (List.Pairwise _ _))

/-- What a list of entries says about the two snapshots. -/
def entries (files : List File) : List Report :=
  files.map fun file => (file.name, file.preToPostStatus)

/-! ## The text of a file list -/

/-- The record of an entry: `"%s %s\n"` without the newline. -/
def fileRecord (invert : Bool) (file : File) : Str :=
  let status := file.preToPostStatus
  let status := if invert then status.invert else status
  cstr status.toStr ++ space :: cstr file.name

/-- What `Comparison::save` writes. -/
def saveText (invert : Bool) (files : List File) : Str :=
  files.flatMap fun file => putline (fileRecord invert file)

/-- One round of the loop of `Comparison::load`; a line without a space is skipped. -/
def parseRecord (invert : Bool) (line : Str) : Option File :=
  match line.idxOf? space with
  | none => none
  | some pos =>
    let status := Status.ofStr (line.take pos)
    let name := line.drop (pos + 1)
    let status := if invert then status.invert else status
    some { name := name, preToPostStatus := status }

/-- What `Comparison::load` makes of a file list, before sorting. -/
def loadText (invert : Bool) (text : Str) : List File :=
  (getlines text).filterMap (parseRecord invert)

/-! ## The info directories -/

/-- The files in the info directories, by snapshot number and name. -/
abbrev Infos := Nat × Str → Option Str

/-- `"filelist-" + decString(num) + ".txt"` -/
def filelistName (num : Nat) : Str := str "filelist-" ++ decString num ++ str ".txt"

/-- `is_filelist_file` for a regular file: `fnmatch("filelist-*.txt", name, 0) == 0` -/
def isFilelistFile (name : Str) : Bool :=
  str "filelist-" <+: name ∧ str ".txt" <:+ name.drop (str "filelist-").length

/-- `"info.xml"` -/
def infoName : Str := str "info.xml"

/-- A file list is not the `info.xml`: the two names differ in the first letter. -/
theorem filelistName_ne_infoName (num : Nat) : filelistName num ≠ infoName := by
  have hfile : (filelistName num).head? = some 102 := rfl
  have hinfo : infoName.head? = some 105 := rfl
  intro h
  rw [h, hinfo] at hfile
  cases hfile

/-- Where the file list of two snapshots is kept: in the info directory of the larger
number, under the smaller one. -/
def filelistKey (num1 num2 : Nat) : Nat × Str :=
  let invert : Bool := num1 > num2
  if invert then (num1, filelistName num2) else (num2, filelistName num1)

/-- `isCurrent`: the current system has number 0. -/
def isCurrent (num : Nat) : Bool := num = 0

/-- `Comparison::save`; the temporary file it writes is renamed to the file list. -/
def save (num1 num2 : Nat) (files : List File) (infos : Infos) : Except ComparisonError Infos :=
  if isCurrent num1 || isCurrent num2 then .error .illegalSnapshot
  else
    .ok (Function.update infos (filelistKey num1 num2) (some (saveText (num1 > num2) files)))

/-- `Comparison::load`; `none` when there is no file list. -/
def load (num1 num2 : Nat) (infos : Infos) : Except ComparisonError (Option (List File)) :=
  if isCurrent num1 || isCurrent num2 then .error .illegalSnapshot
  else
    match infos (filelistKey num1 num2) with
    | none => .ok none
    | some text => .ok (some (sortFiles (loadText (num1 > num2) text)))

/-! ## Comparisons -/

/-- What a comparison reads of a snapshot. -/
structure ComparedSnapshot where
  num : Nat
  dir : DirTree

/-- The calls of the callback of `create`, which appends an entry for each. -/
def appendReports (reports : List Report) : List File :=
  reports.map fun (name, status) => { name := name, preToPostStatus := status }

/-- The sorted list of the differences of two trees. -/
def compareTrees (t1 t2 : Tree) : List File := sortFiles (appendReports (cmpDirs t1 t2))

/-- `Comparison::create` -/
def create (snapshot1 snapshot2 : ComparedSnapshot) : List File :=
  compareTrees snapshot1.dir.root snapshot2.dir.root

/-- The constructor of `Comparison`, for two snapshots of the list: the files of the new
comparison, and the info directories after it. -/
def newComparison (fnmatch : Str → Str → Bool) (ignorePatterns : List Str)
    (snapshot1 snapshot2 : ComparedSnapshot) (infos : Infos) :
    Except ComparisonError (List File × Infos) := do
  if snapshot1.num = snapshot2.num then throw .illegalSnapshot
  -- `initialize`
  if isCurrent snapshot1.num || isCurrent snapshot2.num then
    return (filterFiles fnmatch ignorePatterns (create snapshot1 snapshot2), infos)
  match ← load snapshot1.num snapshot2.num infos with
  | some files => return (filterFiles fnmatch ignorePatterns files, infos)
  | none =>
    let files := create snapshot1 snapshot2
    let infos ← save snapshot1.num snapshot2.num files infos
    return (filterFiles fnmatch ignorePatterns files, infos)

end Snapper
