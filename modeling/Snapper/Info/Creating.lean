import Snapper.Comparison.Filelist
import Snapper.General.Act
import Snapper.General.SortedMap
import Snapper.Info.Info
import Snapper.Server.Snapshots

/-!
# Snapshots that cannot be created

`Snapshots::createHelper` makes the snapshot of the file system and writes its `info.xml`, and
cleans up for one exception each: for `CreateSnapshotFailedException` after the first, for
`IOErrorException` after the second.  What it removes with the directory must be empty.

## Main results

- `createHelper_stopped`: what each failing call leaves behind
- `fails_cleanly_iff`: after which failures nothing is left
-/

namespace Snapper.Creation

open General

/-! ## Info directories -/

/-- An info directory: whether the subvolume `snapshot` is in it, and its files.  A document that is
not written, or only in part, is `none`. -/
structure InfoDir where
  snapshot : Bool
  files : SortedMap Str (Option XmlNode)

/-- A directory that `mkdir` has made -/
def InfoDir.new : InfoDir := ⟨false, .empty⟩

/-- Whether `rmdir` removes the directory. -/
def InfoDir.isEmpty (dir : InfoDir) : Bool := !dir.snapshot && dir.files.entries.isEmpty

/-- The list of the snapshots, and the info directories on disk. -/
structure Snapshots where
  entries : List Snapshot
  infoDirs : SortedMap UInt32 InfoDir

/-- The calls that can fail while a snapshot is created, in their order. -/
inductive Call where
  /-- in `nextNumber` -/
  | openInfosDir
  | mkdir
  /-- in `Btrfs::createSnapshot` -/
  | openSubvolumeDir
  | openInfoDir
  | createSnapshot
  /-- in `writeInfo` -/
  | openOwnInfoDir
  | mktemp
  /-- in `XmlFile::save` -/
  | fdopen
  | xmlDocFormatDump
  | rename
  deriving DecidableEq, Repr

/-- The answers of the system -/
structure Env where
  fails : Call → Bool
  time : Int64
  datetime : Int64 → Str
  /-- what `mktemp` puts for `XXXXXX` -/
  unique : Str

/-- What creating a snapshot can throw. -/
inductive CreateError where
  | IOErrorException
  | CreateSnapshotFailedException
  | IllegalSnapshotException
  deriving DecidableEq, Repr

abbrev Create := Act Snapshots CreateError

/-- A call that can fail -/
def check (env : Env) (call : Call) (e : CreateError) : Create PUnit :=
  Act.throwIf (env.fails call) e

/-- Change the directory of a number. -/
def Snapshots.modDir (num : UInt32) (f : InfoDir → InfoDir) (snapshots : Snapshots) : Snapshots :=
  match snapshots.infoDirs.find num with
  | none => snapshots
  | some dir => { snapshots with infoDirs := snapshots.infoDirs.set num (f dir) }

/-- `infos_dir.unlink(decString(num), AT_REMOVEDIR)`, with its result ignored -/
def Snapshots.removeDir (num : UInt32) (snapshots : Snapshots) : Snapshots :=
  if (snapshots.infoDirs.find num).any InfoDir.isEmpty then
    { snapshots with infoDirs := snapshots.infoDirs.erase num }
  else snapshots

/-! ## The number -/

/-- `Btrfs::checkSnapshot` -/
def Snapshots.checkSnapshot (snapshots : Snapshots) (num : UInt32) : Bool :=
  (snapshots.infoDirs.find num).any InfoDir.snapshot

/-- The number that the loop of `nextNumber` stops at: `mkdir` finds no directory.  Of more
candidates than directories one is free. -/
def Snapshots.freeNumber (snapshots : Snapshots) : Option UInt32 :=
  let last := (snapshots.entries.getLast?.map Snapshot.num).getD 0
  (Server.candidates last (snapshots.infoDirs.entries.length + 1)).find? fun num =>
    !snapshots.checkSnapshot num && (snapshots.infoDirs.find num).isNone

/-- `Snapshots::nextNumber` -/
def nextNumber (env : Env) : Create UInt32 := do
  check env .openInfosDir .IOErrorException
  match ← Act.read Snapshots.freeNumber with
  | none => throw .IOErrorException
  | some num =>
    check env .mkdir .IOErrorException
    Act.modify fun snapshots =>
      { snapshots with infoDirs := snapshots.infoDirs.set num InfoDir.new }
    return num

/-! ## The two phases -/

/-- `Snapshot::createFilesystemSnapshot`, with `Btrfs::createSnapshot` -/
def createFilesystemSnapshot (env : Env) (snapshot : Snapshot) : Create PUnit := do
  Act.throwIf snapshot.isCurrent .IllegalSnapshotException
  check env .openSubvolumeDir .IOErrorException
  check env .openInfoDir .IOErrorException
  check env .createSnapshot .CreateSnapshotFailedException
  Act.modify (Snapshots.modDir snapshot.num fun dir => { dir with snapshot := true })

/-- `Snapshot::deleteFilesystemSnapshot`, which succeeds -/
def deleteFilesystemSnapshot (snapshot : Snapshot) : Create PUnit :=
  Act.modify (Snapshots.modDir snapshot.num fun dir => { dir with snapshot := false })

/-- `file_name + ".tmp-XXXXXX"` of `mktemp` -/
def tmpName (env : Env) : Str := infoName ++ str ".tmp-" ++ env.unique

/-- Put a file into the directory of a number. -/
def putFile (num : UInt32) (name : Str) (content : Option XmlNode) : Create PUnit :=
  Act.modify (Snapshots.modDir num fun dir => { dir with files := dir.files.set name content })

/-- `Snapshot::writeInfo` -/
def writeInfo (env : Env) (snapshot : Snapshot) : Create PUnit := do
  let xml := snapshot.writeInfo env.datetime
  check env .openOwnInfoDir .IOErrorException
  -- without a file `fdopen` fails for the descriptor -1
  check env .mktemp .IOErrorException
  putFile snapshot.num (tmpName env) none
  check env .fdopen .IOErrorException
  check env .xmlDocFormatDump .IOErrorException
  putFile snapshot.num (tmpName env) (some xml)
  check env .rename .IOErrorException
  Act.modify (Snapshots.modDir snapshot.num fun dir =>
    { dir with files := (dir.files.erase (tmpName env)).set infoName (some xml) })

/-- `Snapshot::flushInfo`; `snapshot` is the copy that goes into the list. -/
def flushInfo (env : Env) (snapshot : Snapshot) : Create Snapshot := do
  if snapshot.infoModified then
    writeInfo env snapshot
    return snapshot.flushed
  else return snapshot

/-- `Snapshots::createHelper` -/
def createHelper (env : Env) (snapshot : Snapshot) : Create PUnit := do
  try createFilesystemSnapshot env snapshot
  catch e =>
    if e = .CreateSnapshotFailedException then
      Act.modify (Snapshots.removeDir snapshot.num)
    throw e
  let snapshot ← try flushInfo env snapshot
    catch e =>
      if e = .IOErrorException then
        deleteFilesystemSnapshot snapshot
        Act.modify (Snapshots.removeDir snapshot.num)
      throw e
  Act.modify fun snapshots => { snapshots with entries := snapshots.entries ++ [snapshot] }

/-- What the three functions have in common. -/
def createSnapshot (env : Env) (type : SnapshotType) (preNum : UInt32) (description : Str) :
    Create PUnit := do
  let num ← nextNumber env
  createHelper env { Snapshot.new type num env.time with
    preNum := preNum, description := description, infoModified := true }

/-- `Snapshots::createSingleSnapshot` -/
def createSingleSnapshot (env : Env) (description : Str) : Create PUnit :=
  createSnapshot env .SINGLE 0 description

/-- `Snapshots::createPreSnapshot` -/
def createPreSnapshot (env : Env) (description : Str) : Create PUnit :=
  createSnapshot env .PRE 0 description

/-- The snapshot is refused as the pre snapshot; `none` is `end()`. -/
def refuses (pre : Option Snapshot) (snapshots : Snapshots) : Bool :=
  match pre with
  | none => true
  | some pre => pre.isCurrent || pre.type ≠ .PRE || Server.hasPost snapshots.entries pre

/-- `Snapshots::createPostSnapshot`: the pre snapshot is checked before a number is taken. -/
def createPostSnapshot (env : Env) (description : Str) (pre : Option Snapshot) : Create PUnit := do
  Act.throwIf (← Act.read (refuses pre)) .IllegalSnapshotException
  createSnapshot env .POST ((pre.map Snapshot.num).getD 0) description

/-- The three functions -/
inductive Request where
  | single (description : Str)
  | pre (description : Str)
  | post (description : Str) (pre : Option Snapshot)

def Request.create (env : Env) : Request → Create PUnit
  | .single description => createSingleSnapshot env description
  | .pre description => createPreSnapshot env description
  | .post description iterator => createPostSnapshot env description iterator

/-! ## Directories after a change -/

variable {env : Env} {st : Snapshots} {s : Snapshot} {num : UInt32} {dir : InfoDir}
  {f g : InfoDir → InfoDir}

theorem find_modDir (hdir : st.infoDirs.find num = some dir) :
    (st.modDir num f).infoDirs.find num = some (f dir) := by
  rw [Snapshots.modDir, hdir]
  exact (SortedMap.find_set ..).trans (if_pos rfl)

@[simp] theorem entries_modDir : (st.modDir num f).entries = st.entries := by
  unfold Snapshots.modDir
  split <;> rfl

@[simp] theorem entries_removeDir : (st.removeDir num).entries = st.entries := by
  unfold Snapshots.removeDir
  split <;> rfl

/-- An empty directory is removed, and only that. -/
theorem find_removeDir (hdir : st.infoDirs.find num = some dir) :
    (st.removeDir num).infoDirs.find num = if dir.isEmpty then none else some dir := by
  unfold Snapshots.removeDir
  rw [hdir, Option.any_some]
  split
  · exact (SortedMap.find_erase ..).trans (if_pos rfl)
  · exact hdir

theorem isEmpty_new : InfoDir.new.isEmpty = true := rfl

/-- A directory with a file in it -/
theorem isEmpty_set (snapshot : Bool) (files : SortedMap Str (Option XmlNode)) (name : Str)
    (content : Option XmlNode) : InfoDir.isEmpty ⟨snapshot, files.set name content⟩ = false := by
  have hmem : (name, content) ∈ (files.set name content).entries :=
    SortedMap.find_eq_some_iff.mp ((SortedMap.find_set ..).trans (if_pos rfl))
  have hne := List.ne_nil_of_mem hmem
  simp [InfoDir.isEmpty, hne]

/-! ## Failing calls -/

theorem check_fails {call : Call} {e : CreateError} (h : env.fails call = true) :
    (check env call e).run st = (.error e, st) := by
  rw [check, h]
  rfl

theorem check_succeeds {call : Call} {e : CreateError} (h : env.fails call = false) :
    (check env call e).run st = (.ok ⟨⟩, st) := by
  rw [check, h]
  rfl

/-- The first call that fails -/
def firstFailure (env : Env) (calls : List Call) : Option Call := calls.find? env.fails

/-- After the failure of the call nothing is left of the snapshot: either there is nothing yet, or
the exception is one that `createHelper` cleans up for and the directory is empty. -/
def Call.isCleanedUp : Call → Bool
  | openSubvolumeDir | openInfoDir | fdopen | xmlDocFormatDump | rename => false
  | _ => true

/-- The calls of `createFilesystemSnapshot` -/
def filesystemCalls : List Call := [.openSubvolumeDir, .openInfoDir, .createSnapshot]

/-- The calls of `writeInfo` -/
def infoCalls : List Call := [.openOwnInfoDir, .mktemp, .fdopen, .xmlDocFormatDump, .rename]

theorem run_not_current (hnum : s.num ≠ 0) :
    (Act.throwIf s.isCurrent .IllegalSnapshotException : Create PUnit).run st = (.ok ⟨⟩, st) := by
  have hcurrent : s.isCurrent = false := decide_eq_false hnum
  rw [hcurrent]
  rfl

variable (st) in
/-- Without a failing call the subvolume of the snapshot is there afterwards. -/
theorem createFilesystemSnapshot_done (hnum : s.num ≠ 0)
    (hall : firstFailure env filesystemCalls = none) :
    (createFilesystemSnapshot env s).run st =
      (.ok ⟨⟩, st.modDir s.num fun dir => { dir with snapshot := true }) := by
  simp only [firstFailure, filesystemCalls, List.find?_eq_none, List.forall_mem_cons,
    Bool.not_eq_true] at hall
  obtain ⟨h1, h2, h3, -⟩ := hall
  unfold createFilesystemSnapshot
  rw [Act.run_bind_ok (run_not_current hnum), Act.run_bind_ok (check_succeeds h1),
    Act.run_bind_ok (check_succeeds h2), Act.run_bind_ok (check_succeeds h3), Act.run_modify]

/-- The exception that the failing call throws -/
def Call.error : Call → CreateError
  | createSnapshot => .CreateSnapshotFailedException
  | _ => .IOErrorException

variable (st) in
/-- The first call that fails stops the creation in the file system, with its own exception and
nothing changed. -/
theorem createFilesystemSnapshot_stopped (hnum : s.num ≠ 0) {call : Call}
    (hcall : firstFailure env filesystemCalls = some call) :
    (createFilesystemSnapshot env s).run st = (.error call.error, st) := by
  unfold createFilesystemSnapshot
  rw [Act.run_bind_ok (run_not_current hnum)]
  simp only [firstFailure, filesystemCalls, List.find?_cons] at hcall
  -- the three calls in their order
  cases h1 : env.fails .openSubvolumeDir with
  | true =>
    obtain rfl : Call.openSubvolumeDir = call := by simpa [h1] using hcall
    exact Act.run_bind_error (check_fails h1)
  | false =>
    rw [Act.run_bind_ok (check_succeeds h1)]
    cases h2 : env.fails .openInfoDir with
    | true =>
      obtain rfl : Call.openInfoDir = call := by simpa [h1, h2] using hcall
      exact Act.run_bind_error (check_fails h2)
    | false =>
      rw [Act.run_bind_ok (check_succeeds h2)]
      cases h3 : env.fails .createSnapshot with
      | true =>
        obtain rfl : Call.createSnapshot = call := by simpa [h1, h2, h3] using hcall
        exact Act.run_bind_error (check_fails h3)
      | false => simp [h1, h2, h3] at hcall

/-- The last call puts the document under its name. -/
theorem writeInfo_done (hall : firstFailure env infoCalls = none)
    (hdir : st.infoDirs.find s.num = some dir) :
    ∃ st' dir', (writeInfo env s).run st = (.ok ⟨⟩, st') ∧ st'.entries = st.entries ∧
      st'.infoDirs.find s.num = some dir' ∧ dir'.snapshot = dir.snapshot ∧
      dir'.files.find infoName = some (some (s.writeInfo env.datetime)) := by
  simp only [firstFailure, infoCalls, List.find?_eq_none, List.forall_mem_cons,
    Bool.not_eq_true] at hall
  obtain ⟨h1, h2, h3, h4, h5, -⟩ := hall
  unfold writeInfo putFile
  rw [Act.run_bind_ok (check_succeeds h1), Act.run_bind_ok (check_succeeds h2),
    Act.run_bind_ok (Act.run_modify _ _), Act.run_bind_ok (check_succeeds h3),
    Act.run_bind_ok (check_succeeds h4), Act.run_bind_ok (Act.run_modify _ _),
    Act.run_bind_ok (check_succeeds h5), Act.run_modify]
  have htmp := find_modDir (f := fun dir =>
    { dir with files := dir.files.set (tmpName env) none }) hdir
  have hwritten := find_modDir (f := fun dir =>
    { dir with files := dir.files.set (tmpName env) (some (s.writeInfo env.datetime)) }) htmp
  exact ⟨_, _, rfl, by simp, find_modDir hwritten, rfl,
    (SortedMap.find_set ..).trans (if_pos rfl)⟩

/-- From the creation of the temporary file on there is a file in the directory. -/
theorem writeInfo_stopped (hdir : st.infoDirs.find s.num = some dir) {call : Call}
    (hcall : firstFailure env infoCalls = some call) :
    ∃ st' dir', (writeInfo env s).run st = (.error .IOErrorException, st') ∧
      st'.entries = st.entries ∧ st'.infoDirs.find s.num = some dir' ∧
      if call.isCleanedUp then dir' = dir
      else ∃ (files : SortedMap Str (Option XmlNode)) (content : Option XmlNode),
        dir' = { dir with files := files.set (tmpName env) content } := by
  have hput : (putFile s.num (tmpName env) none).run st = _ := Act.run_modify _ _
  have hdir₁ := find_modDir (f := fun dir =>
    { dir with files := dir.files.set (tmpName env) none }) hdir
  set st₁ := st.modDir s.num fun dir => { dir with files := dir.files.set (tmpName env) none }
  have hentries₁ : st₁.entries = st.entries := entries_modDir
  unfold writeInfo
  simp only [firstFailure, infoCalls, List.find?_cons] at hcall
  cases h1 : env.fails .openOwnInfoDir with
  | true =>
    obtain rfl : Call.openOwnInfoDir = call := by simpa [h1] using hcall
    exact ⟨st, dir, Act.run_bind_error (check_fails h1), rfl, hdir, rfl⟩
  | false =>
    rw [Act.run_bind_ok (check_succeeds h1)]
    cases h2 : env.fails .mktemp with
    | true =>
      obtain rfl : Call.mktemp = call := by simpa [h1, h2] using hcall
      exact ⟨st, dir, Act.run_bind_error (check_fails h2), rfl, hdir, rfl⟩
    | false =>
      -- the temporary file is there
      rw [Act.run_bind_ok (check_succeeds h2), Act.run_bind_ok hput]
      cases h3 : env.fails .fdopen with
      | true =>
        obtain rfl : Call.fdopen = call := by simpa [h1, h2, h3] using hcall
        exact ⟨st₁, _, Act.run_bind_error (check_fails h3), hentries₁, hdir₁, _, _, rfl⟩
      | false =>
        rw [Act.run_bind_ok (check_succeeds h3)]
        cases h4 : env.fails .xmlDocFormatDump with
        | true =>
          obtain rfl : Call.xmlDocFormatDump = call := by simpa [h1, h2, h3, h4] using hcall
          exact ⟨st₁, _, Act.run_bind_error (check_fails h4), hentries₁, hdir₁, _, _, rfl⟩
        | false =>
          rw [Act.run_bind_ok (check_succeeds h4), putFile, Act.run_bind_ok (Act.run_modify _ _)]
          cases h5 : env.fails .rename with
          | true =>
            obtain rfl : Call.rename = call := by simpa [h1, h2, h3, h4, h5] using hcall
            exact ⟨_, _, Act.run_bind_error (check_fails h5), entries_modDir.trans hentries₁,
              find_modDir hdir₁, _, _, rfl⟩
          | false => simp [h1, h2, h3, h4, h5] at hcall

/-! ## What is left -/

theorem firstFailure_append (calls calls' : List Call) :
    firstFailure env (calls ++ calls') =
      (firstFailure env calls).or (firstFailure env calls') := List.find?_append

theorem flushInfo_stopped (hmodified : s.infoModified = true) {st' : Snapshots} {e : CreateError}
    (hrun : (writeInfo env s).run st = (.error e, st')) :
    (flushInfo env s).run st = (.error e, st') := by
  unfold flushInfo
  rw [if_pos hmodified, Act.run_bind_error hrun]

theorem flushInfo_done (hmodified : s.infoModified = true) {st' : Snapshots}
    (hrun : (writeInfo env s).run st = (.ok ⟨⟩, st')) :
    (flushInfo env s).run st = (.ok s.flushed, st') := by
  unfold flushInfo
  rw [if_pos hmodified, Act.run_bind_ok hrun]
  rfl

/-- What a failing call leaves of a number whose directory has just been made. -/
theorem createHelper_stopped (hnum : s.num ≠ 0) (hmodified : s.infoModified = true)
    (hdir : st.infoDirs.find s.num = some InfoDir.new) {call : Call}
    (hcall : firstFailure env (filesystemCalls ++ infoCalls) = some call) :
    ∃ st', (createHelper env s).run st = (.error call.error, st') ∧ st'.entries = st.entries ∧
      (st'.infoDirs.find s.num).any InfoDir.snapshot = false ∧
      (st'.infoDirs.find s.num = none ↔ call.isCleanedUp = true) := by
  rw [firstFailure_append] at hcall
  unfold createHelper
  cases hfilesystem : firstFailure env filesystemCalls with
  | some call' =>
    obtain rfl : call' = call := by simpa [hfilesystem] using hcall
    have hrun := createFilesystemSnapshot_stopped st hnum hfilesystem
    by_cases hcreate : call' = .createSnapshot
    · -- the exception that is caught
      subst hcreate
      refine ⟨st.removeDir s.num, ?_, entries_removeDir, ?_⟩
      · refine Act.run_bind_error ?_
        rw [Act.run_tryCatch_error hrun]
        rfl
      · rw [find_removeDir hdir, if_pos isEmpty_new]
        exact ⟨rfl, iff_of_true rfl rfl⟩
    · -- an `IOErrorException` is not
      have hmem : call' ∈ filesystemCalls := List.mem_of_find?_eq_some hfilesystem
      simp only [filesystemCalls, List.mem_cons, List.not_mem_nil, or_false] at hmem
      have herror : call'.error = .IOErrorException ∧ call'.isCleanedUp = false := by
        obtain rfl | rfl | rfl := hmem
        · exact ⟨rfl, rfl⟩
        · exact ⟨rfl, rfl⟩
        · exact absurd rfl hcreate
      rw [herror.1] at hrun ⊢
      refine ⟨st, ?_, rfl, ?_⟩
      · refine Act.run_bind_error ?_
        rw [Act.run_tryCatch_error hrun]
        rfl
      · rw [hdir, herror.2]
        exact ⟨rfl, iff_of_false (by simp) (by simp)⟩
  | none =>
    have hinfo : firstFailure env infoCalls = some call := by simpa [hfilesystem] using hcall
    have hrun := createFilesystemSnapshot_done st hnum hfilesystem
    have hdir₁ := find_modDir (f := fun dir => { dir with snapshot := true }) hdir
    obtain ⟨st₂, dir₂, hrun₂, hentries₂, hdir₂, hleft⟩ := writeInfo_stopped hdir₁ hinfo
    set st₃ := (st₂.modDir s.num fun dir => { dir with snapshot := false }).removeDir s.num
      with hst₃
    have herror : call.error = .IOErrorException := by
      have hmem : call ∈ infoCalls := List.mem_of_find?_eq_some hinfo
      simp only [infoCalls, List.mem_cons, List.not_mem_nil, or_false] at hmem
      obtain rfl | rfl | rfl | rfl | rfl := hmem <;> rfl
    rw [herror]
    refine ⟨st₃, ?_, ?_, ?_⟩
    · rw [Act.run_bind_ok (Act.run_tryCatch_ok hrun)]
      refine Act.run_bind_error ?_
      rw [Act.run_tryCatch_error (flushInfo_stopped hmodified hrun₂)]
      rfl
    · rw [hst₃, entries_removeDir, entries_modDir, hentries₂, entries_modDir]
    · rw [hst₃, find_removeDir (find_modDir hdir₂)]
      cases hclean : call.isCleanedUp with
      | true =>
        -- the directory has nothing but the snapshot, which is deleted
        rw [hclean, if_pos rfl] at hleft
        rw [hleft]
        exact ⟨rfl, iff_of_true rfl rfl⟩
      | false =>
        -- the temporary file keeps the directory
        rw [hclean, if_neg Bool.false_ne_true] at hleft
        obtain ⟨files, content, rfl⟩ := hleft
        rw [if_neg (by rw [isEmpty_set]; exact Bool.false_ne_true)]
        exact ⟨rfl, iff_of_false (by simp) (by simp)⟩

/-- A snapshot is created: it is in the list, and the directory has a subvolume and its info. -/
theorem createHelper_done (hnum : s.num ≠ 0) (hmodified : s.infoModified = true)
    (hdir : st.infoDirs.find s.num = some dir)
    (hall : firstFailure env (filesystemCalls ++ infoCalls) = none) :
    ∃ st' dir', (createHelper env s).run st = (.ok ⟨⟩, st') ∧
      st'.entries = st.entries ++ [s.flushed] ∧ st'.infoDirs.find s.num = some dir' ∧
      dir'.snapshot = true ∧
      dir'.files.find infoName = some (some (s.writeInfo env.datetime)) := by
  rw [firstFailure_append, Option.or_eq_none_iff] at hall
  have hrun := createFilesystemSnapshot_done st hnum hall.1
  have hdir₁ := find_modDir (f := fun dir => { dir with snapshot := true }) hdir
  obtain ⟨st₂, dir', hrun₂, hentries, hdir', hsnapshot, hfile⟩ := writeInfo_done hall.2 hdir₁
  unfold createHelper
  rw [Act.run_bind_ok (Act.run_tryCatch_ok hrun),
    Act.run_bind_ok (Act.run_tryCatch_ok (flushInfo_done hmodified hrun₂)), Act.run_modify]
  refine ⟨_, dir', rfl, ?_, hdir', hsnapshot, hfile⟩
  show st₂.entries ++ [s.flushed] = _
  rw [hentries, entries_modDir]

/-- The snapshot of the current system has no subvolume to take. -/
theorem createHelper_current (hnum : s.num = 0) :
    (createHelper env s).run st = (.error .IllegalSnapshotException, st) := by
  have hcurrent : s.isCurrent = true := decide_eq_true hnum
  have hrun : (createFilesystemSnapshot env s).run st =
      (.error .IllegalSnapshotException, st) := by
    unfold createFilesystemSnapshot
    rw [hcurrent]
    rfl
  unfold createHelper
  refine Act.run_bind_error ?_
  rw [Act.run_tryCatch_error hrun]
  rfl

/-! ## The three functions -/

/-- The new number has neither snapshot nor directory, and the list is the one before. -/
structure NoTrace (st st' : Snapshots) : Prop where
  entries : st'.entries = st.entries
  snapshot : ∀ num, st.freeNumber = some num → st'.checkSnapshot num = false
  dir : ∀ num, st.freeNumber = some num → st'.infoDirs.find num = none

/-- A call that throws leaves no trace. -/
def FailsCleanly (env : Env) (request : Request) (st : Snapshots) : Prop :=
  ∀ e st', (request.create env).run st = (.error e, st') → NoTrace st st'

/-- The calls that can fail, in their order -/
def allCalls : List Call := .openInfosDir :: .mkdir :: (filesystemCalls ++ infoCalls)

/-- The pre snapshot of the request is refused. -/
def Request.isRefused (st : Snapshots) : Request → Bool
  | .post _ iterator => refuses iterator st
  | _ => false

/-- The failures after which nothing is left: none that matters comes before the directory is
made, and afterwards the first one is one that is cleaned up after.  The number 0, which comes after
the largest one, is refused with its directory made. -/
def CleansUp (env : Env) (request : Request) (st : Snapshots) : Prop :=
  request.isRefused st = true ∨ ∀ num, st.freeNumber = some num →
    env.fails .openInfosDir = true ∨ env.fails .mkdir = true ∨
      (num ≠ 0 ∧ ∀ call, firstFailure env allCalls = some call → call.isCleanedUp = true)

/-- What has changed nothing has left no trace. -/
theorem NoTrace.refl (st : Snapshots) : NoTrace st st where
  entries := rfl
  snapshot num hnum := by
    have hfree := List.find?_some hnum
    simp only [Bool.and_eq_true, Bool.not_eq_true'] at hfree
    exact hfree.1
  dir num hnum := by
    have hfree := List.find?_some hnum
    simp only [Bool.and_eq_true, Option.isNone_iff_eq_none] at hfree
    exact hfree.2

/-- The number is taken: its directory is there. -/
def Snapshots.take (num : UInt32) (snapshots : Snapshots) : Snapshots :=
  { snapshots with infoDirs := snapshots.infoDirs.set num InfoDir.new }

/-- Without a failing call the next number is the first free one after the last, and its directory
is made. -/
theorem nextNumber_done (hopen : env.fails .openInfosDir = false)
    (hfree : st.freeNumber = some num) (hmkdir : env.fails .mkdir = false) :
    (nextNumber env).run st = (.ok num, st.take num) := by
  have hread : (Act.read Snapshots.freeNumber : Create _).run st = (.ok (some num), st) := by
    rw [Act.run_read, hfree]
  unfold nextNumber
  rw [Act.run_bind_ok (check_succeeds hopen), Act.run_bind_ok hread,
    Act.run_bind_ok (check_succeeds hmkdir)]
  rfl

/-- `nextNumber` makes the directory last. -/
theorem nextNumber_stopped (h : env.fails .openInfosDir = true ∨ st.freeNumber = none ∨
    env.fails .mkdir = true) : (nextNumber env).run st = (.error .IOErrorException, st) := by
  unfold nextNumber
  cases hopen : env.fails .openInfosDir with
  | true => exact Act.run_bind_error (check_fails hopen)
  | false =>
    have h := h.resolve_left (by simp [hopen])
    rw [Act.run_bind_ok (check_succeeds hopen), Act.run_bind_ok (Act.run_read _ _)]
    cases hfree : st.freeNumber with
    | none => rfl
    | some num => exact Act.run_bind_error (check_fails (h.resolve_left (by simp [hfree])))

theorem firstFailure_made (hopen : env.fails .openInfosDir = false)
    (hmkdir : env.fails .mkdir = false) :
    firstFailure env allCalls = firstFailure env (filesystemCalls ++ infoCalls) := by
  unfold firstFailure allCalls
  rw [List.find?_cons_of_neg (by simp [hopen]), List.find?_cons_of_neg (by simp [hmkdir])]

/-- A creation that fails leaves no trace exactly when it fails before the directory is made, or
in one of the calls that are cleaned up after. -/
theorem createSnapshot_cleanly_iff (type : SnapshotType) (preNum : UInt32) (description : Str) :
    (∀ e st', (createSnapshot env type preNum description).run st = (.error e, st') →
      NoTrace st st') ↔
    ∀ num, st.freeNumber = some num → env.fails .openInfosDir = true ∨ env.fails .mkdir = true ∨
      (num ≠ 0 ∧ ∀ call, firstFailure env allCalls = some call → call.isCleanedUp = true) := by
  -- before the directory is made nothing is left in any case
  have hearly (h : (nextNumber env).run st = (.error .IOErrorException, st)) :
      ∀ e st', (createSnapshot env type preNum description).run st = (.error e, st') →
        NoTrace st st' := by
    intro e st' hrun
    obtain rfl := (Prod.mk.inj ((Act.run_bind_error h).symm.trans hrun)).2
    exact NoTrace.refl st
  cases hopen : env.fails .openInfosDir with
  | true => exact iff_of_true (hearly (nextNumber_stopped (Or.inl hopen))) (by simp)
  | false =>
    cases hfree : st.freeNumber with
    | none => exact iff_of_true (hearly (nextNumber_stopped (Or.inr (Or.inl hfree)))) (by simp)
    | some num =>
      cases hmkdir : env.fails .mkdir with
      | true => exact iff_of_true (hearly (nextNumber_stopped (Or.inr (Or.inr hmkdir)))) (by simp)
      | false =>
        have hdir : (st.take num).infoDirs.find num = some InfoDir.new :=
          (SortedMap.find_set ..).trans (if_pos rfl)
        set snapshot : Snapshot := { Snapshot.new type num env.time with
          preNum := preNum, description := description, infoModified := true } with hsnapshot
        have hrun : (createSnapshot env type preNum description).run st =
            (createHelper env snapshot).run (st.take num) :=
          Act.run_bind_ok (nextNumber_done hopen hfree hmkdir)
        have hmodified : snapshot.infoModified = true := rfl
        rw [hrun, firstFailure_made hopen hmkdir]
        by_cases hzero : num = 0
        · -- the exception is not one of those that are caught
          refine iff_of_false ?_ ?_
          · intro h
            have htrace := (h _ _ (createHelper_current (s := snapshot) hzero)).dir num hfree
            rw [hdir] at htrace
            cases htrace
          · simp [hzero]
        · cases hcall : firstFailure env (filesystemCalls ++ infoCalls) with
          | none =>
            refine iff_of_true ?_ (by simp [hzero])
            intro e st' hstopped
            obtain ⟨st'', -, hdone, -⟩ :=
              createHelper_done (s := snapshot) hzero hmodified hdir hcall
            cases hdone.symm.trans hstopped
          | some call =>
            obtain ⟨st', hstopped, hentries, hcheck, hleft⟩ :=
              createHelper_stopped (s := snapshot) hzero hmodified hdir hcall
            constructor
            · intro h num' hnum'
              obtain rfl := Option.some.inj hnum'
              have htrace := (h _ st' hstopped).dir num hfree
              refine Or.inr (Or.inr ⟨hzero, fun call' hcall' => ?_⟩)
              obtain rfl := Option.some.inj hcall'
              exact hleft.mp htrace
            · intro h e' st'' hrun'
              obtain rfl := (Prod.mk.inj (hstopped.symm.trans hrun')).2
              obtain hfails | hfails | ⟨-, hclean⟩ := h num rfl
              · cases hfails
              · cases hfails
              have hnone := hleft.mpr (hclean call rfl)
              refine ⟨hentries, fun num' hnum' => ?_, fun num' hnum' => ?_⟩
              · obtain rfl := Option.some.inj (hfree.symm.trans hnum')
                exact hcheck
              · obtain rfl := Option.some.inj (hfree.symm.trans hnum')
                exact hnone

/-- A failed creation leaves nothing behind exactly after the failures that are cleaned up
after. -/
theorem fails_cleanly_iff (env : Env) (request : Request) (st : Snapshots) :
    FailsCleanly env request st ↔ CleansUp env request st := by
  cases request with
  | single description =>
    rw [CleansUp, or_iff_right (by simp [Request.isRefused])]
    exact createSnapshot_cleanly_iff .SINGLE 0 description
  | pre description =>
    rw [CleansUp, or_iff_right (by simp [Request.isRefused])]
    exact createSnapshot_cleanly_iff .PRE 0 description
  | post description iterator =>
    -- only a post snapshot can be refused, before anything is done
    have hread : (Act.read (refuses iterator) : Create Bool).run st =
        (.ok (refuses iterator st), st) := Act.run_read _ _
    unfold FailsCleanly Request.create createPostSnapshot
    rw [Act.run_bind_ok hread]
    cases hrefused : refuses iterator st with
    | true =>
      refine iff_of_true ?_ (Or.inl hrefused)
      intro e st' hrun
      cases hrun
      exact NoTrace.refl st
    | false =>
      rw [CleansUp, or_iff_right (by simp [Request.isRefused, hrefused])]
      exact createSnapshot_cleanly_iff .POST _ description

/-! ## Directories that stay -/

/-- One call fails. -/
def failing (call : Call) : Env where
  fails := fun call' => call' = call
  time := 0
  datetime _ := []
  unique := str "AAAAAA"

/-- A config without snapshots -/
def noSnapshots : Snapshots := ⟨[Snapshot.current], .empty⟩

/-- The directory of the snapshot 1 stays when the subvolume cannot be opened, and also when the
temporary file cannot be renamed. -/
theorem directory_stays :
    (¬∀ (env : Env) (request : Request) (st : Snapshots), FailsCleanly env request st) ∧
    ¬FailsCleanly (failing .openSubvolumeDir) (.single []) noSnapshots ∧
    ¬FailsCleanly (failing .rename) (.single []) noSnapshots := by
  have hfree : noSnapshots.freeNumber = some 1 := rfl
  have hstays (call : Call) (hfirst : firstFailure (failing call) allCalls = some call)
      (hclean : call.isCleanedUp = false) (hopen : (failing call).fails .openInfosDir = false)
      (hmkdir : (failing call).fails .mkdir = false) :
      ¬FailsCleanly (failing call) (.single []) noSnapshots := by
    intro h
    obtain hfails | hfails | ⟨-, hall⟩ := (createSnapshot_cleanly_iff .SINGLE 0 []).mp h 1 hfree
    · cases hopen.symm.trans hfails
    · cases hmkdir.symm.trans hfails
    · cases hclean.symm.trans (hall call hfirst)
  have hsubvolume := hstays .openSubvolumeDir rfl rfl rfl rfl
  exact ⟨fun h => hsubvolume (h _ _ _), hsubvolume, hstays .rename rfl rfl rfl rfl⟩

end Snapper.Creation
