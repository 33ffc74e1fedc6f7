import Snapper.Info.Creating

/-!
# Deleting a snapshot

`Snapshots::deleteSnapshot` deletes the snapshot of the file system first and takes the entry
out of the list last.  In between it opens the info directories of all snapshots, and each of
them may be missing.  Of the file systems only Btrfs is modelled here, with
`Btrfs::deleteSnapshot`; the ones of `Lvm` and `Ext4` delete in other ways.

## Main results

- `settles_cleanup`: the calls in between change neither the list nor what exists, and all of
  them must succeed
- `in_step_iff`: after which deletions list and disk agree
-/

namespace Snapper.Deletion

open General

/-- The list of the snapshots, and the info directories on disk -/
abbrev Snapshots := Creation.Snapshots

/-- The calls that can fail while a snapshot is deleted. -/
inductive Call where
  /-- in `Snapshot::deleteFilesystemSnapshot` -/
  | umountSnapshot
  /-- in `Btrfs::deleteSnapshot` -/
  | openFilesystemInfoDir
  | deleteSubvolume
  /-- in `Snapshots::deleteSnapshot` -/
  | openOwnInfoDir
  | entries
  | openInfoDir (num : UInt32)
  | openInfosDir
  | unlink (num : UInt32) (name : Str)
  deriving DecidableEq

/-- The answers of the system -/
structure Env where
  fails : Call → Bool

/-- What deleting a snapshot can throw. -/
inductive DeleteError where
  | IllegalSnapshotException
  | UmountSnapshotFailedException
  | DeleteSnapshotFailedException
  | IOErrorException
  deriving DecidableEq, Repr

abbrev Delete := Act Snapshots DeleteError

/-- `SDir(infos_dir, decString(num))`, which needs the directory -/
def openDir (env : Env) (call : Call) (num : UInt32) : Delete PUnit := do
  let missing ← Act.read fun st => (st.infoDirs.find num).isNone
  Act.throwIf (env.fails call || missing) .IOErrorException

/-- `unlink`, with its result ignored -/
def unlink (env : Env) (num : UInt32) (name : Str) : Delete PUnit :=
  if env.fails (.unlink num name) then pure ⟨⟩
  else Act.modify (Creation.Snapshots.modDir num fun dir =>
    { dir with files := dir.files.erase name })

/-- Unlinks the files one after the other; a failure of one does not stop the others. -/
def unlinkAll (env : Env) (num : UInt32) : List Str → Delete PUnit
  | [] => pure ⟨⟩
  | name :: names => do
    unlink env num name
    unlinkAll env num names

/-- `Snapshot::deleteFilesystemSnapshot`, with `Btrfs::deleteSnapshot` -/
def deleteFilesystemSnapshot (env : Env) (snapshot : Snapshot) : Delete PUnit := do
  Act.throwIf snapshot.isCurrent .IllegalSnapshotException
  Act.throwIf (env.fails .umountSnapshot) .UmountSnapshotFailedException
  openDir env .openFilesystemInfoDir snapshot.num
  -- the ioctl fails where there is no subvolume, too
  let there ← Act.read fun st => st.checkSnapshot snapshot.num
  Act.throwIf (env.fails .deleteSubvolume || !there) .DeleteSnapshotFailedException
  Act.modify (Creation.Snapshots.modDir snapshot.num fun dir => { dir with snapshot := false })

/-- The names that `entries` gives, of a directory that is open. -/
def filelistFiles (num : UInt32) (st : Snapshots) : List Str :=
  match st.infoDirs.find num with
  | none => []
  | some dir => (dir.files.entries.map Prod.fst).filter isFilelistFile

/-- `info_dir.entries(is_filelist_file)`, and the files are removed -/
def unlinkFilelists (env : Env) (num : UInt32) : Delete PUnit := do
  Act.throwIf (env.fails .entries) .IOErrorException
  let tmp1 ← Act.read (filelistFiles num)
  unlinkAll env num tmp1

/-- The body of the loop: what a snapshot has about the deleted one is removed. -/
def unlinkFilelist (env : Env) (num : UInt32) (it : Snapshot) : Delete PUnit :=
  if it.isCurrent then pure ⟨⟩
  else do
    openDir env (.openInfoDir it.num) it.num
    unlink env it.num (filelistName num.toNat)

/-- `for (Snapshots::iterator it = begin(); it != end(); ++it)` -/
def unlinkEach (env : Env) (num : UInt32) : List Snapshot → Delete PUnit
  | [] => pure ⟨⟩
  | it :: rest => do
    unlinkFilelist env num it
    unlinkEach env num rest

/-- What comes between the snapshot of the file system and its directory -/
def cleanup (env : Env) (num : UInt32) (entries : List Snapshot) : Delete PUnit := do
  openDir env .openOwnInfoDir num
  unlink env num infoName
  unlinkFilelists env num
  unlinkEach env num entries
  Act.throwIf (env.fails .openInfosDir) .IOErrorException

/-- `Snapshots::deleteSnapshot`; the iterator is a position, `end()` where there is none -/
def deleteSnapshot (env : Env) (i : Nat) : Delete PUnit := do
  let entries ← Act.read Creation.Snapshots.entries
  match entries[i]? with
  | none => throw .IllegalSnapshotException
  | some snapshot =>
    Act.throwIf snapshot.isCurrent .IllegalSnapshotException
    deleteFilesystemSnapshot env snapshot
    cleanup env snapshot.num entries
    Act.modify (Creation.Snapshots.removeDir snapshot.num)
    Act.modify fun st => { st with entries := st.entries.eraseIdx i }

/-! ## What a call keeps -/

/-- The list is the same, and the same directories and snapshots are on disk. -/
structure Same (st st' : Snapshots) : Prop where
  entries : st'.entries = st.entries
  snapshots : ∀ num, (st'.infoDirs.find num).map Creation.InfoDir.snapshot =
    (st.infoDirs.find num).map Creation.InfoDir.snapshot

theorem Same.refl (st : Snapshots) : Same st st := ⟨rfl, fun _ => rfl⟩

theorem Same.trans {st st' st'' : Snapshots} (h : Same st st') (h' : Same st' st'') :
    Same st st'' where
  entries := h'.entries.trans h.entries
  snapshots num := (h'.snapshots num).trans (h.snapshots num)

theorem Same.isNone {st st' : Snapshots} (h : Same st st') (num : UInt32) :
    (st'.infoDirs.find num).isNone = (st.infoDirs.find num).isNone := by
  have hsame := congrArg Option.isNone (h.snapshots num)
  rwa [Option.isNone_map, Option.isNone_map] at hsame

theorem checkSnapshot_eq (st : Snapshots) (num : UInt32) :
    st.checkSnapshot num =
      ((st.infoDirs.find num).map Creation.InfoDir.snapshot).getD false := by
  unfold Creation.Snapshots.checkSnapshot
  cases st.infoDirs.find num <;> rfl

theorem Same.checkSnapshot {st st' : Snapshots} (h : Same st st') (num : UInt32) :
    st'.checkSnapshot num = st.checkSnapshot num := by
  rw [checkSnapshot_eq, checkSnapshot_eq, h.snapshots num]

/-- A directory after a change of another one, or of itself -/
theorem find_modDir (st : Snapshots) (num num' : UInt32) (f : Creation.InfoDir → Creation.InfoDir) :
    (st.modDir num f).infoDirs.find num' =
      if num' = num then (st.infoDirs.find num').map f else st.infoDirs.find num' := by
  unfold Creation.Snapshots.modDir
  cases hdir : st.infoDirs.find num with
  | none =>
    by_cases hnum : num' = num
    · subst hnum
      simp [hdir]
    · simp [hnum]
  | some dir =>
    show (st.infoDirs.set num (f dir)).find num' = _
    rw [SortedMap.find_set]
    by_cases hnum : num' = num
    · subst hnum
      simp [hdir]
    · simp [hnum]

/-- Files of a directory do not matter. -/
theorem same_modDir (st : Snapshots) (num : UInt32) {f : Creation.InfoDir → Creation.InfoDir}
    (hf : ∀ dir, (f dir).snapshot = dir.snapshot) : Same st (st.modDir num f) where
  entries := Creation.entries_modDir
  snapshots num' := by
    rw [find_modDir]
    split
    · cases st.infoDirs.find num' with
      | none => rfl
      | some dir => exact congrArg some (hf dir)
    · rfl

/-! ## Calls that must succeed -/

/-- Where list and disk are as in `st₀` the action keeps them; it returns if `p` holds and throws
otherwise. -/
def Settles (st₀ : Snapshots) (p : Prop) (c : Delete PUnit) : Prop :=
  ∀ st, Same st₀ st → ∃ st', Same st₀ st' ∧
    ((p ∧ c.run st = (.ok ⟨⟩, st')) ∨ (¬p ∧ c.run st = (.error .IOErrorException, st')))

section Settles

variable {st₀ : Snapshots} {p q : Prop} {c c' : Delete PUnit} {env : Env} {num : UInt32}

theorem Settles.pure : Settles st₀ True (pure ⟨⟩) := by
  intro st h
  exact ⟨st, h, .inl ⟨trivial, rfl⟩⟩

/-- Two parts of the cleanup that settle do so one after the other, and succeed when both do. -/
theorem Settles.bind (hc : Settles st₀ p c) (hc' : Settles st₀ q c') :
    Settles st₀ (p ∧ q) (c >>= fun _ => c') := by
  intro st h
  obtain ⟨st', h', hrun⟩ := hc st h
  obtain ⟨hp, hrun⟩ | ⟨hp, hrun⟩ := hrun
  · obtain ⟨st'', h'', hrun'⟩ := hc' st' h'
    refine ⟨st'', h'', ?_⟩
    rw [Act.run_bind_ok hrun]
    obtain ⟨hq, hrun'⟩ | ⟨hq, hrun'⟩ := hrun'
    · exact .inl ⟨⟨hp, hq⟩, hrun'⟩
    · exact .inr ⟨fun hboth => hq hboth.2, hrun'⟩
  · exact ⟨st', h', .inr ⟨fun hboth => hp hboth.1, Act.run_bind_error hrun⟩⟩

theorem Settles.read {α : Type} {f : Snapshots → α} {k : α → Delete PUnit}
    (h : ∀ a, Settles st₀ p (k a)) : Settles st₀ p (Act.read f >>= k) :=
  fun st hst => h (f st) st hst

theorem Settles.throwIf (b : Bool) : Settles st₀ (b = false) (Act.throwIf b .IOErrorException) := by
  intro st h
  cases b with
  | true => exact ⟨st, h, .inr ⟨by simp, rfl⟩⟩
  | false => exact ⟨st, h, .inl ⟨rfl, rfl⟩⟩

theorem Settles.congr (h : Settles st₀ p c) (hpq : p ↔ q) : Settles st₀ q c := by
  intro st hst
  obtain ⟨st', h', hrun⟩ := h st hst
  rw [hpq] at hrun
  exact ⟨st', h', hrun⟩

/-- The call succeeds and the directory is there. -/
def Opens (env : Env) (st₀ : Snapshots) (call : Call) (num : UInt32) : Prop :=
  env.fails call = false ∧ (st₀.infoDirs.find num).isSome = true

/-- A directory is opened when the call does not fail and it is there. -/
theorem settles_openDir (env : Env) (st₀ : Snapshots) (call : Call) (num : UInt32) :
    Settles st₀ (Opens env st₀ call num) (openDir env call num) := by
  intro st h
  have hthrow := Settles.throwIf (env.fails call || (st.infoDirs.find num).isNone) st h
  refine Exists.imp (fun st' hst' => ⟨hst'.1, ?_⟩) hthrow
  have hcond : (env.fails call || (st.infoDirs.find num).isNone) = false ↔
      Opens env st₀ call num := by
    rw [h.isNone, Bool.or_eq_false_iff, Option.isNone_eq_false_iff]
    rfl
  rw [hcond] at hst'
  exact hst'.2

/-- Unlinking settles in any case, as its result is not looked at. -/
theorem settles_unlink (env : Env) (st₀ : Snapshots) (num : UInt32) (name : Str) :
    Settles st₀ True (unlink env num name) := by
  intro st h
  unfold unlink
  split
  · exact Settles.pure st h
  · have hsame : Same st (st.modDir num fun dir => { dir with files := dir.files.erase name }) :=
      same_modDir st num fun _ => rfl
    exact ⟨_, h.trans hsame, .inl ⟨trivial, rfl⟩⟩

theorem settles_unlinkAll (env : Env) (st₀ : Snapshots) (num : UInt32) (names : List Str) :
    Settles st₀ True (unlinkAll env num names) := by
  induction names with
  | nil => exact .pure
  | cons name names ih =>
    exact ((settles_unlink env st₀ num name).bind ih).congr (iff_of_eq (and_true True))

theorem settles_unlinkFilelists (env : Env) (st₀ : Snapshots) (num : UInt32) :
    Settles st₀ (env.fails .entries = false) (unlinkFilelists env num) := by
  refine Settles.congr (Settles.bind (.throwIf _) (.read fun names => ?_)) (iff_of_eq (and_true _))
  exact settles_unlinkAll env st₀ num names

/-- The directory of every snapshot of the list opens. -/
def OpensEach (env : Env) (st₀ : Snapshots) (entries : List Snapshot) : Prop :=
  ∀ it ∈ entries, it.isCurrent = false → Opens env st₀ (.openInfoDir it.num) it.num

/-- The file list that another snapshot has of the number is unlinked in the other's directory,
which has to be opened for it. -/
theorem settles_unlinkFilelist (env : Env) (st₀ : Snapshots) (num : UInt32) (it : Snapshot) :
    Settles st₀ (it.isCurrent = false → Opens env st₀ (.openInfoDir it.num) it.num)
      (unlinkFilelist env num it) := by
  unfold unlinkFilelist
  cases hcurrent : it.isCurrent with
  | true => exact Settles.pure.congr (by simp)
  | false =>
    have hopens := (settles_openDir env st₀ (.openInfoDir it.num) it.num).bind
      (settles_unlink env st₀ it.num (filelistName num.toNat))
    exact hopens.congr (by simp)

theorem settles_unlinkEach (env : Env) (st₀ : Snapshots) (num : UInt32) (entries : List Snapshot) :
    Settles st₀ (OpensEach env st₀ entries) (unlinkEach env num entries) := by
  induction entries with
  | nil => exact Settles.pure.congr (by simp [OpensEach])
  | cons it rest ih =>
    refine ((settles_unlinkFilelist env st₀ num it).bind ih).congr ?_
    rw [OpensEach, OpensEach, List.forall_mem_cons]

end Settles

/-- Everything between the snapshot of the file system and the list succeeds. -/
structure CleansUp (env : Env) (st₀ : Snapshots) (num : UInt32) : Prop where
  own : Opens env st₀ .openOwnInfoDir num
  entries : env.fails .entries = false
  each : OpensEach env st₀ st₀.entries
  infosDir : env.fails .openInfosDir = false

/-- The cleanup comes to its end exactly when every directory that it wants can be opened. -/
theorem settles_cleanup (env : Env) (st₀ : Snapshots) (num : UInt32) :
    Settles st₀ (CleansUp env st₀ num) (cleanup env num st₀.entries) := by
  refine Settles.congr ((settles_openDir env st₀ .openOwnInfoDir num).bind
    ((settles_unlink env st₀ num infoName).bind
      ((settles_unlinkFilelists env st₀ num).bind
        ((settles_unlinkEach env st₀ num st₀.entries).bind (.throwIf _))))) ?_
  constructor
  · exact fun h => ⟨h.1, h.2.2.1, h.2.2.2.1, h.2.2.2.2⟩
  · exact fun h => ⟨h.own, trivial, h.entries, h.each, h.infosDir⟩

/-! ## The snapshot of the file system -/

/-- A subvolume that is not there is not there either without its directory. -/
theorem checkSnapshot_removeDir {st : Snapshots} {num : UInt32}
    (h : st.checkSnapshot num = false) : (st.removeDir num).checkSnapshot num = false := by
  unfold Creation.Snapshots.checkSnapshot at h ⊢
  cases hdir : st.infoDirs.find num with
  | none =>
    unfold Creation.Snapshots.removeDir
    rw [hdir, Option.any_none, if_neg Bool.false_ne_true, hdir]
    rfl
  | some dir =>
    rw [Creation.find_removeDir hdir]
    rw [hdir] at h
    split
    · rfl
    · exact h

/-- The disk without the snapshot -/
def gone (num : UInt32) (st : Snapshots) : Snapshots :=
  st.modDir num fun dir => { dir with snapshot := false }

theorem checkSnapshot_gone (num : UInt32) (st : Snapshots) :
    (gone num st).checkSnapshot num = false := by
  rw [checkSnapshot_eq, gone, find_modDir, if_pos rfl]
  cases st.infoDirs.find num <;> rfl

theorem isSome_gone (num num' : UInt32) (st : Snapshots) :
    ((gone num st).infoDirs.find num').isSome = (st.infoDirs.find num').isSome := by
  rw [gone, find_modDir]
  split
  · exact Option.isSome_map
  · rfl

/-- The unmounting, the opening of the directory or the ioctl fails. -/
def FilesystemFails (env : Env) : Prop :=
  env.fails .umountSnapshot = true ∨ env.fails .openFilesystemInfoDir = true ∨
    env.fails .deleteSubvolume = true

/-- A subvolume is in a directory. -/
theorem isSome_of_checkSnapshot {st : Snapshots} {num : UInt32} (h : st.checkSnapshot num = true) :
    (st.infoDirs.find num).isSome = true := by
  unfold Creation.Snapshots.checkSnapshot at h
  cases hdir : st.infoDirs.find num with
  | none =>
    rw [hdir] at h
    cases h
  | some dir => rfl

section

variable {env : Env} {st : Snapshots} {s : Snapshot}

theorem throwIf_run {b : Bool} {e : DeleteError} (h : b = true) :
    (Act.throwIf b e : Delete PUnit).run st = (.error e, st) := by
  rw [h]
  rfl

theorem throwIf_skip {b : Bool} {e : DeleteError} (h : b = false) :
    (Act.throwIf b e : Delete PUnit).run st = (.ok ⟨⟩, st) := by
  rw [h]
  rfl

/-- The snapshot is deleted where it is and nothing fails. -/
theorem deleteFilesystemSnapshot_done (hcurrent : s.isCurrent = false)
    (hthere : st.checkSnapshot s.num = true) (h : ¬FilesystemFails env) :
    (deleteFilesystemSnapshot env s).run st = (.ok ⟨⟩, gone s.num st) := by
  simp only [FilesystemFails, not_or, Bool.not_eq_true] at h
  obtain ⟨humount, hopen, hioctl⟩ := h
  have hmissing : (st.infoDirs.find s.num).isNone = false :=
    Option.isNone_eq_false_iff.mpr (isSome_of_checkSnapshot hthere)
  have hdir : (openDir env .openFilesystemInfoDir s.num).run st = (.ok ⟨⟩, st) :=
    throwIf_skip (Bool.or_eq_false_iff.mpr ⟨hopen, hmissing⟩)
  unfold deleteFilesystemSnapshot
  rw [Act.run_bind_ok (throwIf_skip hcurrent), Act.run_bind_ok (throwIf_skip humount),
    Act.run_bind_ok hdir, Act.run_bind_ok (Act.run_read _ st),
    Act.run_bind_ok (throwIf_skip (by rw [hioctl, hthere]; rfl))]
  rfl

/-- Otherwise nothing has happened. -/
theorem deleteFilesystemSnapshot_stopped (hcurrent : s.isCurrent = false)
    (h : FilesystemFails env ∨ st.checkSnapshot s.num = false) :
    ∃ e, e ≠ .IllegalSnapshotException ∧
      (deleteFilesystemSnapshot env s).run st = (.error e, st) := by
  unfold deleteFilesystemSnapshot
  rw [Act.run_bind_ok (throwIf_skip hcurrent)]
  cases humount : env.fails .umountSnapshot with
  | true => exact ⟨_, by simp, Act.run_bind_error (throwIf_run rfl)⟩
  | false =>
    rw [Act.run_bind_ok (throwIf_skip rfl)]
    cases hopen : (env.fails .openFilesystemInfoDir || (st.infoDirs.find s.num).isNone) with
    | true => exact ⟨_, by simp, Act.run_bind_error (throwIf_run hopen)⟩
    | false =>
      have hdir : (openDir env .openFilesystemInfoDir s.num).run st = (.ok ⟨⟩, st) :=
        throwIf_skip hopen
      rw [Act.run_bind_ok hdir, Act.run_bind_ok (Act.run_read _ st)]
      -- what is left of the three calls is the ioctl
      have hioctl : (env.fails .deleteSubvolume || !st.checkSnapshot s.num) = true := by
        obtain ⟨hopen, -⟩ := Bool.or_eq_false_iff.mp hopen
        rw [Bool.or_eq_true, Bool.not_eq_true']
        refine h.imp_left fun hfails => ?_
        obtain hfails | hfails | hfails := hfails
        · rw [humount] at hfails
          cases hfails
        · rw [hopen] at hfails
          cases hfails
        · exact hfails
      exact ⟨_, by simp, Act.run_bind_error (throwIf_run hioctl)⟩

/-! ## The whole deletion -/

/-- Of a snapshot in the list a deletion makes the subvolume go, then the files, then the
directory, and last the entry of the list. -/
theorem run_deleteSnapshot {i : Nat} (hs : st.entries[i]? = some s)
    (hcurrent : s.isCurrent = false) :
    (deleteSnapshot env i).run st =
      (do
        deleteFilesystemSnapshot env s
        cleanup env s.num st.entries
        Act.modify (Creation.Snapshots.removeDir s.num)
        Act.modify fun st => { st with entries := st.entries.eraseIdx i } :
          Delete PUnit).run st := by
  unfold deleteSnapshot
  rw [Act.run_bind_ok (Act.run_read _ st), hs]
  exact Act.run_bind_ok (throwIf_skip hcurrent)

/-- Whether the cleanup gets through does not depend on the subvolume. -/
theorem cleansUp_gone (num : UInt32) :
    CleansUp env (gone num st) num ↔ CleansUp env st num := by
  have hopens (call : Call) (num' : UInt32) :
      Opens env (gone num st) call num' ↔ Opens env st call num' := by
    rw [Opens, Opens, isSome_gone]
  have hentries : (gone num st).entries = st.entries := Creation.entries_modDir
  constructor
  · intro h
    refine ⟨(hopens _ _).mp h.own, h.entries, fun it hit hcurrent => ?_, h.infosDir⟩
    exact (hopens _ _).mp (h.each it (hentries ▸ hit) hcurrent)
  · intro h
    refine ⟨(hopens _ _).mpr h.own, h.entries, fun it hit hcurrent => ?_, h.infosDir⟩
    exact (hopens _ _).mpr (h.each it (hentries ▸ hit) hcurrent)

/-- How a deletion ends: before the snapshot of the file system is deleted, between that and the
list, or with both done. -/
inductive Outcome (env : Env) (st : Snapshots) (i : Nat) (num : UInt32) :
    Except DeleteError PUnit × Snapshots → Prop where
  | stopped (e : DeleteError) (h : FilesystemFails env ∨ st.checkSnapshot num = false) :
      Outcome env st i num (.error e, st)
  | halfway (st' : Snapshots) (hfilesystem : ¬FilesystemFails env)
      (hthere : st.checkSnapshot num = true) (hclean : ¬CleansUp env st num)
      (hentries : st'.entries = st.entries) (hgone : st'.checkSnapshot num = false) :
      Outcome env st i num (.error .IOErrorException, st')
  | deleted (st' : Snapshots) (hfilesystem : ¬FilesystemFails env)
      (hthere : st.checkSnapshot num = true) (hclean : CleansUp env st num)
      (hentries : st'.entries = st.entries.eraseIdx i) (hgone : st'.checkSnapshot num = false) :
      Outcome env st i num (.ok ⟨⟩, st')

/-- The three ways in which a deletion ends, each with the failing calls that lead to it. -/
theorem outcome {i : Nat} (hs : st.entries[i]? = some s) (hcurrent : s.isCurrent = false) :
    Outcome env st i s.num ((deleteSnapshot env i).run st) := by
  rw [run_deleteSnapshot hs hcurrent]
  -- the file system comes first, then the files of the directory
  by_cases h : FilesystemFails env ∨ st.checkSnapshot s.num = false
  · obtain ⟨e, -, hrun⟩ := deleteFilesystemSnapshot_stopped hcurrent h
    rw [Act.run_bind_error hrun]
    exact .stopped e h
  · rw [not_or, Bool.not_eq_false] at h
    obtain ⟨hfilesystem, hthere⟩ := h
    have hentries : (gone s.num st).entries = st.entries := Creation.entries_modDir
    have hcleanup := settles_cleanup env (gone s.num st) s.num _ (Same.refl _)
    rw [cleansUp_gone, hentries] at hcleanup
    obtain ⟨st', hsame, hcleanup⟩ := hcleanup
    have hgone : st'.checkSnapshot s.num = false :=
      (hsame.checkSnapshot s.num).trans (checkSnapshot_gone s.num st)
    rw [Act.run_bind_ok (deleteFilesystemSnapshot_done hcurrent hthere hfilesystem)]
    obtain ⟨hclean, hrun⟩ | ⟨hclean, hrun⟩ := hcleanup
    · rw [Act.run_bind_ok hrun, Act.run_bind_ok (Act.run_modify _ _), Act.run_modify]
      refine .deleted _ hfilesystem hthere hclean ?_ (checkSnapshot_removeDir hgone)
      show (st'.removeDir s.num).entries.eraseIdx i = _
      rw [Creation.entries_removeDir, hsame.entries, hentries]
    · rw [Act.run_bind_error hrun]
      exact .halfway st' hfilesystem hthere hclean (hsame.entries.trans hentries) hgone

end

/-! ## List and disk -/

/-- The entry at the position is still in the list, which is the one before. -/
def Listed (st st' : Snapshots) : Prop := st'.entries = st.entries

/-- The snapshot is in the list if and only if it is on disk. -/
def InStep (st st' : Snapshots) (num : UInt32) : Prop :=
  Listed st st' ↔ st'.checkSnapshot num = true

theorem eraseIdx_ne {l : List Snapshot} {i : Nat} {s : Snapshot} (hs : l[i]? = some s) :
    l.eraseIdx i ≠ l := by
  intro heq
  have hlength := congrArg List.length heq
  have hi := (List.getElem?_eq_some_iff.mp hs).1
  rw [List.length_eraseIdx_of_lt hi] at hlength
  omega

/-- For every list and every snapshot in it other than the current one: after the deletion, also
one that throws, the snapshot is in the list if and only if it is on disk, exactly when it was on
disk before and either it is not deleted there or every later call succeeds. -/
theorem in_step_iff (env : Env) (st : Snapshots) (i : Nat) (s : Snapshot)
    (hs : st.entries[i]? = some s) (hcurrent : s.isCurrent = false) :
    InStep st ((deleteSnapshot env i).run st).2 s.num ↔
      st.checkSnapshot s.num = true ∧ (FilesystemFails env ∨ CleansUp env st s.num) := by
  have houtcome : Outcome env st i s.num ((deleteSnapshot env i).run st) := outcome hs hcurrent
  unfold InStep Listed
  cases hrun : (deleteSnapshot env i).run st with
  | mk r st' =>
    rw [hrun] at houtcome
    -- stopped: nothing has changed; half way: gone from disk, still in the list
    cases houtcome with
    | stopped e h =>
      cases hthere : st.checkSnapshot s.num with
      | true =>
        rw [hthere] at h
        have hfails : FilesystemFails env := h.resolve_right (by simp)
        simp [hfails]
      | false => simp
    | halfway _ hfilesystem hthere hclean hentries hgone => simp [*]
    | deleted _ hfilesystem hthere hclean hentries hgone =>
      have hne : st'.entries ≠ st.entries := hentries ▸ eraseIdx_ne hs
      simp [hne, hgone, hthere, hclean]

def snapshot1 : Snapshot := Snapshot.new .SINGLE 1 0

def snapshot2 : Snapshot := Snapshot.new .SINGLE 2 0

/-- Two snapshots are listed, with a directory for the first one. -/
def missing2 : Snapshots where
  entries := [snapshot1, snapshot2]
  infoDirs := SortedMap.empty.set 1 ⟨true, .empty⟩

/-- Nothing fails by itself. -/
def works : Env := ⟨fun _ => false⟩

/-- The first of the two snapshots is deleted, and the directory of the second is missing. -/
theorem in_step_missing2 :
    InStep missing2 ((deleteSnapshot works 0).run missing2).2 snapshot1.num ↔
      missing2.checkSnapshot snapshot1.num = true ∧
        (FilesystemFails works ∨ CleansUp works missing2 snapshot1.num) :=
  in_step_iff works missing2 0 snapshot1 rfl rfl

/-- The missing directory of snapshot 2 keeps snapshot 1 in the list after it was deleted. -/
theorem not_in_step :
    missing2.entries[0]? = some snapshot1 ∧ snapshot1.isCurrent = false ∧
      missing2.checkSnapshot 1 = true ∧
      ((deleteSnapshot works 0).run missing2).1 = .error .IOErrorException ∧
      Listed missing2 ((deleteSnapshot works 0).run missing2).2 ∧
      ((deleteSnapshot works 0).run missing2).2.checkSnapshot 1 = false :=
  ⟨rfl, rfl, rfl, rfl, rfl, rfl⟩

end Snapper.Deletion
