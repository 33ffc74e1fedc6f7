import Snapper.Info.Deleting
import Snapper.Server.Creating

/-!
# The daemon and the info directories

The daemon's model has a config as its list of snapshots and a `Disk`, and every call that leaves
the daemon as one answer of the system.  `Creation` and `Deletion` follow the same two functions
down to the single calls on the info directories.  Here the two levels meet: what the detailed
functions do, the daemon's functions do as well, with the answers that the detailed run gives.

## Main results

- `create_bridge`: a creation in the daemon's model is one of the info directories
- `delete_bridge`: so is a deletion
- `calls_bridge`: after any creations and deletions, with any failures, the daemon has the list of
  the detailed model and sees its directories
-/

namespace Snapper

open General Act

/-! ## What the daemon sees of the directories -/

namespace Creation

/-- `Snapshots::read` adds the snapshot: it has its subvolume and a well-formed `info.xml`. -/
def InfoDir.loads (dir : InfoDir) : Bool :=
  dir.snapshot && (dir.files.find infoName).any Option.isSome

/-- A snapshot of the number is there, as far as `Snapshots::read` can tell. -/
def Snapshots.loads (num : UInt32) (st : Snapshots) : Bool :=
  (st.infoDirs.find num).any InfoDir.loads

/-- Nothing is different but the directory of the number. -/
def Apart (num : UInt32) (st st' : Snapshots) : Prop :=
  ∀ n, n ≠ num → st'.infoDirs.find n = st.infoDirs.find n

/-- As far as the daemon can tell, nothing is different but the directory of the number. -/
def Elsewhere (num : UInt32) (st st' : Snapshots) : Prop :=
  ∀ n, n ≠ num → (st'.infoDirs.find n).isSome = (st.infoDirs.find n).isSome ∧
    st'.loads n = st.loads n

variable {env : Env} {st st' : Snapshots} {s : Snapshot} {num : UInt32}

theorem Apart.elsewhere (h : Apart num st st') : Elsewhere num st st' := by
  intro n hne
  rw [Snapshots.loads, Snapshots.loads, h n hne]
  exact ⟨rfl, rfl⟩

theorem apart_modDir {f : InfoDir → InfoDir} (h : Apart num st st') :
    Apart num st (st'.modDir num f) := by
  intro n hne
  rw [← h n hne, Snapshots.modDir]
  split
  · rfl
  · exact (SortedMap.find_set ..).trans (if_neg hne)

theorem apart_removeDir (h : Apart num st st') : Apart num st (st'.removeDir num) := by
  intro n hne
  rw [← h n hne, Snapshots.removeDir]
  split
  · exact (SortedMap.find_erase ..).trans (if_neg hne)
  · rfl

/-- An action on the directory of a number -/
abbrev KeepsApart (num : UInt32) (st : Snapshots) {α : Type} (c : Create α) : Prop :=
  Spec (Apart num st) c (fun _ => Apart num st) fun _ => Apart num st

theorem keepsApart_check {call : Call} {e : CreateError} :
    KeepsApart num st (check env call e) :=
  Spec.throwIf (fun _ _ h => h) fun _ _ h => h

theorem keepsApart_modDir {f : InfoDir → InfoDir} :
    KeepsApart num st (Act.modify (Snapshots.modDir num f)) :=
  Spec.modify fun _ => apart_modDir

/-- Writing the info of one snapshot leaves the directories of the others alone. -/
theorem writeInfo_apart : KeepsApart s.num st (writeInfo env s) := by
  apply keepsApart_check.bind
  intro _
  apply keepsApart_check.bind
  intro _
  -- from here on there is the temporary file
  apply keepsApart_modDir.bind
  intro _
  apply keepsApart_check.bind
  intro _
  apply keepsApart_check.bind
  intro _
  apply keepsApart_modDir.bind
  intro _
  apply keepsApart_check.bind
  exact fun _ => keepsApart_modDir

/-- So does making its subvolume. -/
theorem createFilesystemSnapshot_apart :
    KeepsApart s.num st (createFilesystemSnapshot env s) := by
  apply Spec.bind (Q := fun _ => Apart s.num st)
  · exact Spec.throwIf (fun _ _ h => h) fun _ _ h => h
  intro _
  apply keepsApart_check.bind
  intro _
  apply keepsApart_check.bind
  intro _
  apply keepsApart_check.bind
  exact fun _ => keepsApart_modDir

/-- And so does the whole of `createHelper`, cleaning up included. -/
theorem createHelper_apart : KeepsApart s.num st (createHelper env s) := by
  have hremove (e : CreateError) : KeepsApart s.num st
      (Act.modify (Snapshots.removeDir s.num) >>= fun _ => throw e : Create PUnit) :=
    Spec.bind (Spec.modify fun _ => apart_removeDir) fun _ => Spec.throw fun _ h => h
  apply Spec.bind (Q := fun _ => Apart s.num st)
  · apply createFilesystemSnapshot_apart.tryCatch
    intro e
    exact Spec.ite (fun _ => hremove e) fun _ => Spec.throw fun _ h => h
  intro _
  apply Spec.bind (Q := fun _ => Apart s.num st)
  · have hflush : KeepsApart s.num st (flushInfo env s) :=
      Spec.ite (fun _ => writeInfo_apart.bind fun _ => Spec.pure fun _ h => h) fun _ =>
        Spec.pure fun _ h => h
    apply hflush.tryCatch
    intro e
    apply Spec.ite
    · intro _
      -- the snapshot of the file system goes before the directory
      apply keepsApart_modDir.bind
      intro _
      exact Spec.bind (Spec.modify fun _ => apart_removeDir) fun _ => Spec.throw fun _ h => h
    · exact fun _ => Spec.throw fun _ h => h
  · exact fun _ => Spec.modify fun _ h => h

end Creation

namespace Deletion

/-- Every other directory keeps its `info.xml`. -/
def KeptInfos (num : UInt32) (st st' : Snapshots) : Prop :=
  ∀ n, n ≠ num → (st'.infoDirs.find n).map (fun dir => dir.files.find infoName) =
    (st.infoDirs.find n).map fun dir => dir.files.find infoName

variable {env : Env} {st st' : Snapshots} {num num' : UInt32} {name : Str}

/-- A file is removed from the directory itself, or a file list from another one. -/
theorem keptInfos_erase (h : KeptInfos num st st') (hname : num' = num ∨ name ≠ infoName) :
    KeptInfos num st (st'.modDir num' fun dir => { dir with files := dir.files.erase name }) := by
  intro n hne
  rw [← h n hne, find_modDir]
  split
  · next heq =>
    have hother : name ≠ infoName := hname.resolve_left fun hnum => hne (heq.trans hnum)
    cases st'.infoDirs.find n with
    | none => rfl
    | some dir => exact congrArg some ((SortedMap.find_erase ..).trans (if_neg hother.symm))
  · rfl

/-- An action that keeps the infos of the others -/
abbrev KeepsInfos (num : UInt32) (st : Snapshots) (c : Delete PUnit) : Prop :=
  Spec (KeptInfos num st) c (fun _ => KeptInfos num st) fun _ => KeptInfos num st

theorem keepsInfos_throwIf {b : Bool} {e : DeleteError} :
    KeepsInfos num st (Act.throwIf b e) :=
  Spec.throwIf (fun _ _ h => h) fun _ _ h => h

theorem keepsInfos_openDir {call : Call} : KeepsInfos num st (openDir env call num') :=
  Spec.bind (Spec.read fun _ h => h) fun _ => keepsInfos_throwIf

theorem keepsInfos_unlink (hname : num' = num ∨ name ≠ infoName) :
    KeepsInfos num st (unlink env num' name) := by
  apply Spec.ite
  · exact fun _ => Spec.pure fun _ h => h
  · exact fun _ => Spec.modify fun _ h => keptInfos_erase h hname

theorem keepsInfos_unlinkAll (names : List Str) : KeepsInfos num st (unlinkAll env num names) := by
  induction names with
  | nil => exact Spec.pure fun _ h => h
  | cons name names ih => exact (keepsInfos_unlink (Or.inl rfl)).bind fun _ => ih

/-- Deleting the file lists in other directories leaves the infos there. -/
theorem keepsInfos_unlinkEach (entries : List Snapshot) :
    KeepsInfos num st (unlinkEach env num entries) := by
  induction entries with
  | nil => exact Spec.pure fun _ h => h
  | cons it rest ih =>
    refine Spec.bind (Q := fun _ => KeptInfos num st) ?_ fun _ => ih
    apply Spec.ite
    · exact fun _ => Spec.pure fun _ h => h
    · intro _
      apply keepsInfos_openDir.bind
      exact fun _ => keepsInfos_unlink (Or.inr (filelistName_ne_infoName _))

/-- The cleanup takes the info of the one number only. -/
theorem keepsInfos_cleanup (entries : List Snapshot) :
    KeepsInfos num st (cleanup env num entries) := by
  apply keepsInfos_openDir.bind
  intro _
  -- these two are in the directory itself
  apply (keepsInfos_unlink (Or.inl rfl)).bind
  intro _
  apply Spec.bind (Q := fun _ => KeptInfos num st)
  · apply keepsInfos_throwIf.bind
    intro _
    exact Spec.bind (Spec.read fun _ h => h) fun names => keepsInfos_unlinkAll names
  intro _
  apply (keepsInfos_unlinkEach entries).bind
  exact fun _ => keepsInfos_throwIf

/-- What the daemon sees of a directory is made of its subvolume and its `info.xml`. -/
theorem elsewhere_of_kept (hsame : Same st st') (hkept : KeptInfos num st st') :
    Creation.Elsewhere num st st' := by
  intro n hne
  have hsnapshots := hsame.snapshots n
  have hinfos := hkept n hne
  unfold Creation.Snapshots.loads
  -- without a directory there is none afterwards; with one its info and its subvolume are the old
  -- ones
  cases hdir : st.infoDirs.find n with
  | none =>
    rw [hdir] at hsnapshots
    rw [Option.map_eq_none_iff.mp hsnapshots]
    exact ⟨rfl, rfl⟩
  | some dir =>
    rw [hdir] at hsnapshots hinfos
    obtain ⟨dir', hdir', hsnapshot⟩ := Option.map_eq_some_iff.mp hsnapshots
    rw [hdir'] at hinfos ⊢
    have hfile : dir'.files.find infoName = dir.files.find infoName :=
      Option.some.inj hinfos
    rw [Option.any_some, Option.any_some, Creation.InfoDir.loads, Creation.InfoDir.loads,
      hsnapshot, hfile]
    exact ⟨rfl, rfl⟩

/-- The snapshot of the file system is deleted and files are, and nothing else is done. -/
structure Cleaned (num : UInt32) (st st' : Snapshots) : Prop where
  elsewhere : Creation.Elsewhere num st st'
  entries : st'.entries = st.entries
  exists_iff : (st'.infoDirs.find num).isSome = (st.infoDirs.find num).isSome
  gone : st'.checkSnapshot num = false

/-- What the cleanup has done to the directories, seen from the daemon: the number has no info and
no subvolume, and the others have theirs. -/
theorem cleaned_of_same (hsame : Same (gone num st) st') (hkept : KeptInfos num (gone num st) st') :
    Cleaned num st st' where
  elsewhere n hne := by
    have hgone : Creation.Apart num st (gone num st) := Creation.apart_modDir fun _ _ => rfl
    obtain ⟨hsome, hloads⟩ := elsewhere_of_kept hsame hkept n hne
    obtain ⟨hsome', hloads'⟩ := hgone.elsewhere n hne
    exact ⟨hsome.trans hsome', hloads.trans hloads'⟩
  entries := hsame.entries.trans Creation.entries_modDir
  exists_iff := by
    have hnone := hsame.isNone num
    rw [← Option.not_isSome, ← Option.not_isSome, isSome_gone] at hnone
    exact Bool.not_inj hnone
  gone := (hsame.checkSnapshot num).trans (checkSnapshot_gone num st)

/-- How the deletion of a listed snapshot ends, with all that the daemon sees of it. -/
inductive Ending (st : Snapshots) (i : Nat) (num : UInt32) :
    Except DeleteError PUnit × Snapshots → Prop where
  | stopped (e : DeleteError) (he : e ≠ .IllegalSnapshotException) : Ending st i num (.error e, st)
  | halfway (st' : Snapshots) (h : Cleaned num st st') :
      Ending st i num (.error .IOErrorException, st')
  | deleted (st' : Snapshots) (h : Cleaned num st st')
      (hsome : (st.infoDirs.find num).isSome = true) :
      Ending st i num (.ok ⟨⟩, { st'.removeDir num with entries := st.entries.eraseIdx i })

/-- How a deletion ends, with what the daemon can see of each way. -/
theorem ending {s : Snapshot} {i : Nat} (hs : st.entries[i]? = some s)
    (hcurrent : s.isCurrent = false) : Ending st i s.num ((deleteSnapshot env i).run st) := by
  rw [run_deleteSnapshot hs hcurrent]
  -- the file system comes first
  by_cases hstops : FilesystemFails env ∨ st.checkSnapshot s.num = false
  · obtain ⟨e, he, hrun⟩ := deleteFilesystemSnapshot_stopped hcurrent hstops
    rw [Act.run_bind_error hrun]
    exact .stopped e he
  · rw [not_or, Bool.not_eq_false] at hstops
    obtain ⟨hworks, hthere⟩ := hstops
    have hentries : (gone s.num st).entries = st.entries := Creation.entries_modDir
    -- then the directory is cleaned up, which may stop half way
    have hcleanup := settles_cleanup env (gone s.num st) s.num _ (.refl _)
    have hkept : KeptInfos s.num (gone s.num st)
        ((cleanup env s.num st.entries).run (gone s.num st)).2 :=
      (keepsInfos_cleanup st.entries).final fun _ _ => rfl
    rw [hentries] at hcleanup
    obtain ⟨st', hsame, hcleanup⟩ := hcleanup
    rw [Act.run_bind_ok (deleteFilesystemSnapshot_done hcurrent hthere hworks)]
    obtain ⟨-, hrun⟩ | ⟨-, hrun⟩ := hcleanup
    · rw [hrun] at hkept
      have hcleaned := cleaned_of_same hsame hkept
      rw [Act.run_bind_ok hrun, Act.run_bind_ok (Act.run_modify _ _), Act.run_modify,
        Creation.entries_removeDir, hcleaned.entries]
      exact .deleted st' hcleaned (isSome_of_checkSnapshot hthere)
    · rw [hrun] at hkept
      rw [Act.run_bind_error hrun]
      exact .halfway st' (cleaned_of_same hsame hkept)

end Deletion

namespace Server

/-- The config has the list of the detailed model, and its disk shows the info directories. -/
structure MetaSnapper.Views (st : Creation.Snapshots) (m : MetaSnapper) : Prop where
  loaded : m.isLoaded = true
  list : m.snapshots = st.entries
  nodup : m.disk.dirs.Nodup
  dirs : ∀ num, num ∈ m.disk.dirs ↔ (st.infoDirs.find num).isSome = true
  infos : ∀ num, num ∈ m.disk.infos.map Snapshot.num ↔ st.loads num = true

/-- The iterator points to a config that has the list and shows the directories. -/
def Daemon.Views (id : Nat) (st : Creation.Snapshots) (d : Daemon) : Prop :=
  ∃ m, d.metaSnapper id = some m ∧ m.Views st

variable {st st' : Creation.Snapshots} {m m' : MetaSnapper} {d : Daemon} {id : Nat}
  {num : UInt32} {s : Snapshot}

/-! ## The next number -/

/-- The numbers with a directory are those under which one is found. -/
theorem mem_keys_iff (st : Creation.Snapshots) (num : UInt32) :
    num ∈ st.infoDirs.entries.map Prod.fst ↔ (st.infoDirs.find num).isSome = true := by
  rw [Option.isSome_iff_exists, List.mem_map]
  constructor
  · rintro ⟨⟨num', dir⟩, hmem, rfl⟩
    exact ⟨dir, SortedMap.find_eq_some_iff.mpr hmem⟩
  · rintro ⟨dir, hdir⟩
    exact ⟨(num, dir), SortedMap.find_eq_some_iff.mp hdir, rfl⟩

/-- As many directories on either level -/
theorem MetaSnapper.Views.length (h : m.Views st) :
    m.disk.dirs.length = st.infoDirs.entries.length := by
  have hkeys : (st.infoDirs.entries.map Prod.fst).Nodup :=
    (List.pairwise_map.mpr st.infoDirs.sorted).imp fun hlt => ne_of_lt hlt
  have hperm : m.disk.dirs.Perm (st.infoDirs.entries.map Prod.fst) := by
    rw [List.perm_ext_iff_of_nodup h.nodup hkeys]
    exact fun num => (h.dirs num).trans (mem_keys_iff st num).symm
  rw [hperm.length_eq, List.length_map]

/-- Both levels take the same number. -/
theorem MetaSnapper.Views.freeNumber (h : m.Views st) :
    st.freeNumber = Server.freeNumber m.snapshots m.disk.dirs := by
  have htaken (num : UInt32) :
      (!st.checkSnapshot num && (st.infoDirs.find num).isNone) = decide (num ∉ m.disk.dirs) := by
    rw [Creation.Snapshots.checkSnapshot]
    simp only [h.dirs]
    cases st.infoDirs.find num <;> simp
  unfold Creation.Snapshots.freeNumber Server.freeNumber
  rw [h.list, h.length]
  exact congrArg (fun p => List.find? p _) (funext htaken)

/-- A free number has no directory. -/
theorem find_of_freeNumber (h : st.freeNumber = some num) : st.infoDirs.find num = none := by
  have hfree := List.find?_some h
  rw [Bool.and_eq_true] at hfree
  exact Option.isNone_iff_eq_none.mp hfree.2

/-! ## A change of one directory -/

/-- Where only one directory is different, on both levels, the one still shows the other. -/
theorem MetaSnapper.Views.step (h : m.Views st) (helsewhere : Creation.Elsewhere num st st')
    (hloaded : m'.isLoaded = true) (hlist : m'.snapshots = st'.entries)
    (hnodup : m'.disk.dirs.Nodup)
    (hdirs : ∀ n, n ≠ num → (n ∈ m'.disk.dirs ↔ n ∈ m.disk.dirs))
    (hdir : num ∈ m'.disk.dirs ↔ (st'.infoDirs.find num).isSome = true)
    (hinfos : ∀ n, n ≠ num →
      (n ∈ m'.disk.infos.map Snapshot.num ↔ n ∈ m.disk.infos.map Snapshot.num))
    (hinfo : num ∈ m'.disk.infos.map Snapshot.num ↔ st'.loads num = true) : m'.Views st' where
  loaded := hloaded
  list := hlist
  nodup := hnodup
  dirs n := by
    by_cases hn : n = num
    · rw [hn, hdir]
    · rw [hdirs n hn, h.dirs, (helsewhere n hn).1]
  infos n := by
    by_cases hn : n = num
    · rw [hn, hinfo]
    · rw [hinfos n hn, h.infos, (helsewhere n hn).2]

theorem mem_removeDir_iff {disk : Disk} {n : UInt32} {stays : Bool} (hne : n ≠ num) :
    n ∈ (disk.removeDir num stays).dirs ↔ n ∈ disk.dirs := by
  cases stays <;> simp [Disk.removeDir, hne]

theorem num_mem_removeDir_iff {disk : Disk} {stays : Bool} :
    num ∈ (disk.removeDir num stays).dirs ↔ stays = true ∧ num ∈ disk.dirs := by
  cases stays <;> simp [Disk.removeDir]

theorem removeDir_nodup {disk : Disk} {stays : Bool} (h : disk.dirs.Nodup) :
    (disk.removeDir num stays).dirs.Nodup := by
  cases stays with
  | true => exact h
  | false => exact h.filter _

/-- The numbers of the infos after one more is written -/
theorem mem_nums_write {disk : Disk} {n : UInt32} :
    n ∈ (disk.write s).infos.map Snapshot.num ↔
      n = s.num ∨ n ∈ disk.infos.map Snapshot.num := by
  have hnum : (Snapshot.stored s).num = s.num := rfl
  simp only [Disk.write, List.map_append, List.map_cons, List.map_nil, List.mem_append,
    List.mem_singleton, List.mem_map, List.mem_filter, decide_eq_true_eq, hnum]
  constructor
  · rintro (⟨s', ⟨hs', -⟩, rfl⟩ | rfl)
    · exact Or.inr ⟨s', hs', rfl⟩
    · exact Or.inl rfl
  · rintro (rfl | ⟨s', hs', rfl⟩)
    · exact Or.inr rfl
    · by_cases hne : s'.num = s.num
      · exact Or.inr hne
      · exact Or.inl ⟨s', ⟨hs', hne⟩, rfl⟩

/-- A new directory is seen by both. -/
theorem Daemon.Views.addDir (h : d.Views id st) (hfree : st.freeNumber = some num) :
    (d.modDisk id fun disk => { disk with dirs := disk.dirs ++ [num] }).Views id
      (st.take num) := by
  obtain ⟨m, hm, hviews⟩ := h
  have hnone := find_of_freeNumber hfree
  have hnot : num ∉ m.disk.dirs := by
    rw [hviews.dirs, hnone]
    exact Bool.false_ne_true
  have hnew : (st.take num).infoDirs.find num = some Creation.InfoDir.new :=
    (SortedMap.find_set ..).trans (if_pos rfl)
  have hapart : Creation.Apart num st (st.take num) := fun n hne =>
    (SortedMap.find_set ..).trans (if_neg hne)
  refine ⟨_, (metaSnapper_modMeta (by intro; rfl)).trans (congrArg _ hm), hviews.step
    hapart.elsewhere
    hviews.loaded hviews.list (List.nodup_append.mpr ⟨hviews.nodup, by simp, ?_⟩) ?_ ?_
    (fun _ _ => Iff.rfl) ?_⟩
  · rintro n hn n' hn' rfl
    rw [List.mem_singleton.mp hn'] at hn
    exact hnot hn
  · intro n hne
    simp [hne]
  · rw [hnew]
    simp
  · -- a new directory has no snapshot
    rw [hviews.infos, Creation.Snapshots.loads, Creation.Snapshots.loads, hnone, hnew]
    exact Iff.rfl

/-- The directory is removed, or stays, on both levels. -/
theorem Daemon.Views.removeDir {stays : Bool} (h : d.Views id st)
    (hapart : Creation.Apart num st st') (hentries : st'.entries = st.entries)
    (hdir : (st.infoDirs.find num).isSome = true) (hloads : st'.loads num = st.loads num)
    (hstays : stays = true ↔ (st'.infoDirs.find num).isSome = true) :
    (d.modDisk id (Disk.removeDir num stays)).Views id st' := by
  obtain ⟨m, hm, hviews⟩ := h
  refine ⟨_, (metaSnapper_modMeta (by intro; rfl)).trans (congrArg _ hm), hviews.step
    hapart.elsewhere
    hviews.loaded (hviews.list.trans hentries.symm) (removeDir_nodup hviews.nodup)
    (fun n hne => mem_removeDir_iff hne) ?_ (fun _ _ => Iff.rfl) ?_⟩
  · rw [num_mem_removeDir_iff, hstays, hviews.dirs, and_iff_left hdir]
  · rw [hloads]
    exact hviews.infos num

theorem Daemon.Views.of_stays (h : (d.modDisk id (Disk.removeDir num true)).Views id st) :
    d.Views id st := by
  obtain ⟨m', hm', hviews⟩ := h
  rw [Daemon.modDisk, metaSnapper_modMeta (by intro; rfl)] at hm'
  obtain ⟨m, hm, rfl⟩ := Option.map_eq_some_iff.mp hm'
  exact ⟨m, hm, ⟨hviews.loaded, hviews.list, hviews.nodup, hviews.dirs, hviews.infos⟩⟩

/-- A new snapshot is put into the list and on disk. -/
theorem Daemon.Views.insert (h : d.Views id st) (hapart : Creation.Apart s.num st st')
    (hentries : st'.entries = st.entries ++ [s.flushed])
    (hdir : (st.infoDirs.find s.num).isSome = true) (hloads : st'.loads s.num = true) :
    (d.insert id s).Views id st' := by
  obtain ⟨m, hm, hviews⟩ := h
  -- what can be loaded has a directory
  have hsome : (st'.infoDirs.find s.num).isSome = true := by
    rw [Creation.Snapshots.loads] at hloads
    cases hfind : st'.infoDirs.find s.num with
    | none =>
      rw [hfind] at hloads
      cases hloads
    | some dir => rfl
  refine ⟨_, (metaSnapper_modMeta (by intro; rfl)).trans (congrArg _ hm), hviews.step
    hapart.elsewhere
    ?_ ?_ hviews.nodup (fun _ _ => Iff.rfl) ?_ ?_ ?_⟩
  · exact (setSnapshots_isLoaded (f := (· ++ [s.flushed]))).trans hviews.loaded
  · rw [hentries, ← hviews.list]
    exact setSnapshots_snapshots (f := (· ++ [s.flushed])) hviews.loaded
  · exact iff_of_true ((hviews.dirs s.num).mpr hdir) hsome
  · exact fun n hne => mem_nums_write.trans (or_iff_right hne)
  · exact iff_of_true (mem_nums_write.mpr (Or.inl rfl)) hloads

/-! ## Creating -/

/-- The exception as the handlers see it -/
def createException : Creation.CreateError → Exception
  | .IOErrorException => .fault .IOErrorException
  | .CreateSnapshotFailedException => .fault .CreateSnapshotFailedException
  | .IllegalSnapshotException => .IllegalSnapshotException

/-- The exception of a failing call, which is never that for an illegal snapshot. -/
def callFault : Creation.Call → Fault
  | .createSnapshot => .CreateSnapshotFailedException
  | _ => .IOErrorException

theorem createException_error (call : Creation.Call) :
    createException call.error = .fault (callFault call) := by
  cases call <;> rfl

/-- What the daemon is told of a creation: the calls of `Btrfs::createSnapshot` and those of
`writeInfo` are one answer each, and a directory with a file in it stays. -/
def creationAnswers (env : Creation.Env) : Env :=
  { Env.quiet with
    time := env.time
    fault := fun
      | .mkdir =>
        if env.fails .openInfosDir || env.fails .mkdir then some .IOErrorException else none
      | .createFilesystemSnapshot =>
        (Creation.firstFailure env Creation.filesystemCalls).map callFault
      | .writeInfo _ _ => (Creation.firstFailure env Creation.infoCalls).map callFault
      | _ => none
    stays := fun _ =>
      (Creation.firstFailure env (Creation.filesystemCalls ++ Creation.infoCalls)).any
        fun call => !call.isCleanedUp }

/-- Both levels end alike: with the same exception, if any, and one shows the other. -/
def Alike {ε α : Type} (exception : ε → Exception) (id : Nat)
    (detailed : Except ε PUnit × Creation.Snapshots) (seen : Except Exception α × Daemon) : Prop :=
  seen.2.Views id detailed.2 ∧
    seen.1.map (fun _ => PUnit.unit) = detailed.1.mapError exception

/-- A result of its own at the end makes no difference. -/
theorem Alike.bind_pure {ε α β : Type} {exception : ε → Exception}
    {detailed : Except ε PUnit × Creation.Snapshots} {c : Handler α} {b : β}
    (h : Alike exception id detailed (c.run d)) :
    Alike exception id detailed ((c >>= fun _ => pure b).run d) := by
  rw [Act.run_bind]
  cases hrun : c.run d with
  | mk r d' =>
    rw [hrun] at h
    cases r with
    | ok a => exact h
    | error e => exact h

/-- A snapshot for which `checkSnapshot` finds nothing is not loaded. -/
theorem loads_of_any_snapshot
    (h : (st.infoDirs.find num).any Creation.InfoDir.snapshot = false) : st.loads num = false := by
  rw [Creation.Snapshots.loads]
  cases hfind : st.infoDirs.find num with
  | none => rfl
  | some dir =>
    rw [hfind, Option.any_some] at h
    rw [Option.any_some, Creation.InfoDir.loads, h, Bool.false_and]

variable {env : Creation.Env}

/-- After the directory is made the two creations go on alike: they fail with the same exception
and the same directories, or both have the snapshot. -/
theorem createHelper_bridge (h : d.Views id st) (hnum : s.num ≠ 0)
    (hmodified : s.infoModified = true)
    (hdir : st.infoDirs.find s.num = some Creation.InfoDir.new) :
    Alike createException id ((Creation.createHelper env s).run st)
      ((createHelper (creationAnswers env) id s).run d) := by
  have hcurrent : s.isCurrent = false := by simpa [Snapshot.isCurrent] using hnum
  have hapart : Creation.Apart s.num st ((Creation.createHelper env s).run st).2 :=
    Creation.createHelper_apart.final fun _ _ => rfl
  have hsome : (st.infoDirs.find s.num).isSome = true := by
    rw [hdir]
    rfl
  have hnew : st.loads s.num = false := by
    rw [Creation.Snapshots.loads, hdir]
    rfl
  have hfilesystem : (creationAnswers env).fault .createFilesystemSnapshot =
      (Creation.firstFailure env Creation.filesystemCalls).map callFault := rfl
  have hinfo : (creationAnswers env).fault (.writeInfo s.num false) =
      (Creation.firstFailure env Creation.infoCalls).map callFault := rfl
  cases hcall : Creation.firstFailure env (Creation.filesystemCalls ++ Creation.infoCalls) with
  | none =>
    obtain ⟨st', dir', hrun, hentries, hdir', hsnapshot, hfile⟩ :=
      Creation.createHelper_done hnum hmodified hdir hcall
    rw [Creation.firstFailure_append, Option.or_eq_none_iff] at hcall
    rw [hcall.1] at hfilesystem
    rw [hcall.2] at hinfo
    rw [createHelper_run hnum hfilesystem hinfo, hrun]
    rw [hrun] at hapart
    refine ⟨h.insert hapart hentries hsome ?_, rfl⟩
    rw [Creation.Snapshots.loads, hdir', Option.any_some, Creation.InfoDir.loads, hsnapshot, hfile]
    rfl
  | some call =>
    obtain ⟨st', hrun, hentries, hcheck, hleft⟩ :=
      Creation.createHelper_stopped hnum hmodified hdir hcall
    rw [hrun] at hapart ⊢
    have hstays : (creationAnswers env).stays s.num = !call.isCleanedUp := by
      show (Creation.firstFailure env _).any _ = _
      rw [hcall]
      rfl
    have hremoved : (d.modDisk id (Disk.removeDir s.num (!call.isCleanedUp))).Views id st' := by
      refine h.removeDir hapart hentries hsome ?_ ?_
      · rw [loads_of_any_snapshot hcheck, hnew]
      · rw [Bool.not_eq_true', ← Bool.not_eq_true, ← hleft, ← Option.isNone_iff_eq_none,
          Bool.not_eq_true, Option.isNone_eq_false_iff]
    rw [Creation.firstFailure_append] at hcall
    cases hfirst : Creation.firstFailure env Creation.filesystemCalls with
    | some call' =>
      obtain rfl : call' = call := by simpa [hfirst] using hcall
      rw [hfirst, Option.map_some] at hfilesystem
      cases hfault : callFault call' with
      | CreateSnapshotFailedException =>
        have hseen : (createHelper (creationAnswers env) id s).run d =
            (.error (.fault .CreateSnapshotFailedException),
              d.modDisk id (Disk.removeDir s.num (!call'.isCleanedUp))) := by
          simp [createHelper, Server.removeDir, Act.run_bind, Act.throwIf, hcurrent, hfilesystem,
            hfault, hstays]
        rw [hseen]
        refine ⟨hremoved, ?_⟩
        rw [Except.mapError, createException_error, hfault]
        rfl
      | IOErrorException =>
        -- nothing is cleaned up
        have hkept : call'.isCleanedUp = false := by
          have hmem : call' ∈ Creation.filesystemCalls := List.mem_of_find?_eq_some hfirst
          simp only [Creation.filesystemCalls, List.mem_cons, List.not_mem_nil, or_false] at hmem
          obtain rfl | rfl | rfl := hmem
          · rfl
          · rfl
          · cases hfault
        have hseen : (createHelper (creationAnswers env) id s).run d =
            (.error (.fault .IOErrorException), d) := by
          simp [createHelper, Act.run_bind, Act.throwIf, hcurrent, hfilesystem, hfault]
        rw [hkept] at hremoved
        rw [hseen]
        refine ⟨hremoved.of_stays, ?_⟩
        rw [Except.mapError, createException_error, hfault]
        rfl
      | _ => cases call' <;> cases hfault
    | none =>
      have hinfoCall : Creation.firstFailure env Creation.infoCalls = some call := by
        simpa [hfirst] using hcall
      rw [hfirst, Option.map_none] at hfilesystem
      rw [hinfoCall, Option.map_some] at hinfo
      have hfault : callFault call = .IOErrorException := by
        have hmem : call ∈ Creation.infoCalls := List.mem_of_find?_eq_some hinfoCall
        simp only [Creation.infoCalls, List.mem_cons, List.not_mem_nil, or_false] at hmem
        obtain rfl | rfl | rfl | rfl | rfl := hmem <;> rfl
      have hundo : (creationAnswers env).fault .undoCreate = none := rfl
      have hseen : (createHelper (creationAnswers env) id s).run d =
          (.error (.fault .IOErrorException),
            d.modDisk id (Disk.removeDir s.num (!call.isCleanedUp))) := by
        simp [createHelper, Server.removeDir, Server.call, Act.run_bind, Act.throwIf, hcurrent,
          hfilesystem, hinfo, hfault, hundo, hstays]
      rw [hseen]
      refine ⟨hremoved, ?_⟩
      rw [Except.mapError, createException_error, hfault]
      rfl

/-- The detailed creation and the one of the daemon end alike, with the answers that the daemon
gets read off the failing calls of the detailed one. -/
theorem createSnapshot_bridge (type : SnapshotType) (preNum : UInt32) (description : Str)
    (h : d.Views id st) :
    Alike createException id ((Creation.createSnapshot env type preNum description).run st)
      ((createSnapshot (creationAnswers env) id type preNum description).run d) := by
  obtain ⟨m, hm, hviews⟩ := h
  have hnext : (nextNumber (creationAnswers env) id).run d = _ := nextNumber_at hm
  rw [← hviews.freeNumber] at hnext
  -- the daemon has one answer for what are two calls
  have hmkdir : (creationAnswers env).fault .mkdir =
      if env.fails .openInfosDir || env.fails .mkdir then some .IOErrorException else none := rfl
  by_cases hstops : env.fails .openInfosDir = true ∨ st.freeNumber = none ∨
      env.fails .mkdir = true
  · -- no directory is made
    have hseen : (nextNumber (creationAnswers env) id).run d =
        (.error (.fault .IOErrorException), d) := by
      rw [hnext]
      cases hfree : st.freeNumber with
      | none => rfl
      | some num =>
        have hfails : (env.fails .openInfosDir || env.fails .mkdir) = true := by
          simpa [hfree] using hstops
        rw [hmkdir, hfails]
        rfl
    have hdetailed : (Creation.createSnapshot env type preNum description).run st =
        (.error .IOErrorException, st) := Act.run_bind_error (Creation.nextNumber_stopped hstops)
    have hrun : (createSnapshot (creationAnswers env) id type preNum description).run d =
        (.error (.fault .IOErrorException), d) := Act.run_bind_error hseen
    rw [hdetailed, hrun]
    exact ⟨⟨m, hm, hviews⟩, rfl⟩
  · simp only [not_or, Bool.not_eq_true] at hstops
    obtain ⟨hopen, hsome, hmade⟩ := hstops
    obtain ⟨num, hfree⟩ := Option.ne_none_iff_exists'.mp hsome
    rw [hfree, hmkdir, hopen, hmade] at hnext
    have hdetailed : (Creation.createSnapshot env type preNum description).run st = _ :=
      Act.run_bind_ok (Creation.nextNumber_done hopen hfree hmade)
    have htime : (creationAnswers env).time = env.time := rfl
    unfold createSnapshot
    rw [hdetailed, Act.run_bind_ok hnext, htime]
    have hadded : (d.modDisk id fun disk => { disk with dirs := disk.dirs ++ [num] }).Views id
        (st.take num) := Daemon.Views.addDir ⟨m, hm, hviews⟩ hfree
    set snapshot : Snapshot := { Snapshot.new type num env.time with
      preNum := preNum, description := description, infoModified := true }
    apply Alike.bind_pure
    by_cases hzero : num = 0
    · -- the number is that of the current system, and the new directory stays
      have hcurrent : snapshot.isCurrent = true := decide_eq_true hzero
      have hseen (d : Daemon) : (createHelper (creationAnswers env) id snapshot).run d =
          (.error .IllegalSnapshotException, d) := by
        simp [createHelper, Act.run_bind, Act.throwIf, hcurrent]
      rw [Creation.createHelper_current hzero, hseen]
      exact ⟨hadded, rfl⟩
    · exact createHelper_bridge hadded hzero rfl ((SortedMap.find_set ..).trans (if_pos rfl))

/-- The requests as the daemon serves them -/
def createRequest (env : Env) (id : Nat) : Creation.Request → Handler UInt32
  | .single description => createSingleSnapshot env id description
  | .pre description => createPreSnapshot env id description
  | .post description pre => createPostSnapshot env id description pre

/-- Whatever fails, the daemon creates what the detailed functions create. -/
theorem create_bridge (request : Creation.Request) (h : d.Views id st) :
    Alike createException id ((request.create env).run st)
      ((createRequest (creationAnswers env) id request).run d) := by
  -- the three requests differ in the check on the pre snapshot
  cases request with
  | single description => exact createSnapshot_bridge .SINGLE 0 description h
  | pre description => exact createSnapshot_bridge .PRE 0 description h
  | post description pre =>
    have hlist : d.snapshots id = st.entries := by
      obtain ⟨m, hm, hviews⟩ := h
      rw [snapshots_of_metaSnapper hm, hviews.list]
    unfold Creation.Request.create Creation.createPostSnapshot createRequest createPostSnapshot
    rw [Act.run_bind_ok (Act.run_read _ st), Act.run_bind_ok (Act.run_read _ d), hlist]
    cases pre with
    | none => exact ⟨h, rfl⟩
    | some pre =>
      have hrefuses : Creation.refuses (some pre) st =
          decide (pre.isCurrent = true ∨ pre.type ≠ .PRE ∨ hasPost st.entries pre = true) := by
        simp [Creation.refuses, Bool.or_assoc]
      rw [hrefuses]
      dsimp only
      split
      · next hrefused =>
        rw [decide_eq_true hrefused]
        exact ⟨h, rfl⟩
      · next hrefused =>
        rw [decide_eq_false hrefused]
        exact createSnapshot_bridge .POST pre.num description h

/-! ## Deleting -/

/-- The exception as the handlers see it -/
def deleteException : Deletion.DeleteError → Exception
  | .IllegalSnapshotException => .IllegalSnapshotException
  | .UmountSnapshotFailedException => .fault .UmountSnapshotFailedException
  | .DeleteSnapshotFailedException => .fault .DeleteSnapshotFailedException
  | .IOErrorException => .fault .IOErrorException

/-- What the daemon is told of a deletion: how the snapshot of the file system goes, how the files
go, and whether the directory stays. -/
def deletionAnswers (filesystem info : Option Fault) (stays : Bool) : Env :=
  { Env.quiet with
    fault := fun
      | .deleteFilesystemSnapshot _ => filesystem
      | .deleteInfo _ => info
      | _ => none
    stays := fun _ => stays }

/-- Taking the infos of a number away leaves those of the others. -/
theorem mem_nums_filter {disk : Disk} {n : UInt32} :
    n ∈ (disk.infos.filter (·.num ≠ num)).map Snapshot.num ↔
      n ≠ num ∧ n ∈ disk.infos.map Snapshot.num := by
  simp only [List.mem_map, List.mem_filter, decide_eq_true_eq]
  constructor
  · rintro ⟨s, ⟨hs, hne⟩, rfl⟩
    exact ⟨hne, s, hs, rfl⟩
  · rintro ⟨hne, s, hs, rfl⟩
    exact ⟨s, ⟨hs, hne⟩, rfl⟩

/-- Only the list still has the snapshot. -/
theorem Daemon.Views.loseInfo (h : d.Views id st) (hcleaned : Deletion.Cleaned num st st') :
    (d.loseInfo id num).Views id st' := by
  have hloads : st'.loads num = false := loads_of_any_snapshot hcleaned.gone
  obtain ⟨m, hm, hviews⟩ := h
  refine ⟨_, (metaSnapper_modMeta (by intro; rfl)).trans (congrArg _ hm), hviews.step
    hcleaned.elsewhere hviews.loaded (hviews.list.trans hcleaned.entries.symm) hviews.nodup
    (fun _ _ => Iff.rfl) ?_ ?_ ?_⟩
  · rw [hcleaned.exists_iff]
    exact hviews.dirs num
  · exact fun n hne => mem_nums_filter.trans (and_iff_right hne)
  · refine iff_of_false (fun hmem => (mem_nums_filter.mp hmem).1 rfl) ?_
    rw [hloads]
    exact Bool.false_ne_true

/-- At the end directory and entry go. -/
theorem Daemon.Views.erase {stays : Bool} (h : d.Views id st)
    (hapart : Creation.Apart num st st')
    (hentries : st'.entries = st.entries.eraseP (·.num = num))
    (hdir : (st.infoDirs.find num).isSome = true) (hloads : st'.loads num = st.loads num)
    (hstays : stays = true ↔ (st'.infoDirs.find num).isSome = true) :
    (d.erase id num stays).Views id st' := by
  obtain ⟨m, hm, hviews⟩ := h
  refine ⟨_, (metaSnapper_modMeta (by intro; rfl)).trans (congrArg _ hm), hviews.step
    hapart.elsewhere ?_ ?_ (removeDir_nodup hviews.nodup) (fun n hne => mem_removeDir_iff hne) ?_
    (fun _ _ => Iff.rfl) ?_⟩
  · exact (setSnapshots_isLoaded (f := (·.eraseP (·.num = num)))).trans hviews.loaded
  · rw [hentries, ← hviews.list]
    exact setSnapshots_snapshots (f := (·.eraseP (·.num = num))) hviews.loaded
  · rw [num_mem_removeDir_iff, hstays, hviews.dirs, and_iff_left hdir]
  · rw [hloads]
    exact hviews.infos num

/-- In a list without duplicate numbers the position and the number erase the same. -/
theorem eraseIdx_eq_eraseP {l : List Snapshot} {i : Nat} (hnodup : (l.map Snapshot.num).Nodup)
    (hs : l[i]? = some s) : l.eraseIdx i = l.eraseP (·.num = s.num) := by
  induction l generalizing i with
  | nil => cases hs
  | cons a l ih =>
    rw [List.map_cons, List.nodup_cons] at hnodup
    cases i with
    | zero =>
      obtain rfl := Option.some.inj hs
      rw [List.eraseIdx_zero, List.eraseP_cons_of_pos (by simp), List.tail_cons]
    | succ i =>
      have hmem : s ∈ l := List.mem_of_getElem? hs
      have hne : a.num ≠ s.num := fun heq =>
        hnodup.1 (heq ▸ List.mem_map_of_mem hmem)
      rw [List.eraseIdx_cons_succ, List.eraseP_cons_of_neg (by simpa using hne), ih hnodup.2 hs]

/-- For every deletion there are answers with which the deletion of the daemon ends alike: it is
stopped before anything is done, half way with the info gone, or it goes to its end. -/
theorem delete_bridge (env : Deletion.Env) (h : d.Views id st)
    (hnodup : (st.entries.map Snapshot.num).Nodup) (i : Nat) :
    ∃ answers, Alike deleteException id ((Deletion.deleteSnapshot env i).run st)
      ((deleteSnapshot answers id st.entries[i]?).run d) := by
  have hread : (Act.read Creation.Snapshots.entries : Deletion.Delete _).run st =
      (.ok st.entries, st) := Act.run_read _ _
  cases hs : st.entries[i]? with
  | none =>
    -- not in the list: both refuse
    refine ⟨Env.quiet, ?_⟩
    unfold Deletion.deleteSnapshot
    rw [Act.run_bind_ok hread, hs]
    exact ⟨h, rfl⟩
  | some s =>
    cases hcurrent : s.isCurrent with
    | true =>
      -- the current snapshot is refused by both
      refine ⟨Env.quiet, ?_⟩
      unfold Deletion.deleteSnapshot deleteSnapshot
      rw [Act.run_bind_ok hread, hs]
      dsimp only
      rw [hcurrent]
      exact ⟨h, rfl⟩
    | false =>
      have hending : Deletion.Ending st i s.num ((Deletion.deleteSnapshot env i).run st) :=
        Deletion.ending hs hcurrent
      generalize (Deletion.deleteSnapshot env i).run st = result at hending ⊢
      -- one answer for each way in which the detailed deletion ends
      cases hending with
      | stopped e he =>
        obtain ⟨fault, hfault⟩ : ∃ fault, deleteException e = .fault fault := by
          cases e with
          | IllegalSnapshotException => exact absurd rfl he
          | _ => exact ⟨_, rfl⟩
        refine ⟨deletionAnswers (some fault) none false, ?_⟩
        have hseen : (deleteSnapshot (deletionAnswers (some fault) none false) id (some s)).run d =
            (.error (.fault fault), d) := by
          simp [deleteSnapshot, Act.run_bind, call, hcurrent, deletionAnswers]
        rw [hseen]
        refine ⟨h, ?_⟩
        rw [Except.mapError, hfault]
        rfl
      | halfway st' hcleaned =>
        refine ⟨deletionAnswers none (some .IOErrorException) false, ?_⟩
        have hseen : (deleteSnapshot (deletionAnswers none (some .IOErrorException) false) id
            (some s)).run d = (.error (.fault .IOErrorException), d.loseInfo id s.num) := by
          simp [deleteSnapshot, Act.run_bind, call, hcurrent, deletionAnswers]
        rw [hseen]
        exact ⟨h.loseInfo hcleaned, rfl⟩
      | deleted st' hcleaned hsome =>
        have hloads : (st'.removeDir s.num).loads s.num = st'.loads s.num := by
          rw [loads_of_any_snapshot hcleaned.gone]
          exact loads_of_any_snapshot (Deletion.checkSnapshot_removeDir hcleaned.gone)
        set stays : Bool := ((st'.removeDir s.num).infoDirs.find s.num).isSome
        refine ⟨deletionAnswers none none stays, ?_⟩
        have hseen : (deleteSnapshot (deletionAnswers none none stays) id (some s)).run d =
            (.ok ⟨⟩, (d.loseInfo id s.num).erase id s.num stays) := by
          simp [deleteSnapshot, Act.run_bind, call, hcurrent, deletionAnswers]
        rw [hseen]
        refine ⟨(h.loseInfo hcleaned).erase (Creation.apart_removeDir fun _ _ => rfl) ?_
          (hcleaned.exists_iff.trans hsome) hloads Iff.rfl, rfl⟩
        rw [hcleaned.entries]
        exact eraseIdx_eq_eraseP hnodup hs

end Server

/-! ## Whole runs -/

/-- The numbers of the list stand once, and every snapshot other than the current one has its
directory. -/
structure Creation.Snapshots.Listed (st : Creation.Snapshots) : Prop where
  nodup : (st.entries.map Snapshot.num).Nodup
  dirs : ∀ s ∈ st.entries, s.num ≠ 0 → (st.infoDirs.find s.num).isSome = true

namespace Creation

variable {env : Env} {st st' : Snapshots} {s : Snapshot} {num : UInt32}

/-- A number without a directory is new to the list. -/
theorem Snapshots.Listed.not_mem (h : st.Listed) (hfree : st.infoDirs.find num = none)
    (hzero : num ≠ 0) : num ∉ st.entries.map Snapshot.num := by
  intro hmem
  obtain ⟨s, hs, rfl⟩ := List.mem_map.mp hmem
  have hdir := h.dirs s hs hzero
  rw [hfree] at hdir
  cases hdir

/-- Other directories are as before, and the list as well. -/
theorem Snapshots.Listed.apart (h : st.Listed) (hfree : st.infoDirs.find num = none)
    (hapart : Apart num st st') (hentries : st'.entries = st.entries) : st'.Listed where
  nodup := by
    rw [hentries]
    exact h.nodup
  dirs s hs hzero := by
    rw [hentries] at hs
    have hne : s.num ≠ num := by
      rintro rfl
      exact h.not_mem hfree hzero (List.mem_map_of_mem hs)
    rw [hapart _ hne]
    exact h.dirs s hs hzero

/-- After a creation, also one that fails, what is in the list has a directory. -/
theorem createSnapshot_listed (type : SnapshotType) (preNum : UInt32) (description : Str)
    (h : st.Listed) : ((createSnapshot env type preNum description).run st).2.Listed := by
  by_cases hstops : env.fails .openInfosDir = true ∨ st.freeNumber = none ∨
      env.fails .mkdir = true
  · have hrun : (createSnapshot env type preNum description).run st =
        (.error .IOErrorException, st) := Act.run_bind_error (nextNumber_stopped hstops)
    rw [hrun]
    exact h
  simp only [not_or, Bool.not_eq_true] at hstops
  obtain ⟨hopen, hsome, hmade⟩ := hstops
  obtain ⟨num, hnum⟩ := Option.ne_none_iff_exists'.mp hsome
  have hfree := Server.find_of_freeNumber hnum
  have hrun : (createSnapshot env type preNum description).run st = _ :=
    Act.run_bind_ok (nextNumber_done hopen hnum hmade)
  rw [hrun]
  set s : Snapshot := { Snapshot.new type num env.time with
    preNum := preNum, description := description, infoModified := true }
  have hdir : (st.take num).infoDirs.find num = some InfoDir.new :=
    (SortedMap.find_set ..).trans (if_pos rfl)
  have htake : Apart num st (st.take num) := fun n hne =>
    (SortedMap.find_set ..).trans (if_neg hne)
  have hapart : Apart num st ((createHelper env s).run (st.take num)).2 := by
    have hhelper : Apart num (st.take num) ((createHelper env s).run (st.take num)).2 :=
      (createHelper_apart (s := s)).final fun _ _ => rfl
    exact fun n hne => (hhelper n hne).trans (htake n hne)
  by_cases hzero : num = 0
  · rw [createHelper_current (s := s) hzero]
    exact h.apart hfree htake rfl
  · cases hcall : firstFailure env (filesystemCalls ++ infoCalls) with
    | some call =>
      obtain ⟨st', hstopped, hentries, -⟩ :=
        createHelper_stopped (s := s) hzero rfl hdir hcall
      rw [hstopped] at hapart ⊢
      exact h.apart hfree hapart hentries
    | none =>
      obtain ⟨st', dir', hdone, hentries, hdir', -⟩ :=
        createHelper_done (s := s) hzero rfl hdir hcall
      rw [hdone] at hapart ⊢
      -- the one more in the list has the free number
      have hentries : st'.entries = st.entries ++ [s.flushed] := hentries
      have hnot := h.not_mem hfree hzero
      constructor
      · rw [hentries, List.map_append]
        refine List.nodup_append.mpr ⟨h.nodup, by simp, ?_⟩
        rintro n hn n' hn' rfl
        rw [List.map_singleton, List.mem_singleton] at hn'
        subst hn'
        exact hnot hn
      · intro s' hs' hzero'
        rw [hentries, List.mem_append, List.mem_singleton] at hs'
        obtain hold | rfl := hs'
        · have hne : s'.num ≠ num := fun heq => hnot (heq ▸ List.mem_map_of_mem hold)
          rw [hapart _ hne]
          exact h.dirs s' hold hzero'
        · show (st'.infoDirs.find num).isSome = true
          have hdir' : st'.infoDirs.find num = some dir' := hdir'
          rw [hdir']
          rfl

/-- The same for the three requests. -/
theorem Request.create_listed (request : Request) (h : st.Listed) :
    ((request.create env).run st).2.Listed := by
  cases request with
  | single description => exact createSnapshot_listed .SINGLE 0 description h
  | pre description => exact createSnapshot_listed .PRE 0 description h
  | post description pre =>
    unfold Request.create createPostSnapshot
    rw [Act.run_bind_ok (Act.run_read _ st)]
    cases refuses pre st with
    | true => exact h
    | false => exact createSnapshot_listed .POST _ description h

end Creation

namespace Deletion

variable {env : Env} {st st' : Snapshots} {num : UInt32}

/-- A directory that was cleaned up is still there, so the list is as well founded as before. -/
theorem Cleaned.listed (hcleaned : Cleaned num st st') (h : st.Listed) : st'.Listed where
  nodup := by
    rw [hcleaned.entries]
    exact h.nodup
  dirs s hs hzero := by
    rw [hcleaned.entries] at hs
    have hdir := h.dirs s hs hzero
    by_cases hnum : s.num = num
    · rw [hnum] at hdir ⊢
      rwa [hcleaned.exists_iff]
    · rwa [(hcleaned.elsewhere _ hnum).1]

/-- After a deletion, also one that stops half way, what is in the list has a directory. -/
theorem deleteSnapshot_listed (i : Nat) (h : st.Listed) :
    ((deleteSnapshot env i).run st).2.Listed := by
  have hread : (Act.read Creation.Snapshots.entries : Delete _).run st = (.ok st.entries, st) :=
    Act.run_read _ _
  cases hs : st.entries[i]? with
  | none =>
    unfold deleteSnapshot
    rw [Act.run_bind_ok hread, hs]
    exact h
  | some s =>
    cases hcurrent : s.isCurrent with
    | true =>
      unfold deleteSnapshot
      rw [Act.run_bind_ok hread, hs]
      dsimp only
      rw [hcurrent]
      exact h
    | false =>
      have hending : Ending st i s.num ((deleteSnapshot env i).run st) := ending hs hcurrent
      generalize (deleteSnapshot env i).run st = result at hending ⊢
      cases hending with
      | stopped e he => exact h
      | halfway st' hcleaned => exact hcleaned.listed h
      | deleted st' hcleaned hsome =>
        have hlisted := hcleaned.listed h
        have hremoved : Creation.Apart s.num st' (st'.removeDir s.num) :=
          Creation.apart_removeDir fun _ _ => rfl
        have herase := Server.eraseIdx_eq_eraseP h.nodup hs
        constructor
        · show ((st.entries.eraseIdx i).map Snapshot.num).Nodup
          rw [herase]
          exact (List.eraseP_sublist.map _).nodup h.nodup
        · intro s' hs' hzero
          have hs' : s' ∈ st.entries.eraseIdx i := hs'
          rw [herase] at hs'
          -- the number of the removed directory has left the list
          obtain ⟨hmem, hne⟩ := (mem_eraseP_iff h.nodup).mp hs'
          rw [← hcleaned.entries] at hmem
          show ((st'.removeDir s.num).infoDirs.find s'.num).isSome = true
          rw [hremoved _ hne]
          exact hlisted.dirs s' hmem hzero

end Deletion

/-- A call on a config, with the calls of the system that fail in it -/
inductive InfosCall where
  | create (env : Creation.Env) (request : Creation.Request)
  | delete (env : Deletion.Env) (i : Nat)

/-- What the call does to list and directories -/
def InfosCall.step (st : Creation.Snapshots) : InfosCall → Creation.Snapshots
  | create env request => ((request.create env).run st).2
  | delete env i => ((Deletion.deleteSnapshot env i).run st).2

namespace Server

/-- What the daemon does in its place, with what the system answers -/
def serveCall (id : Nat) (d : Daemon) : InfosCall × Env → Daemon
  | (.create _ request, answers) => ((createRequest answers id request).run d).2
  | (.delete _ i, answers) => ((deleteSnapshot answers id (d.snapshots id)[i]?).run d).2

variable {st : Creation.Snapshots} {d : Daemon} {id : Nat}

/-- One call more -/
theorem call_bridge (c : InfosCall) (h : d.Views id st) (hlisted : st.Listed) :
    (∃ answers, (serveCall id d (c, answers)).Views id (c.step st)) ∧ (c.step st).Listed := by
  cases c with
  | create env request =>
    exact ⟨⟨creationAnswers env, (create_bridge request h).1⟩, request.create_listed hlisted⟩
  | delete env i =>
    have hlist : d.snapshots id = st.entries := by
      obtain ⟨m, hm, hviews⟩ := h
      rw [snapshots_of_metaSnapper hm, hviews.list]
    obtain ⟨answers, halike⟩ := delete_bridge env h hlisted.nodup i
    rw [← hlist] at halike
    exact ⟨⟨answers, halike.1⟩, Deletion.deleteSnapshot_listed i hlisted⟩

/-- Whatever fails in any creations and deletions, there are answers of the system with which the
daemon has the list of the detailed model after them and its disk shows the directories. -/
theorem calls_bridge (calls : List InfosCall) (h : d.Views id st) (hlisted : st.Listed) :
    ∃ answers : List Env, answers.length = calls.length ∧
      ((calls.zip answers).foldl (serveCall id) d).Views id (calls.foldl InfosCall.step st) := by
  induction calls generalizing d st with
  | nil => exact ⟨[], rfl, h⟩
  | cons c calls ih =>
    obtain ⟨⟨answer, hviews⟩, hlisted'⟩ := call_bridge c h hlisted
    obtain ⟨answers, hlength, hrest⟩ := ih hviews hlisted'
    exact ⟨answer :: answers, congrArg Nat.succ hlength, hrest⟩

end Server

end Snapper
