import Snapper.Comparison.Reuse
import Snapper.Server.Creating
import Snapper.Server.Links

/-!
# The store of file lists and the daemon

`Store` has of a config only what file lists depend on: the numbers of its snapshots, with their
trees and times, and the directories.  The daemon's model has the same numbers and directories,
and no trees.  Creating and deleting keep the two in step, so that the numbers that `Store` uses
again are those that the daemon uses again.

## Main results

- `mirrors_create`, `mirrors_delete`: one call on both
- `mirrors_steps`: any calls on both
-/

namespace Snapper

open General

namespace Server

/-- The daemon has the snapshots of the store after the current one, and the directories. -/
def Daemon.Mirrors (id : Nat) (store : Store) (d : Daemon) : Prop :=
  ∃ snapshots, d.Shows id snapshots store.dirs ∧
    snapshots.map Snapshot.num = 0 :: store.entries.map Kept.num ∧
      ∀ s ∈ store.entries, s.num ≠ 0

variable {id : Nat} {d : Daemon} {store : Store} {snapshots : List Snapshot} {num : UInt32}

/-- The last number is that of the store, or the one of the current snapshot. -/
theorem last_eq (h : snapshots.map Snapshot.num = 0 :: store.entries.map Kept.num) :
    (snapshots.getLast?.map Snapshot.num).getD 0 =
      (store.entries.getLast?.map Kept.num).getD 0 := by
  rw [← List.getLast?_map, ← List.getLast?_map, h]
  cases hentries : store.entries.map Kept.num with
  | nil => rfl
  | cons num nums => rw [List.getLast?_cons_cons]

/-- The loop of `nextNumber` ends with the same number on both levels. -/
theorem candidates_eq (h : snapshots.map Snapshot.num = 0 :: store.entries.map Kept.num) :
    (candidates ((snapshots.getLast?.map Snapshot.num).getD 0) (store.dirs.length + 1)).find?
      (· ∉ store.dirs) = store.nextNumber := by
  rw [last_eq h]
  rfl

/-- A creation, at any time and of any description -/
theorem mirrors_create (time : Int64) (description : Str) (dir : DirTree) (info : Str)
    (h : d.Mirrors id store) :
    ((createSingleSnapshot (quietAt time) id description).run d).2.Mirrors id
      (store.create dir info) := by
  obtain ⟨snapshots, hshows, hnums, hnonzero⟩ := h
  have hnext := candidates_eq hnums
  unfold Store.create createSingleSnapshot
  cases hnum : store.nextNumber with
  | none =>
    -- every candidate has a directory
    have hstopped : (nextNumber (quietAt time) id).run d =
        (.error (.fault .IOErrorException), d) := by
      obtain ⟨m, hm, -, hlist, hdirs⟩ := hshows
      have hfree : freeNumber m.snapshots m.disk.dirs = none := by
        rw [freeNumber, hlist, hdirs, hnext, hnum]
      rw [nextNumber_at hm, hfree]
    rw [createSnapshot, Act.run_bind_error hstopped]
    exact ⟨snapshots, hshows, hnums, hnonzero⟩
  | some num =>
    rw [hnum] at hnext
    by_cases hzero : num = 0
    · -- the number of the current snapshot is refused after `mkdir`
      obtain ⟨d', hrun, hshows'⟩ := nextNumber_run time hshows hnext
      subst hzero
      have hrefused : (createHelper (quietAt time) id { Snapshot.new .SINGLE 0 time with
          preNum := 0, description := description, infoModified := true }).run d' =
          (.error .IllegalSnapshotException, d') := rfl
      have hstopped : (createSnapshot (quietAt time) id .SINGLE 0 description).run d =
          (.error .IllegalSnapshotException, d') := by
        unfold createSnapshot
        rw [Act.run_bind_ok hrun]
        exact Act.run_bind_error hrefused
      rw [hstopped]
      exact ⟨snapshots, hshows', hnums, hnonzero⟩
    · obtain ⟨d', s, hrun, hsnum, -, -, hshows'⟩ :=
        createSnapshot_run time description .SINGLE 0 hshows hnext hzero
      rw [hrun]
      dsimp only
      rw [if_neg hzero]
      refine ⟨_, hshows', ?_, ?_⟩
      · rw [List.map_append, hnums, List.map_singleton, hsnum]
        simp [Store.add]
      · intro s' hs'
        rcases List.mem_append.mp hs' with hold | hnew
        · exact hnonzero s' hold
        · rw [List.mem_singleton.mp hnew]
          exact hzero

/-- A deletion; both refuse the current snapshot and a number that is not in the list. -/
theorem mirrors_delete (time : Int64) (num : UInt32) (h : d.Mirrors id store) :
    ((deleteSnapshot (quietAt time) id (d.snapshot id num)).run d).2.Mirrors id
      (store.delete num) := by
  obtain ⟨snapshots, hshows, hnums, hnonzero⟩ := h
  -- the two lists have the same numbers, but for the 0 that only the daemon has
  have hlisted : (∃ s ∈ snapshots, s.num = num) ↔ num = 0 ∨ (store.find num).isSome = true := by
    have hmem : num ∈ snapshots.map Snapshot.num ↔ num ∈ 0 :: store.entries.map Kept.num := by
      rw [hnums]
    rw [List.mem_map, List.mem_cons, List.mem_map] at hmem
    rw [hmem]
    exact or_congr_right lookup_isSome_iff.symm
  have hsnapshot : d.snapshot id num = lookup Snapshot.num num snapshots := by
    rw [Daemon.snapshot, hshows.snapshots_eq]
  have hzero_find (hzero : num = 0) : store.find num = none :=
    lookup_eq_none_iff.mpr fun s hs hnum => hnonzero s hs (hnum.trans hzero)
  unfold Store.delete
  cases hfind : store.find num with
  | none =>
    -- not in the store: it is the current snapshot or in neither list
    have hrefused : d.snapshot id num = none ∨ num = 0 := by
      by_cases hzero : num = 0
      · exact Or.inr hzero
      · left
        rw [hsnapshot, ← Option.not_isSome_iff_eq_none, lookup_isSome_iff, hlisted, hfind]
        simp [hzero]
    rw [deleteSnapshot_refused time hrefused]
    exact ⟨snapshots, hshows, hnums, hnonzero⟩
  | some kept =>
    have hzero : num ≠ 0 := by
      intro hzero
      rw [hzero_find hzero] at hfind
      cases hfind
    obtain ⟨s, hs⟩ : ∃ s, d.snapshot id num = some s := by
      rw [← Option.isSome_iff_exists, hsnapshot, lookup_isSome_iff, hlisted, hfind]
      exact Or.inr rfl
    refine ⟨_, deleteSnapshot_found time hshows hs hzero, ?_, ?_⟩
    · -- the number of the current snapshot is not the one that goes
      have herase : (snapshots.map Snapshot.num).eraseP (· = num) =
          (0 :: store.entries.map Kept.num).eraseP (· = num) := by
        rw [hnums]
      rw [List.eraseP_cons_of_neg (by simpa using hzero.symm), List.eraseP_map, List.eraseP_map]
        at herase
      exact herase
    · exact fun s' hs' => hnonzero s' (List.mem_of_mem_eraseP hs')

/-- What the daemon does when the store takes a call, at a time that passes -/
def serveStore (id : Nat) (d : Daemon) : Int64 × StoreCall → Daemon
  | (time, .create _ _) => ((createSingleSnapshot (quietAt time) id []).run d).2
  | (_, .compare _ _ _) => d
  | (time, .delete num) => ((deleteSnapshot (quietAt time) id (d.snapshot id num)).run d).2

/-- A comparison changes file lists only. -/
theorem compare_numbers (fnmatch : Str → Str → Bool) (ignorePatterns : List Str)
    (num1 num2 : UInt32) (system : DirTree) (store : Store) :
    (store.compare fnmatch ignorePatterns num1 num2 system).entries = store.entries ∧
      (store.compare fnmatch ignorePatterns num1 num2 system).dirs = store.dirs := by
  unfold Store.compare
  split
  · split
    · exact ⟨rfl, rfl⟩
    · dsimp only
      split <;> exact ⟨rfl, rfl⟩
  · exact ⟨rfl, rfl⟩

/-- Each call of the store and what the daemon does for it leave the same numbers in both lists.
-/
theorem mirrors_step (fnmatch : Str → Str → Bool) (ignorePatterns : List Str)
    (c : Int64 × StoreCall) (h : d.Mirrors id store) :
    (serveStore id d c).Mirrors id (store.step fnmatch ignorePatterns c.2) := by
  obtain ⟨time, call⟩ := c
  cases call with
  | create dir info => exact mirrors_create time [] dir info h
  | delete num => exact mirrors_delete time num h
  | compare num1 num2 system =>
    obtain ⟨hentries, hdirs⟩ := compare_numbers fnmatch ignorePatterns num1 num2 system store
    unfold serveStore Store.step Daemon.Mirrors
    rw [hentries, hdirs]
    exact h

/-- After any calls the daemon has the numbers and the directories of the store. -/
theorem mirrors_steps (fnmatch : Str → Str → Bool) (ignorePatterns : List Str)
    (calls : List (Int64 × StoreCall)) (h : d.Mirrors id store) :
    (calls.foldl (serveStore id) d).Mirrors id
      ((calls.map Prod.snd).foldl (Store.step fnmatch ignorePatterns) store) := by
  induction calls generalizing d store with
  | nil => exact h
  | cons c calls ih => exact ih (mirrors_step fnmatch ignorePatterns c h)

end Server

end Snapper
