import Mathlib.Data.List.Perm.Subperm
import Snapper.General.Run
import Snapper.Server.Edits

/-!
# Snapshot numbers and the links of post snapshots

A post snapshot holds the number of its pre snapshot.  Either of the two may be deleted, and
the number of a deleted snapshot may be used again.  A history has, besides the daemon, when the
snapshot of each number was created and when the pre snapshot of each post snapshot was; the
program keeps neither.

## Main results

- `exists_candidate`: the next number is larger than every number in the list
- `Linked.append`, `Linked.erase`: creating and deleting keep the links
- `links_sound`: so the links are sound after any calls
-/

namespace Snapper.Server

open General

/-! ## The calls -/

/-- The calls of `Snapshots`; a number stands for the iterator that `find` returns. -/
inductive SnapshotsCall where
  | createSingleSnapshot (description : Str)
  | createPreSnapshot (description : Str)
  | createPostSnapshot (description : Str) (preNum : UInt32)
  | deleteSnapshot (num : UInt32)

/-- A daemon with the times of creation. -/
structure History where
  daemon : Daemon
  /-- The number of snapshots created so far -/
  clock : Nat
  /-- When the last snapshot with this number was created -/
  born : UInt32 → Nat
  /-- When the pre snapshot was created for which this post snapshot was -/
  bornPre : UInt32 → Nat

/-- No call so far, and nothing born. -/
def History.start (d : Daemon) : History := ⟨d, 0, fun _ => 0, fun _ => 0⟩

/-- Every call succeeds, at this time. -/
def quietAt (time : Int64) : Env := { Env.quiet with time := time }

/-- What a call that creates makes of a history. -/
def History.created (pre : Option UInt32) (h : History) : Except Exception UInt32 × Daemon → History
  | (.ok num, d) =>
    { daemon := d
      clock := h.clock + 1
      born := Function.update h.born num h.clock
      bornPre :=
        match pre with
        | none => h.bornPre
        | some preNum => Function.update h.bornPre num (h.born preNum) }
  | (.error _, d) => { h with daemon := d }

/-- One call, for the config that an iterator points to. -/
def History.step (id : Nat) (h : History) (c : Int64 × SnapshotsCall) : History :=
  let env := quietAt c.1
  match c.2 with
  | .createSingleSnapshot description =>
    h.created none ((createSingleSnapshot env id description).run h.daemon)
  | .createPreSnapshot description =>
    h.created none ((createPreSnapshot env id description).run h.daemon)
  | .createPostSnapshot description preNum =>
    h.created (some preNum)
      ((createPostSnapshot env id description (h.daemon.snapshot id preNum)).run h.daemon)
  | .deleteSnapshot num =>
    { h with daemon := ((deleteSnapshot env id (h.daemon.snapshot id num)).run h.daemon).2 }

/-! ## The next number -/

/-- A candidate number below the limit is the plain sum. -/
theorem candidate_toNat {last : UInt32} {i : Nat} (h : last.toNat + 1 + i < 2 ^ 32) :
    (last + 1 + UInt32.ofNat i).toNat = last.toNat + 1 + i := by
  have hi : i < UInt32.size := by
    have : UInt32.size = 2 ^ 32 := rfl
    omega
  rw [UInt32.toNat_add, UInt32.toNat_add, UInt32.toNat_ofNat_of_lt' hi]
  have hone : (1 : UInt32).toNat = 1 := rfl
  omega

/-- A free number after the last one, or more candidates than directories. -/
theorem exists_free {last n : UInt32} {dirs : List UInt32} (hlt : last < n) (hfree : n ∉ dirs) :
    ∃ i < dirs.length + 1, last.toNat + 1 + i ≤ n.toNat ∧ last + 1 + UInt32.ofNat i ∉ dirs := by
  have hn : n.toNat < 2 ^ 32 := n.toNat_lt
  have hlast : last.toNat < n.toNat := UInt32.lt_iff_toNat_lt.mp hlt
  by_cases hnear : n.toNat ≤ last.toNat + 1 + dirs.length
  · -- `n` itself is a candidate
    have heq : last + 1 + UInt32.ofNat (n.toNat - last.toNat - 1) = n := by
      apply UInt32.toNat_inj.mp
      rw [candidate_toNat (by omega)]
      omega
    exact ⟨n.toNat - last.toNat - 1, by omega, by omega, by rwa [heq]⟩
  · by_contra hnone
    push Not at hnone
    -- otherwise there are more numbers than directories
    have hsub : (List.range (dirs.length + 1)).map (fun i => last + 1 + UInt32.ofNat i) ⊆ dirs := by
      intro num hnum
      obtain ⟨i, hi, rfl⟩ := List.mem_map.mp hnum
      have hi := List.mem_range.mp hi
      exact hnone i hi (by omega)
    have hnodup : ((List.range (dirs.length + 1)).map
        fun i => last + 1 + UInt32.ofNat i).Nodup := by
      refine List.Nodup.map_on ?_ List.nodup_range
      intro i hi j hj heq
      have hi := List.mem_range.mp hi
      have hj := List.mem_range.mp hj
      have hvalue := congrArg UInt32.toNat heq
      rw [candidate_toNat (by omega), candidate_toNat (by omega)] at hvalue
      omega
    have hlength := (hnodup.subperm hsub).length_le
    simp only [List.length_map, List.length_range] at hlength
    omega

/-- The loop of `nextNumber` stops at or before a free number that is larger than the last
one. -/
theorem exists_candidate {last n : UInt32} {dirs : List UInt32} (hlt : last < n)
    (hfree : n ∉ dirs) :
    ∃ num, (candidates last (dirs.length + 1)).find? (· ∉ dirs) = some num ∧
      last < num ∧ num ∉ dirs := by
  obtain ⟨i, hi, hle, hnot⟩ := exists_free hlt hfree
  have hn : n.toNat < 2 ^ 32 := n.toNat_lt
  rw [candidates, List.find?_map]
  cases hfind : (List.range (dirs.length + 1)).find?
      ((fun num : UInt32 => decide (num ∉ dirs)) ∘ fun i => last + 1 + UInt32.ofNat i) with
  | none =>
    have hnone := List.find?_eq_none.mp hfind i (List.mem_range.mpr hi)
    exact absurd hnot (by simpa using hnone)
  | some j =>
    obtain ⟨hj, -, hfirst⟩ := List.find?_range_eq_some.mp hfind
    -- no candidate before it is free
    have hji : j ≤ i := by
      by_contra hgt
      have := hfirst i (by omega)
      simp [hnot] at this
    refine ⟨_, rfl, ?_, by simpa using hj⟩
    rw [UInt32.lt_iff_toNat_lt, candidate_toNat (by omega)]
    omega

/-! ## Links in a list -/

/-- The list is ascending from the current snapshot on, and every post snapshot is linked to the
pre snapshot it was created for, as long as there is one. -/
structure Linked (snapshots : List Snapshot) (born bornPre : UInt32 → Nat) : Prop where
  current : snapshots.head? = some Snapshot.current
  sorted : (snapshots.map Snapshot.num).Pairwise (· < ·)
  preNum_lt : ∀ p ∈ snapshots, p.type = .POST → p.preNum < p.num
  distinct : ∀ p ∈ snapshots, ∀ p' ∈ snapshots, p.type = .POST → p'.type = .POST →
    p.preNum = p'.preNum → p = p'
  link : ∀ p ∈ snapshots, p.type = .POST → ∀ q ∈ snapshots, q.num = p.preNum →
    q.type = .PRE ∧ born q.num = bornPre p.num

section Linked

variable {snapshots : List Snapshot} {born bornPre : UInt32 → Nat} {s : Snapshot} {clock : Nat}

/-- The list of a new config has only the current snapshot, which is linked to nothing. -/
theorem Linked.start : Linked [Snapshot.current] born bornPre where
  current := rfl
  sorted := by simp
  preNum_lt := by
    intro p hp hpost
    obtain rfl := List.mem_singleton.mp hp
    cases hpost
  distinct := by
    intro p hp p' hp' _ _ _
    rw [List.mem_singleton.mp hp, List.mem_singleton.mp hp']
  link := by
    intro p hp hpost
    obtain rfl := List.mem_singleton.mp hp
    cases hpost

theorem Linked.nodup (h : Linked snapshots born bornPre) : (snapshots.map Snapshot.num).Nodup :=
  h.sorted.imp fun hlt => ne_of_lt hlt

theorem Linked.eq_of_num (h : Linked snapshots born bornPre) {q q' : Snapshot}
    (hq : q ∈ snapshots) (hq' : q' ∈ snapshots) (hnum : q.num = q'.num) : q = q' :=
  List.inj_on_of_nodup_map h.nodup hq hq' hnum

/-- The last number is the largest. -/
theorem Linked.exists_last (h : Linked snapshots born bornPre) :
    ∃ last ∈ snapshots, (snapshots.getLast?.map Snapshot.num).getD 0 = last.num ∧
      ∀ t ∈ snapshots, t.num ≤ last.num := by
  have hne : snapshots ≠ [] := by
    rintro rfl
    cases h.current
  have hsorted := h.sorted
  rw [← List.dropLast_concat_getLast hne, List.map_append, List.pairwise_append] at hsorted
  refine ⟨snapshots.getLast hne, List.getLast_mem hne, ?_, ?_⟩
  · rw [List.getLast?_eq_some_getLast hne]
    rfl
  · intro t ht
    rw [← List.dropLast_concat_getLast hne, List.mem_append, List.mem_singleton] at ht
    rcases ht with ht | rfl
    · have hlt : t.num < (snapshots.getLast hne).num :=
        hsorted.2.2 _ (List.mem_map_of_mem ht) _ (by simp)
      exact le_of_lt hlt
    · exact le_refl _

/-- What a new post snapshot must be for the list. -/
structure Linkable (snapshots : List Snapshot) (born bornPre : UInt32 → Nat) (s : Snapshot) :
    Prop where
  preNum_lt : s.preNum < s.num
  alone : ∀ p ∈ snapshots, p.type = .POST → p.preNum ≠ s.preNum
  link : ∀ q ∈ snapshots, q.num = s.preNum → q.type = .PRE ∧ born q.num = bornPre s.num

/-- A snapshot with a larger number is put at the end of the list. -/
theorem Linked.append {bornPre' : UInt32 → Nat} (h : Linked snapshots born bornPre)
    (hlast : ∀ t ∈ snapshots, t.num < s.num)
    (hsame : ∀ t ∈ snapshots, bornPre' t.num = bornPre t.num)
    (hpost : s.type = .POST → Linkable snapshots born bornPre' s) :
    Linked (snapshots ++ [s]) (Function.update born s.num clock) bornPre' := by
  have hmem : ∀ {t}, t ∈ snapshots ++ [s] → t ∈ snapshots ∨ t = s := by
    intro t ht
    simpa using ht
  have hold : ∀ t ∈ snapshots, Function.update born s.num clock t.num = born t.num :=
    fun t ht => Function.update_of_ne (ne_of_lt (hlast t ht)) _ _
  refine ⟨?_, ?_, ?_, ?_, ?_⟩
  · rw [List.head?_append, h.current]
    rfl
  · rw [List.map_append, List.pairwise_append]
    refine ⟨h.sorted, by simp, ?_⟩
    intro num hnum last hlast'
    obtain ⟨t, ht, rfl⟩ := List.mem_map.mp hnum
    obtain rfl : last = s.num := by simpa using hlast'
    exact hlast t ht
  · intro p hp hp_post
    rcases hmem hp with hin | rfl
    · exact h.preNum_lt p hin hp_post
    · exact (hpost hp_post).preNum_lt
  · intro p hp p' hp' hp_post hp'_post heq
    rcases hmem hp with hin | rfl
    · rcases hmem hp' with hin' | rfl
      · exact h.distinct p hin p' hin' hp_post hp'_post heq
      · exact absurd heq ((hpost hp'_post).alone p hin hp_post)
    · rcases hmem hp' with hin' | rfl
      · exact absurd heq.symm ((hpost hp_post).alone p' hin' hp'_post)
      · rfl
  · intro p hp hp_post q hq hnum
    rcases hmem hp with hin | rfl
    · rcases hmem hq with hin' | rfl
      · rw [hold q hin', hsame p hin]
        exact h.link p hin hp_post q hin' hnum
      · -- a number as large as the new one is not that of an older pre snapshot
        have hlt := h.preNum_lt p hin hp_post
        rw [← hnum] at hlt
        exact absurd (hlast p hin) (lt_asymm hlt)
    · rcases hmem hq with hin' | rfl
      · rw [hold q hin']
        exact (hpost hp_post).link q hin' hnum
      · have hlt := (hpost hp_post).preNum_lt
        rw [← hnum] at hlt
        exact absurd hlt (lt_irrefl _)

/-- A post snapshot for a pre snapshot of the list that has none. -/
theorem Linked.linkable (h : Linked snapshots born bornPre)
    (hlast : ∀ t ∈ snapshots, t.num < s.num) {pre : Snapshot} (hpre : pre ∈ snapshots)
    (htype : pre.type = .PRE) (hnone : hasPost snapshots pre = false)
    (hlink : s.preNum = pre.num) :
    Linkable snapshots born (Function.update bornPre s.num (born pre.num)) s where
  preNum_lt := by
    rw [hlink]
    exact hlast pre hpre
  alone := by
    intro p hp hpost hsame
    rw [hasPost, List.any_eq_false] at hnone
    exact hnone p hp (by simp [hpost, hsame, hlink])
  link := by
    intro q hq hnum
    obtain rfl := h.eq_of_num hq hpre (hnum.trans hlink)
    exact ⟨htype, by simp⟩

/-- A snapshot other than the current one is taken out of the list. -/
theorem Linked.erase (h : Linked snapshots born bornPre) {num : UInt32} (hzero : num ≠ 0) :
    Linked (snapshots.eraseP (·.num = num)) born bornPre := by
  have hsub : (snapshots.eraseP (·.num = num)).Sublist snapshots := List.eraseP_sublist
  refine ⟨?_, ?_, ?_, ?_, ?_⟩
  · obtain ⟨rest, rfl⟩ := List.head?_eq_some_iff.mp h.current
    have hother : Snapshot.current.num ≠ num := hzero.symm
    simp [hother]
  · exact h.sorted.sublist (hsub.map _)
  · exact fun p hp => h.preNum_lt p (hsub.subset hp)
  · exact fun p hp p' hp' => h.distinct p (hsub.subset hp) p' (hsub.subset hp')
  · exact fun p hp hpost q hq => h.link p (hsub.subset hp) hpost q (hsub.subset hq)

end Linked

/-! ## What the calls do -/

/-- The directories of a config. -/
def Daemon.dirs (id : Nat) (d : Daemon) : List UInt32 :=
  ((d.metaSnapper id).map fun m => m.disk.dirs).getD []

/-- The iterator points to a loaded config with this list and these directories. -/
def Daemon.Shows (id : Nat) (snapshots : List Snapshot) (dirs : List UInt32) (d : Daemon) : Prop :=
  ∃ m, d.metaSnapper id = some m ∧ m.isLoaded = true ∧ m.snapshots = snapshots ∧
    m.disk.dirs = dirs

section Calls

variable {id : Nat} {d : Daemon} {snapshots : List Snapshot} {dirs : List UInt32} {time : Int64}
  {description : Str} {num preNum : UInt32} {type : SnapshotType}

theorem Daemon.Shows.snapshots_eq (h : d.Shows id snapshots dirs) : d.snapshots id = snapshots := by
  obtain ⟨m, hm, -, hsnapshots, -⟩ := h
  rw [Daemon.snapshots, hm]
  exact hsnapshots

theorem Daemon.Shows.dirs_eq (h : d.Shows id snapshots dirs) : d.dirs id = dirs := by
  obtain ⟨m, hm, -, -, hdirs⟩ := h
  rw [Daemon.dirs, hm, ← hdirs]
  rfl

theorem Daemon.Shows.modDisk {f : Disk → Disk} (g : List UInt32 → List UInt32)
    (h : d.Shows id snapshots dirs) (hf : ∀ disk, (f disk).dirs = g disk.dirs) :
    (d.modDisk id f).Shows id snapshots (g dirs) := by
  obtain ⟨m, hm, hloaded, hsnapshots, rfl⟩ := h
  exact ⟨_, (metaSnapper_modMeta (by intro; rfl)).trans (congrArg _ hm), hloaded, hsnapshots,
    hf m.disk⟩

theorem Daemon.Shows.insert {s : Snapshot} (h : d.Shows id snapshots dirs) :
    (d.insert id s).Shows id (snapshots ++ [s.flushed]) dirs := by
  obtain ⟨m, hm, hloaded, rfl, hdirs⟩ := h
  refine ⟨_, (metaSnapper_modMeta (by intro; rfl)).trans (congrArg _ hm), ?_, ?_, hdirs⟩
  · exact (setSnapshots_isLoaded (f := (· ++ [s.flushed]))).trans hloaded
  · exact setSnapshots_snapshots (f := (· ++ [s.flushed])) hloaded

theorem Daemon.Shows.erase (h : d.Shows id snapshots dirs) :
    (d.erase id num false).Shows id (snapshots.eraseP (·.num = num)) (dirs.filter (· ≠ num)) := by
  obtain ⟨m, hm, hloaded, rfl, rfl⟩ := h
  refine ⟨_, (metaSnapper_modMeta (by intro; rfl)).trans (congrArg _ hm), ?_, ?_, rfl⟩
  · exact (setSnapshots_isLoaded (f := (·.eraseP (·.num = num)))).trans hloaded
  · exact setSnapshots_snapshots (f := (·.eraseP (·.num = num))) hloaded

/-- The next number and its directory -/
theorem nextNumber_run (time : Int64) (h : d.Shows id snapshots dirs)
    (hnum : (candidates ((snapshots.getLast?.map Snapshot.num).getD 0) (dirs.length + 1)).find?
      (· ∉ dirs) = some num) :
    ∃ d', (nextNumber (quietAt time) id).run d = (.ok num, d') ∧
      d'.Shows id snapshots (dirs ++ [num]) := by
  refine ⟨_, ?_, h.modDisk (f := fun disk => { disk with dirs := disk.dirs ++ [num] })
    (· ++ [num]) fun _ => rfl⟩
  unfold nextNumber
  rw [Act.run_bind_ok (Act.run_read _ d), h.snapshots_eq, Act.run_bind_ok (Act.run_read _ d)]
  have hdirs := h.dirs_eq
  rw [Daemon.dirs] at hdirs
  dsimp only
  rw [hdirs, hnum]
  rfl

/-- A new snapshot at the end of the list -/
theorem createSnapshot_run (time : Int64) (description : Str) (type : SnapshotType)
    (preNum : UInt32) (h : d.Shows id snapshots dirs)
    (hnum : (candidates ((snapshots.getLast?.map Snapshot.num).getD 0) (dirs.length + 1)).find?
      (· ∉ dirs) = some num) (hzero : num ≠ 0) :
    ∃ d' s, (createSnapshot (quietAt time) id type preNum description).run d = (.ok num, d') ∧
      s.num = num ∧ s.type = type ∧ s.preNum = preNum ∧
      d'.Shows id (snapshots ++ [s]) (dirs ++ [num]) := by
  obtain ⟨d', hrun, hshows⟩ := nextNumber_run time h hnum
  refine ⟨_, _, ?_, ?_, ?_, ?_, hshows.insert (s := { Snapshot.new type num time with
    preNum := preNum, description := description, infoModified := true })⟩
  · unfold createSnapshot
    rw [Act.run_bind_ok hrun]
    -- every call succeeds and the number is not 0, so the helper just inserts
    have hhelper : (createHelper (quietAt time) id { Snapshot.new type num time with
        preNum := preNum, description := description, infoModified := true }).run d' =
        (.ok ⟨⟩, d'.insert id { Snapshot.new type num time with
          preNum := preNum, description := description, infoModified := true }) := by
      unfold createHelper
      have hcurrent : Snapshot.isCurrent { Snapshot.new type num time with
          preNum := preNum, description := description, infoModified := true } = false := by
        show decide (num = 0) = false
        exact decide_eq_false hzero
      rw [hcurrent]
      rfl
    have htime : (quietAt time).time = time := rfl
    rw [htime, Act.run_bind_ok hhelper]
    rfl
  · rfl
  · rfl
  · rfl

/-- The snapshot found under a number -/
theorem mem_of_shows (h : d.Shows id snapshots dirs) {s : Snapshot}
    (hs : d.snapshot id num = some s) : s ∈ snapshots ∧ s.num = num := by
  rw [Daemon.snapshot, h.snapshots_eq] at hs
  exact ⟨mem_of_lookup hs, key_of_lookup hs⟩

/-- A listed snapshot goes from the list, and its directory from the disk. -/
theorem deleteSnapshot_found (time : Int64) (h : d.Shows id snapshots dirs) {s : Snapshot}
    (hfind : d.snapshot id num = some s) (hzero : num ≠ 0) :
    ((deleteSnapshot (quietAt time) id (d.snapshot id num)).run d).2.Shows id
      (snapshots.eraseP (·.num = num)) (dirs.filter (· ≠ num)) := by
  obtain ⟨-, rfl⟩ := mem_of_shows h hfind
  have hcurrent : s.isCurrent = false := decide_eq_false hzero
  unfold deleteSnapshot
  rw [hfind]
  dsimp only
  rw [hcurrent]
  have hlose := h.modDisk (f := fun disk =>
    { disk with infos := disk.infos.filter (·.num ≠ s.num) }) (fun dirs => dirs) fun _ => rfl
  exact hlose.erase

/-- The current snapshot is refused, and so is one that is not listed. -/
theorem deleteSnapshot_refused (time : Int64) (hfind : d.snapshot id num = none ∨ num = 0) :
    ((deleteSnapshot (quietAt time) id (d.snapshot id num)).run d).2 = d := by
  unfold deleteSnapshot
  cases hs : d.snapshot id num with
  | none => rfl
  | some s =>
    obtain hnone | hzero := hfind
    · rw [hs] at hnone
      cases hnone
    · have hnum : s.num = num := key_of_lookup hs
      have hcurrent : s.isCurrent = true := decide_eq_true (hnum.trans hzero)
      dsimp only
      rw [hcurrent]
      rfl

/-- A deletion is refused or takes the snapshot out of the list. -/
theorem deleteSnapshot_run (time : Int64) (num : UInt32) (h : d.Shows id snapshots dirs) :
    ((deleteSnapshot (quietAt time) id (d.snapshot id num)).run d).2 = d ∨
      num ≠ 0 ∧ ((deleteSnapshot (quietAt time) id (d.snapshot id num)).run d).2.Shows id
        (snapshots.eraseP (·.num = num)) (dirs.filter (· ≠ num)) := by
  by_cases hzero : num = 0
  · exact Or.inl (deleteSnapshot_refused time (Or.inr hzero))
  · cases hfind : d.snapshot id num with
    | none =>
      rw [← hfind]
      exact Or.inl (deleteSnapshot_refused time (Or.inl hfind))
    | some s =>
      rw [← hfind]
      exact Or.inr ⟨hzero, deleteSnapshot_found time h hfind hzero⟩

/-- A post snapshot is refused or created like the other ones. -/
theorem createPostSnapshot_run (time : Int64) (description : Str) (pre : Option Snapshot)
    (h : d.Shows id snapshots dirs) :
    (∃ e, (createPostSnapshot (quietAt time) id description pre).run d = (.error e, d)) ∨
      ∃ s, pre = some s ∧ s.num ≠ 0 ∧ s.type = .PRE ∧ hasPost snapshots s = false ∧
        (createPostSnapshot (quietAt time) id description pre).run d =
          (createSnapshot (quietAt time) id .POST s.num description).run d := by
  unfold createPostSnapshot
  rw [Act.run_bind_ok (Act.run_read _ d), h.snapshots_eq]
  cases pre with
  | none => exact Or.inl ⟨_, rfl⟩
  | some s =>
    dsimp only
    split
    · exact Or.inl ⟨_, rfl⟩
    next hgo =>
      simp only [not_or, Snapshot.isCurrent, decide_eq_true_eq, not_not, Bool.not_eq_true] at hgo
      exact Or.inr ⟨s, rfl, hgo.1, hgo.2.1, hgo.2.2, rfl⟩

end Calls

/-! ## Histories -/

/-- There is a free number below `2^32 - 1` and above those in the list. -/
def Daemon.Room (id : Nat) (d : Daemon) : Prop :=
  ∃ n < (4294967295 : UInt32), n ∉ d.dirs id ∧ ∀ s ∈ d.snapshots id, s.num < n

/-- The numbers of the loop in `nextNumber` stay below `2^32 - 1`.  A post snapshot that is
refused needs none. -/
def History.Below (id : Nat) (h : History) (c : Int64 × SnapshotsCall) : Prop :=
  match c.2 with
  | .createSingleSnapshot _ => h.daemon.Room id
  | .createPreSnapshot _ => h.daemon.Room id
  | .createPostSnapshot _ preNum =>
    ∀ s, h.daemon.snapshot id preNum = some s → s.num ≠ 0 → s.type = .PRE →
      hasPost (h.daemon.snapshots id) s = false → h.daemon.Room id
  | .deleteSnapshot _ => True

/-- What the calls keep: the links are sound, and snapshots have directories. -/
def History.Sound (id : Nat) (h : History) : Prop :=
  ∃ snapshots dirs, h.daemon.Shows id snapshots dirs ∧ Linked snapshots h.born h.bornPre ∧
    ∀ s ∈ snapshots, s.num ≠ 0 → s.num ∈ dirs

section History

variable {id : Nat} {h : History} {time : Int64} {description : Str} {preNum : UInt32}
  {type : SnapshotType} {pre : Option UInt32}

/-- A snapshot is created: its number is larger than the others. -/
theorem History.Sound.created (hs : h.Sound id) (hroom : h.daemon.Room id)
    (hpost : type = .POST → pre = some preNum ∧
      ∃ s ∈ h.daemon.snapshots id, s.num = preNum ∧ s.type = .PRE ∧
        hasPost (h.daemon.snapshots id) s = false)
    (hnone : type ≠ .POST → pre = none) :
    (h.created pre ((createSnapshot (quietAt time) id type preNum description).run
      h.daemon)).Sound id := by
  obtain ⟨snapshots, dirs, hshows, hlinked, hdirs⟩ := hs
  obtain ⟨n, -, hfree, habove⟩ := hroom
  rw [hshows.snapshots_eq] at habove hpost
  rw [hshows.dirs_eq] at hfree
  obtain ⟨last, hlast, hlastnum, hmax⟩ := hlinked.exists_last
  -- the number chosen is above all the listed ones
  obtain ⟨num, hnum, hlt, hnew⟩ := exists_candidate (habove last hlast) hfree
  rw [← hlastnum] at hnum
  have habove : ∀ t ∈ snapshots, t.num < num := fun t ht => lt_of_le_of_lt (hmax t ht) hlt
  have hzero : num ≠ 0 := by
    rintro rfl
    exact absurd hlt (not_lt_of_ge UInt32.zero_le)
  obtain ⟨d', s, hrun, rfl, rfl, rfl, hshows'⟩ := createSnapshot_run time
    description type preNum hshows hnum hzero
  rw [hrun]
  refine ⟨_, _, hshows', ?_, ?_⟩
  -- only a post snapshot is linked to another
  · by_cases htype : s.type = .POST
    · obtain ⟨rfl, q, hq, hqnum, hqtype, hqpost⟩ := hpost htype
      have hnone : hasPost snapshots q = false := hqpost
      have hlink := hlinked.linkable habove hq hqtype hnone hqnum.symm
      refine hlinked.append habove (fun t ht => ?_) fun _ => ?_
      · exact Function.update_of_ne (ne_of_lt (habove t ht)) _ _
      · rw [← hqnum]
        exact hlink
    · rw [hnone htype]
      exact hlinked.append habove (fun _ _ => rfl) fun htype' => absurd htype' htype
  · intro t ht htzero
    rcases List.mem_append.mp ht with ht | ht
    · exact List.mem_append_left _ (hdirs t ht htzero)
    · rw [List.mem_singleton.mp ht]
      exact List.mem_append_right _ (List.mem_singleton.mpr rfl)

/-- One call of the store keeps all links sound. -/
theorem History.Sound.step (hs : h.Sound id) {c : Int64 × SnapshotsCall} (hbelow : h.Below id c) :
    (h.step id c).Sound id := by
  obtain ⟨time, call⟩ := c
  cases call with
  | createSingleSnapshot description => exact hs.created hbelow nofun fun _ => rfl
  | createPreSnapshot description => exact hs.created hbelow nofun fun _ => rfl
  | createPostSnapshot description preNum =>
    have ⟨snapshots, dirs, hshows, _⟩ := hs
    show (h.created (some preNum) _).Sound id
    -- it is refused unless the number is that of a pre snapshot without a post snapshot
    rcases createPostSnapshot_run time description
      (h.daemon.snapshot id preNum) hshows with ⟨e, herror⟩ | ⟨s, hfind, hzero, htype, hnone, hrun⟩
    · rw [herror]
      exact hs
    · obtain ⟨hmem, rfl⟩ := mem_of_shows hshows hfind
      rw [← hshows.snapshots_eq] at hnone hmem
      rw [hrun]
      exact hs.created (hbelow s hfind hzero htype hnone)
        (fun _ => ⟨rfl, s, hmem, rfl, htype, hnone⟩) fun hne => absurd rfl hne
  | deleteSnapshot num =>
    obtain ⟨snapshots, dirs, hshows, hlinked, hdirs⟩ := hs
    -- the current system cannot be deleted
    rcases deleteSnapshot_run time num hshows with hsame | ⟨hzero, hshows'⟩
    · refine ⟨snapshots, dirs, ?_, hlinked, hdirs⟩
      show Daemon.Shows id snapshots dirs (Prod.snd _)
      rw [hsame]
      exact hshows
    · refine ⟨_, _, hshows', hlinked.erase hzero, ?_⟩
      intro s hs hszero
      obtain ⟨hs, hother⟩ := (mem_eraseP_iff hlinked.nodup).mp hs
      exact List.mem_filter.mpr ⟨hdirs s hs hszero, by simpa using hother⟩

end History

/-- After any calls on a config that had only the current snapshot, with any directories left
over: the list is ascending from the current snapshot on, and every post snapshot has a smaller
`pre_num` of its own, under which there is no snapshot or the pre snapshot it was created for. -/
theorem links_sound {d : Daemon} {id : Nat} {dirs : List UInt32}
    (hstart : d.Shows id [Snapshot.current] dirs) (calls : List (Int64 × SnapshotsCall))
    (hbelow : Along (History.Below id) (History.step id) calls (.start d)) :
    let h := calls.foldl (History.step id) (.start d)
    Linked (h.daemon.snapshots id) h.born h.bornPre := by
  intro h
  -- the directories left over belong to no snapshot
  have hsound : History.Sound id (.start d) := by
    refine ⟨_, dirs, hstart, Linked.start, ?_⟩
    intro s hs hzero
    rw [List.mem_singleton.mp hs] at hzero
    exact absurd rfl hzero
  obtain ⟨snapshots, _, hshows, hlinked, -⟩ :=
    hbelow.invariant (I := History.Sound id) hsound fun _ _ hs hC => hs.step hC
  show Linked (h.daemon.snapshots id) h.born h.bornPre
  rw [hshows.snapshots_eq]
  exact hlinked

/-- The config `root` is loaded and has no snapshots, but the directory of one. -/
private def noSnapshots : Daemon :=
  { Daemon.rootOnly with
    metaSnappers := [⟨0, ⟨str "root", str "/", .empty⟩, [], 0, 0, some ⟨0, [Snapshot.current]⟩,
      ⟨[1], [], []⟩⟩] }

/-- A pre and a post snapshot with the numbers 2 and 3, of which the first is deleted. -/
theorem links_sound_deleted :
    let h := [(0, SnapshotsCall.createPreSnapshot []), (0, .createPostSnapshot [] 2),
      (0, .deleteSnapshot 2)].foldl (History.step 0) (.start noSnapshots)
    Linked (h.daemon.snapshots 0) h.born h.bornPre :=
  links_sound (d := noSnapshots) ⟨_, rfl, rfl, rfl, rfl⟩ _
    ⟨⟨100, by decide, by decide, by decide⟩,
      fun _ _ _ _ _ => ⟨100, by decide, by decide, by decide⟩, trivial, trivial⟩

end Snapper.Server
