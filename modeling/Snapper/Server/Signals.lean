import Snapper.Server.Creating

/-!
# Signals mirror the list of snapshots

`delete_snapshots` takes one snapshot after the other out of the list and signals all of them
at the end; an exception in between leaves deletions that no listener hears of.  With what the
create requests do this decides when a listener that starts from the numbers of `ListSnapshots`
keeps those of the list.

## Main results

* `deleteSnapshots_tells`: the request tells a listener what it did, unless it fails in between.
* `signals_mirror_iff`: a listener keeps the numbers of the list exactly along the runs without
  a request that fails in between, and without a list that is read again and is another one.
-/

namespace Snapper.Server

open General Act

/-! ## Deleting -/

/-- The snapshot of this number can be deleted: it is in the list, it is not the current system,
nobody has it mounted, and the two calls succeed. -/
structure Goes (env : Env) (configName : Str) (d : Daemon) (num : UInt32) : Prop where
  listed : num ∈ d.numbers configName
  nonzero : num ≠ 0
  unused : d.snapshotInUse configName num = false
  filesystem : env.fault (.deleteFilesystemSnapshot num) = none
  info : env.fault (.deleteInfo num) = none

/-- All of them can be deleted, one after the other. -/
def AllGo (env : Env) (configName : Str) (d : Daemon) (nums : List UInt32) : Prop :=
  (∀ num ∈ nums, Goes env configName d num) ∧ nums.Nodup

/-- The list without one number, and nothing is said of it. -/
structure Gone (configName : Str) (id : Nat) (num : UInt32) (d d' : Daemon) : Prop where
  sent : d'.sent = d.sent
  clients : d'.clients = d.clients
  numbers : d'.numbers configName = (d.numbers configName).erase num
  lists : ∃ m, d'.Lists configName m ∧ m.id = id

section Deleting

variable {env : Env} {me configName : Str} {d d' : Daemon} {m m' : MetaSnapper} {num : UInt32}
  {nums : List UInt32}

/-- One round of the loop. -/
def deleteOne (env : Env) (m : MetaSnapper) (num : UInt32) : Handler PUnit := do
  checkSnapshotInUse m num
  let snapshot ← findSnapshot m.id num
  deleteSnapshot env m.id snapshot

/-- The loop does one round and goes on. -/
theorem deleteAll_cons :
    deleteAll env m (num :: nums) = (deleteOne env m num >>= fun _ => deleteAll env m nums) := by
  rw [deleteOne, bind_bind]
  simp only [bind_bind]
  rfl

/-- The snapshot is no longer in the list; the others are, in the same config. -/
theorem lists_erase {stays : Bool} (h : d.Lists configName m)
    (hinfos : ∀ s ∈ m.disk.infos, s.num ≠ num) :
    ∃ m', (d.erase m.id num stays).Lists configName m' ∧ m'.id = m.id ∧
      ∀ s, s ∈ m'.snapshots ↔ s ∈ m.snapshots ∧ s.num ≠ num := by
  refine ⟨_, h.modMeta (by intro; rfl) ?_ (h.base.erase h.metaSnapper hinfos), rfl, ?_⟩
  · have hlist : (m.setSnapshots (·.eraseP (·.num = num))).isLoaded = true :=
      setSnapshots_isLoaded.trans h.loaded
    exact hlist
  · intro s
    have hlist : (m.setSnapshots (·.eraseP (·.num = num))).snapshots =
        m.snapshots.eraseP (·.num = num) := setSnapshots_snapshots h.loaded
    show s ∈ (m.setSnapshots (·.eraseP (·.num = num))).snapshots ↔ _
    rw [hlist]
    exact mem_eraseP_iff (h.base.numbered m (mem_of_find h.find)).nodup

/-- The list and the disk without the snapshot. -/
theorem gone (stays : Bool) (h : d.Lists configName m) :
    Gone configName m.id num d ((d.loseInfo m.id num).erase m.id num stays) := by
  have hlost : ∃ m₁, (d.loseInfo m.id num).Lists configName m₁ ∧ m₁.id = m.id ∧
      m₁.snapshots = m.snapshots ∧ ∀ s ∈ m₁.disk.infos, s.num ≠ num := by
    refine ⟨_, h.modMeta (by intro; rfl) h.loaded (h.base.filter_infos _), rfl, rfl, ?_⟩
    intro s hs
    simpa using (List.mem_filter.mp hs).2
  obtain ⟨m₁, hlists₁, hid₁, hlist₁, hinfos₁⟩ := hlost
  obtain ⟨m₂, hlists₂, hid₂, hlist₂⟩ := lists_erase hlists₁ hinfos₁
  rw [hid₁] at hlists₂ hid₂
  refine ⟨rfl, rfl, ?_, ⟨m₂, hlists₂, hid₂⟩⟩
  rw [hlists₂.numbers, h.numbers]
  ext n
  simp only [List.mem_toFinset, List.mem_map, Finset.mem_erase, hlist₂, hlist₁]
  constructor
  · rintro ⟨s, ⟨hs, hne⟩, rfl⟩
    exact ⟨hne, s, hs, rfl⟩
  · rintro ⟨hne, s, hs, rfl⟩
    exact ⟨s, ⟨hs, hne⟩, rfl⟩

/-- One round takes the snapshot out of the list, or changes no number of it.  There is one branch
for each of the conditions of `Goes`, in the order in which the source checks them. -/
theorem deleteOne_outcome (h : d.Lists configName m) (hname : m'.configName = configName)
    (hid : m.id = m'.id) :
    (Goes env configName d num ∧ ∃ d', (deleteOne env m' num).run d = (.ok ⟨⟩, d') ∧
      Gone configName m.id num d d') ∨
    (¬ Goes env configName d num ∧ ∃ e d', (deleteOne env m' num).run d = (.error e, d') ∧
      Unheard configName d d') := by
  subst hname
  -- the checks and calls in the order of the source, each refusing what `Goes` asks
  cases huse : d.snapshotInUse m'.configName num with
  | true =>
    refine Or.inr ⟨fun hgoes => ?_, .SnapshotInUse, d, ?_, Unheard.refl⟩
    · rw [hgoes.unused] at huse
      cases huse
    · simp [deleteOne, checkSnapshotInUse, Act.run_bind, huse, Act.throwIf]
  | false =>
    have hcheck : (checkSnapshotInUse m' num).run d = (.ok ⟨⟩, d) := by
      simp [checkSnapshotInUse, Act.run_bind, huse, Act.throwIf]
    have hfind : (findSnapshot m'.id num).run d =
      (.ok (lookup Snapshot.num num m.snapshots), d) := by
      rw [← hid, ← snapshots_of_metaSnapper h.metaSnapper]
      rfl
    rw [deleteOne, Act.run_bind_ok hcheck, Act.run_bind_ok hfind, ← hid]
    have hlisted : num ∈ d.numbers m'.configName ↔
        (lookup Snapshot.num num m.snapshots).isSome = true := by
      rw [h.numbers, List.mem_toFinset, List.mem_map, lookup_isSome_iff]
    cases hs : lookup Snapshot.num num m.snapshots with
    | none =>
      refine Or.inr ⟨fun hgoes => ?_, .IllegalSnapshotException, d, rfl, Unheard.refl⟩
      have hsome := hlisted.mp hgoes.listed
      rw [hs] at hsome
      cases hsome
    | some s =>
      obtain rfl : s.num = num := key_of_lookup hs
      have hlisted : s.num ∈ d.numbers m'.configName := hlisted.mpr (by rw [hs]; rfl)
      by_cases hzero : s.num = 0
      · refine Or.inr ⟨fun hgoes => hgoes.nonzero hzero, .IllegalSnapshotException, d,
          ?_, Unheard.refl⟩
        simp [deleteSnapshot, Snapshot.isCurrent, hzero]
      · have hcurrent : s.isCurrent = false := by simpa [Snapshot.isCurrent] using hzero
        cases hfilesystem : env.fault (.deleteFilesystemSnapshot s.num) with
        | some fault =>
          refine Or.inr ⟨fun hgoes => ?_, .fault fault, d, ?_, Unheard.refl⟩
          · rw [hgoes.filesystem] at hfilesystem
            cases hfilesystem
          · simp [deleteSnapshot, Act.run_bind, call, hcurrent, hfilesystem]
        | none =>
          -- from here on the file system snapshot is gone, but the list still has it
          cases hinfo : env.fault (.deleteInfo s.num) with
          | some fault =>
            refine Or.inr ⟨fun hgoes => ?_, .fault fault, d.loseInfo m.id s.num, ?_,
              unheard_modDisk h⟩
            · rw [hgoes.info] at hinfo
              cases hinfo
            · simp [deleteSnapshot, Act.run_bind, call, hcurrent, hfilesystem, hinfo]
          | none =>
            refine Or.inl ⟨⟨hlisted, hzero, huse, hfilesystem, hinfo⟩, _, ?_,
              gone (env.stays s.num) h⟩
            simp [deleteSnapshot, Act.run_bind, call, hcurrent, hfilesystem, hinfo]

/-- Whether a snapshot is in use is a matter of the clients. -/
theorem snapshotInUse_of_clients (hclients : d'.clients = d.clients) :
    d'.snapshotInUse configName num = d.snapshotInUse configName num := by
  rw [Daemon.snapshotInUse, Daemon.snapshotInUse, hclients]

/-- What can be deleted after a deletion: the same snapshots without the one that is gone. -/
theorem goes_of_gone {id : Nat} {n : UInt32} (h : Gone configName id num d d') :
    Goes env configName d' n ↔ Goes env configName d n ∧ n ≠ num := by
  have huse : d'.snapshotInUse configName n = d.snapshotInUse configName n :=
    snapshotInUse_of_clients h.clients
  constructor
  · intro hgoes
    have hlisted := hgoes.listed
    rw [h.numbers, Finset.mem_erase] at hlisted
    exact ⟨⟨hlisted.2, hgoes.nonzero, huse.symm.trans hgoes.unused, hgoes.filesystem, hgoes.info⟩,
      hlisted.1⟩
  · rintro ⟨hgoes, hne⟩
    refine ⟨?_, hgoes.nonzero, huse.trans hgoes.unused, hgoes.filesystem, hgoes.info⟩
    rw [h.numbers]
    exact Finset.mem_erase.mpr ⟨hne, hgoes.listed⟩

theorem allGo_nil : AllGo env configName d [] :=
  ⟨fun _ hn => absurd hn List.not_mem_nil, List.nodup_nil⟩

/-- All of a list can be deleted when the first can, and the rest can in what it leaves. -/
theorem allGo_cons {id : Nat} (h : Gone configName id num d d')
    (hgoes : Goes env configName d num) :
    AllGo env configName d (num :: nums) ↔ AllGo env configName d' nums := by
  simp only [AllGo, List.forall_mem_cons, List.nodup_cons, goes_of_gone h]
  constructor
  · rintro ⟨⟨-, hall⟩, hnot, hnodup⟩
    refine ⟨fun n hn => ⟨hall n hn, ?_⟩, hnodup⟩
    rintro rfl
    exact hnot hn
  · rintro ⟨hall, hnodup⟩
    exact ⟨⟨hgoes, fun n hn => (hall n hn).1⟩, fun hmem => (hall num hmem).2 rfl, hnodup⟩

/-- Numbers may have gone from the list, and nothing is said of it. -/
structure Shrunk (configName : Str) (d d' : Daemon) : Prop where
  numbers : d'.numbers configName ⊆ d.numbers configName
  sent : ∃ msgs, d'.sent = d.sent ++ msgs ∧ ∀ numbers, listen configName msgs numbers = numbers

/-- Nothing has gone where nothing has changed. -/
theorem Unheard.shrunk (h : Unheard configName d d') : Shrunk configName d d' := by
  refine ⟨?_, h.sent⟩
  rw [h.numbers]

/-- After a deletion more may go. -/
theorem Gone.trans_shrunk {id : Nat} {d'' : Daemon} (h : Gone configName id num d d')
    (h' : Shrunk configName d' d'') : Shrunk configName d d'' := by
  constructor
  · have hsub := h'.numbers
    rw [h.numbers] at hsub
    exact hsub.trans (Finset.erase_subset _ _)
  · rw [← h.sent]
    exact h'.sent

/-- The loop deletes all that it is given, or it fails with what it has deleted.  The induction is
on the numbers, and each round decides about the first. -/
theorem deleteAll_outcome (h : d.Lists configName m) (hname : m'.configName = configName)
    (hid : m.id = m'.id) :
    (AllGo env configName d nums ∧ ∃ d', (deleteAll env m' nums).run d = (.ok ⟨⟩, d') ∧
      d'.sent = d.sent ∧ d'.numbers configName = d.numbers configName \ nums.toFinset) ∨
    (¬ AllGo env configName d nums ∧ ∃ e d', (deleteAll env m' nums).run d = (.error e, d') ∧
      Shrunk configName d d') := by
  induction nums generalizing d m with
  | nil =>
    refine Or.inl ⟨allGo_nil, d, rfl, rfl, ?_⟩
    simp
  | cons num nums ih =>
    rw [deleteAll_cons]
    have hone : (Goes env configName d num ∧ ∃ d', (deleteOne env m' num).run d = _ ∧ _) ∨ _ :=
      deleteOne_outcome h hname hid
    -- the first number goes, or it stops the loop with nothing done by this round
    rcases hone with ⟨hgoes, d₁, hrun, hgone⟩ | ⟨hnot, e, d₁, hrun, hunheard⟩
    · rw [Act.run_bind_ok hrun, allGo_cons hgone hgoes]
      obtain ⟨m₁, hlists₁, hid₁⟩ := hgone.lists
      rcases ih hlists₁ (hid₁.trans hid) with ⟨hall, d₂, hrun', hsent, hnumbers⟩ | ⟨hnot, e, d₂,
        hrun', hshrunk⟩
      · refine Or.inl ⟨hall, d₂, hrun', hsent.trans hgone.sent, ?_⟩
        rw [hnumbers, hgone.numbers]
        ext n
        simp only [Finset.mem_sdiff, Finset.mem_erase, List.mem_toFinset, List.mem_cons]
        tauto
      · exact Or.inr ⟨hnot, e, d₂, hrun', hgone.trans_shrunk hshrunk⟩
    · refine Or.inr ⟨fun hall => hnot (hall.1 num List.mem_cons_self), e, d₁, ?_, hunheard.shrunk⟩
      exact Act.run_bind_error hrun

/-- The first round decides whether anything is deleted. -/
theorem deleteAll_first (h : d.Lists configName m) (hname : m'.configName = configName)
    (hid : m.id = m'.id) :
    (Goes env configName d num →
      num ∉ ((deleteAll env m' (num :: nums)).run d).2.numbers configName) ∧
    (¬ Goes env configName d num →
      Unheard configName d ((deleteAll env m' (num :: nums)).run d).2) := by
  rw [deleteAll_cons]
  have hone : (Goes env configName d num ∧ ∃ d', (deleteOne env m' num).run d = _ ∧ _) ∨ _ :=
    deleteOne_outcome h hname hid
  rcases hone with ⟨hgoes, d₁, hrun, hgone⟩ | ⟨hnot, e, d₁, hrun, hunheard⟩
  · refine ⟨fun _ => ?_, fun hnot => absurd hgoes hnot⟩
    rw [Act.run_bind_ok hrun]
    obtain ⟨m₁, hlists₁, hid₁⟩ := hgone.lists
    have hfirst : num ∉ d₁.numbers configName := by
      rw [hgone.numbers]
      exact Finset.notMem_erase num _
    -- a number that is gone does not come back with the others
    have hrest :
        (AllGo env configName d₁ nums ∧ ∃ d', (deleteAll env m' nums).run d₁ = _ ∧ _) ∨ _ :=
      deleteAll_outcome hlists₁ hname (hid₁.trans hid)
    rcases hrest with ⟨-, d₂, hrun', -, hnumbers⟩ | ⟨-, e, d₂, hrun', hshrunk⟩
    · rw [hrun', hnumbers]
      exact fun hmem => hfirst (Finset.mem_sdiff.mp hmem).1
    · rw [hrun']
      exact fun hmem => hfirst (hshrunk.numbers hmem)
  · refine ⟨fun hgoes => absurd hgoes hnot, fun _ => ?_⟩
    rw [Act.run_bind_error hrun]
    exact hunheard

/-- The first of the snapshots can be deleted, and not all of them. -/
def HalfGo (env : Env) (configName : Str) (d : Daemon) (nums : List UInt32) : Prop :=
  (∃ num rest, nums = num :: rest ∧ Goes env configName d num) ∧ ¬ AllGo env configName d nums

/-- After the loop the request tells the listener all numbers at once.  So the listener is right
unless the loop has stopped after a deletion, which happens exactly when the first number can go
and a later one cannot. -/
theorem deleteAll_tells {tail : Handler PUnit} (h : d.Lists configName m)
    (hname : m'.configName = configName) (hid : m.id = m'.id)
    (htail : ∀ d, ∃ d' msgs, tail.run d = (.ok ⟨⟩, d') ∧ d'.sent = d.sent ++ msgs ∧
      d'.numbers configName = d.numbers configName ∧
      ∀ numbers, listen configName msgs numbers = numbers \ nums.toFinset) :
    Tells configName (HalfGo env configName d nums) d
      ((deleteAll env m' nums >>= fun _ => tail).run d) := by
  have hcases : (AllGo env configName d nums ∧ ∃ d', (deleteAll env m' nums).run d = _ ∧ _) ∨ _ :=
    deleteAll_outcome h hname hid
  rcases hcases with ⟨hall, d₁, hrun, hsent, hnumbers⟩ | ⟨hnot, e, d₁, hrun, hshrunk⟩
  · rw [Act.run_bind_ok hrun]
    obtain ⟨d₂, msgs, hrun', hsent', hnumbers', hlisten⟩ := htail d₁
    rw [hrun']
    refine ⟨⟨msgs, hsent'.trans (by rw [hsent]), iff_of_true ?_ fun hhalf => hhalf.2 hall⟩,
      fun e he => nomatch he⟩
    rw [hlisten, hnumbers', hnumbers]
  · rw [Act.run_bind_error hrun]
    -- the loop stopped: if the first one was deleted, it is gone and no signal said so
    cases nums with
    | nil => exact absurd allGo_nil hnot
    | cons num nums =>
      have hfirst : (Goes env configName d num →
          num ∉ ((deleteAll env m' (num :: nums)).run d).2.numbers configName) ∧ _ :=
        deleteAll_first h hname hid
      rw [hrun] at hfirst
      by_cases hgoes : Goes env configName d num
      · obtain ⟨msgs, hsent, hnothing⟩ := hshrunk.sent
        -- the snapshots sent no signal, and the first number is no longer listed
        have hhalf : HalfGo env configName d (num :: nums) := ⟨⟨num, nums, rfl, hgoes⟩, hnot⟩
        refine ⟨⟨msgs, hsent, iff_of_false ?_ (not_not_intro hhalf)⟩, fun _ _ h => absurd hhalf h⟩
        rw [hnothing]
        intro hsame
        exact hfirst.1 hgoes (hsame ▸ hgoes.listed)
      · have hunheard : Unheard configName d d₁ := hfirst.2 hgoes
        apply hunheard.tells
        rintro ⟨⟨num', rest, hnums, hgoes'⟩, -⟩
        cases hnums
        exact hgoes hgoes'

/-- The request comes to the list, deletes a snapshot and fails at another one.  It comes to the
list when the config is known and loads, the user is permitted, no other client has a lock and the
config is not in use. -/
def HalfDeletes (env : Env) (me configName : Str) (nums : List UInt32) (d : Daemon) : Prop :=
  ∃ m, Opens env configName d m ∧ d.lockedByOther me configName = false ∧ m.counter = 0 ∧
    HalfGo env configName d nums

/-- Opening the config does not change what can be deleted of it. -/
theorem halfGo_opened (hd : d.Base) (hfind : d.find configName = some m) :
    HalfGo env configName (d.opened env m) nums ↔ HalfGo env configName d nums := by
  have hopened : Unheard configName d (d.opened env m) := unheard_opened hd hfind
  have hclients : (d.opened env m).clients = d.clients := by
    rw [Daemon.opened]
    split
    · rfl
    · rfl
  have hgoes : ∀ num, Goes env configName (d.opened env m) num ↔ Goes env configName d num := by
    intro num
    have huse : (d.opened env m).snapshotInUse configName num = d.snapshotInUse configName num :=
      snapshotInUse_of_clients hclients
    constructor
    · intro h
      exact ⟨hopened.numbers ▸ h.listed, h.nonzero, huse.symm.trans h.unused, h.filesystem, h.info⟩
    · intro h
      exact ⟨hopened.numbers.symm ▸ h.listed, h.nonzero, huse.trans h.unused, h.filesystem, h.info⟩
  simp only [HalfGo, AllGo, hgoes]

/-- A request that does not come to the list is answered with an error, and nothing has changed.
-/
theorem deleteSnapshots_refused (hd : d.Base)
    (h : ¬ ∃ m, Opens env configName d m ∧ d.lockedByOther me configName = false ∧ m.counter = 0) :
    ∃ e, (deleteSnapshots env me configName nums).run d = (.error e, d) := by
  cases hfind : d.find configName with
  | none => exact ⟨_, Act.run_bind_error (findConfig_run_none hfind)⟩
  | some m =>
    rw [deleteSnapshots, Act.run_bind_ok (findConfig_run hfind)]
    -- permission, lock, uses and loading, in the order of the source
    by_cases hpermitted : Permitted env m
    · rw [Act.run_bind_ok (checkPermission_run hpermitted)]
      cases hlocked : d.lockedByOther me configName with
      | true =>
        have hlock : (checkLock me configName).run d = (.error .Lock, d) := checkLock_run hlocked
        exact ⟨_, Act.run_bind_error hlock⟩
      | false =>
        have hlock : (checkLock me configName).run d = (.ok ⟨⟩, d) := by
          simp [checkLock, Act.run_bind, hlocked, Act.throwIf]
        rw [Act.run_bind_ok hlock]
        by_cases hcounter : m.counter = 0
        · have hinUse : (checkConfigInUse m).run d = (.ok ⟨⟩, d) := by
            simp [checkConfigInUse, hcounter, Act.throwIf]
          rw [Act.run_bind_ok hinUse]
          have hload : ¬ (m.isLoaded = true ∨ env.fault (.loadSnapper m.configName) = none) :=
            fun hload => h ⟨m, ⟨hfind, hpermitted, hload⟩, hlocked, hcounter⟩
          obtain ⟨e, hrun⟩ := getSnapper_run_not (hd.addresses.metaSnapper_of_find hfind) hload
          exact ⟨e, Act.run_bind_error hrun⟩
        · have hinUse : (checkConfigInUse m).run d = (.error .ConfigInUse, d) := by
            simp [checkConfigInUse, hcounter, Act.throwIf]
          exact ⟨_, Act.run_bind_error hinUse⟩
    · obtain ⟨e, hrun⟩ : ∃ e, (checkPermission env m).run d = (.error e, d) :=
        checkPermission_run_not hpermitted
      exact ⟨e, Act.run_bind_error hrun⟩

/-- `DeleteSnapshots` tells a listener what it did, unless it has failed in between. -/
theorem deleteSnapshots_tells (hd : d.Base) :
    Tells configName (HalfDeletes env me configName nums d) d
      ((deleteSnapshots env me configName nums).run d) := by
  by_cases hcomes : ∃ m, Opens env configName d m ∧ d.lockedByOther me configName = false ∧
      m.counter = 0
  · obtain ⟨m, hopens, hlocked, hcounter⟩ := hcomes
    obtain ⟨m', hlists, hid, -⟩ := lists_opened hd hopens
    have hlock : (checkLock me configName).run d = (.ok ⟨⟩, d) := by
      simp [checkLock, Act.run_bind, hlocked, Act.throwIf]
    have hinUse : (checkConfigInUse m).run d = (.ok ⟨⟩, d) := by
      simp [checkConfigInUse, hcounter, Act.throwIf]
    have hload := getSnapper_run (hd.addresses.metaSnapper_of_find hopens.find) hopens.loads
    rw [deleteSnapshots, Act.run_bind_ok (findConfig_run hopens.find),
      Act.run_bind_ok (checkPermission_run hopens.permitted), Act.run_bind_ok hlock,
      Act.run_bind_ok hinUse, Act.run_bind_ok hload]
    apply (unheard_opened hd hopens.find).trans_tells
    have htells : Tells configName (HalfGo env configName (d.opened env m) nums) (d.opened env m)
        ((deleteAll env m nums >>= fun _ => sendReply me .done >>= fun _ =>
          signal (.snapshotsDeleted configName nums)).run (d.opened env m)) := by
      -- after the loop the client gets its reply and the others the signal
      apply deleteAll_tells hlists (configName_of_find hopens.find) hid
      intro d
      refine ⟨_, [.reply me .done, .snapshotsDeleted configName nums], rfl, ?_, rfl, ?_⟩
      · show (d.sent ++ [_]) ++ [_] = _
        rw [List.append_assoc]
        rfl
      · intro numbers
        exact if_pos rfl
    apply htells.congr
    rw [halfGo_opened hd hopens.find]
    constructor
    · intro hhalf
      exact ⟨m, hopens, hlocked, hcounter, hhalf⟩
    · rintro ⟨-, -, -, -, hhalf⟩
      exact hhalf
  · obtain ⟨e, hrun⟩ : ∃ e, (deleteSnapshots env me configName nums).run d = (.error e, d) :=
      deleteSnapshots_refused hd hcomes
    rw [hrun]
    apply tells_refused
    rintro ⟨m, hopens, hlocked, hcounter, -⟩
    exact hcomes ⟨m, hopens, hlocked, hcounter⟩

end Deleting

/-! ## Requests on one config -/

/-- The request creates or deletes snapshots of the config. -/
def Request.lists (configName : Str) : Request → Bool
  | .createSingleSnapshot name .. => name = configName
  | .createPreSnapshot name .. => name = configName
  | .createPostSnapshot name .. => name = configName
  | .deleteSnapshots name _ => name = configName
  | _ => false

/-- The request changes the list and fails afterwards. -/
def Request.halves (env : Env) (me : Str) (d : Daemon) : Request → Prop
  | .createSingleSnapshot configName _ _ userdata =>
    HalfCreates env configName (fun _ => True) userdata d
  | .createPreSnapshot configName _ _ userdata =>
    HalfCreates env configName (fun _ => True) userdata d
  | .createPostSnapshot configName preNum _ _ userdata =>
    HalfCreates env configName (AllowsPost preNum) userdata d
  | .deleteSnapshots configName nums => HalfDeletes env me configName nums d
  | _ => False

section Requests

variable {env : Env} {me configName : Str} {d : Daemon} {request : Request}

/-- What a listener starts from: the answer to `ListSnapshots` has the numbers of the list. -/
theorem listSnapshots_numbers {m : MetaSnapper} (hd : d.Base) (h : Opens env configName d m) :
    (handle env me (.listSnapshots configName)).run d =
      (.ok ⟨⟩, (d.opened env m).send (.reply me (.snapshots m.shown))) ∧
    (m.shown.map Snapshot.num).toFinset = d.numbers configName := by
  obtain ⟨m', hlists, hid, -, -, hsnapshots, -⟩ := lists_opened hd h
  have hlist : (d.opened env m).snapshots m.id = m.shown := by
    rw [← hid, snapshots_of_metaSnapper hlists.metaSnapper, hsnapshots]
  constructor
  · show (listSnapshots env me configName).run d = _
    rw [listSnapshots, Act.run_bind_ok (openConfig_run hd.addresses h), ← hlist]
    rfl
  · rw [Daemon.numbers, h.find]

/-- A request that creates or deletes snapshots tells a listener what it did, unless it is done by
half. -/
theorem handle_tells (hd : d.Base) (hrequest : request.lists configName = true) :
    Tells configName (request.halves env me d) d ((handle env me request).run d) := by
  cases request with
  | createSingleSnapshot name description cleanup userdata =>
    obtain rfl : name = configName := by simpa [Request.lists] using hrequest
    exact handleCreateSingleSnapshot_tells hd
  | createPreSnapshot name description cleanup userdata =>
    obtain rfl : name = configName := by simpa [Request.lists] using hrequest
    exact handleCreatePreSnapshot_tells hd
  | createPostSnapshot name preNum description cleanup userdata =>
    obtain rfl : name = configName := by simpa [Request.lists] using hrequest
    exact handleCreatePostSnapshot_tells hd
  | deleteSnapshots name nums =>
    obtain rfl : name = configName := by simpa [Request.lists] using hrequest
    exact deleteSnapshots_tells hd
  | _ => cases hrequest

/-- The same of a request with its answer, which no listener takes for a signal. -/
theorem dispatch_sends (hd : d.Base) (hrequest : request.lists configName = true) :
    Sends configName (request.halves env me d) d (dispatch env me request d) := by
  have htells : Tells configName (request.halves env me d) d ((handle env me request).run d) :=
    handle_tells hd hrequest
  have hsends := htells.sends
  rw [dispatch]
  cases hrun : (handle env me request).run d with
  | mk r d' =>
    rw [hrun] at hsends
    cases r with
    | ok _ => exact hsends
    | error e => exact hsends.trans_unheard (unheard_send fun _ => rfl)

end Requests

/-! ## Runs -/

/-- The infos that can be read, with those that are pending, are of the numbers in the list. -/
def MetaSnapper.OnDisk (m : MetaSnapper) : Prop :=
  ∀ num, m.Has num ↔ num = 0 ∨ ((∃ s ∈ m.disk.infos, s.num = num) ∨
    ∃ s ∈ m.snapshots, s.infoModified = true ∧ s.num = num) ∧ num ∉ m.disk.unreadable

/-- The step changes the list and does not say so: a request fails after a change, a config is
unloaded whose list is not the one on disk, or other snapshots of a config that is not loaded can
be read. All three are conditions on the state before the step. -/
def Conceals (configName : Str) (d : Daemon) : Action → Prop
  | .work name env => ∃ request, d.next name = some request ∧ request.halves env name (d.take name)
  | .unload id env => ∃ m, d.find configName = some m ∧ m.id = id ∧ Unloads env d m ∧ ¬ m.OnDisk
  | .spoil id nums => ¬ (d.aborted = true ∨ d.terminated = true) ∧
      ∃ m, d.find configName = some m ∧ m.id = id ∧ m.isLoaded = false ∧
        ∃ s ∈ m.disk.infos, ¬ (s.num ∈ nums ↔ s.num ∈ m.disk.unreadable)
  | _ => False

/-- Each request that is served creates or deletes snapshots of the config. -/
def OnlyLists (configName : Str) (d : Daemon) : Action → Prop
  | .work name _ => ∀ request, d.next name = some request → request.lists configName = true
  | _ => True

/-- A request that is answered with an error leaves the numbers as they are. -/
def ErrorKeeps (configName : Str) (d : Daemon) : Action → Prop
  | .work name env => ∀ request e, d.next name = some request →
      ((handle env name request).run (d.take name)).1 = .error e →
      (d.step (.work name env)).numbers configName = d.numbers configName
  | _ => True

/-- A listener that has started from the numbers of one state has those of the other. -/
def Mirrors (configName : Str) (d d' : Daemon) : Prop :=
  ∃ msgs, d'.sent = d.sent ++ msgs ∧
    listen configName msgs (d.numbers configName) = d'.numbers configName

section Runs

variable {env : Env} {name configName : Str} {start d d' : Daemon} {id : Nat} {num : UInt32}
  {m : MetaSnapper}

/-- The numbers that are read. -/
theorem mem_read_nums {disk : Disk} : num ∈ (disk.read.map Snapshot.num).toFinset ↔
    num = 0 ∨ (∃ s ∈ disk.infos, s.num = num) ∧ num ∉ disk.unreadable := by
  rw [List.mem_toFinset, List.mem_map]
  constructor
  · rintro ⟨s, hs, rfl⟩
    rcases mem_read.mp hs with rfl | hreadable
    · exact Or.inl rfl
    · obtain ⟨hinfo, hread⟩ := mem_readable.mp hreadable
      exact Or.inr ⟨⟨s, hinfo, rfl⟩, hread⟩
  · rintro (rfl | ⟨⟨s, hs, rfl⟩, hread⟩)
    · exact ⟨Snapshot.current, mem_read.mpr (Or.inl rfl), rfl⟩
    · exact ⟨s, mem_read.mpr (Or.inr (mem_readable.mpr ⟨hs, hread⟩)), rfl⟩

/-- What is on disk after some writing was there or is written. -/
theorem of_writes_infos {snapshots : List Snapshot} {disk : Disk}
    (h : ∃ s ∈ (snapshots.foldl (fun disk s => disk.write s) disk).infos, s.num = num) :
    (∃ s ∈ disk.infos, s.num = num) ∨ ∃ s ∈ snapshots, s.num = num := by
  induction snapshots generalizing disk with
  | nil => exact Or.inl h
  | cons s snapshots ih =>
    rcases ih h with ⟨s', hs', hnum⟩ | ⟨s', hs', hnum⟩
    · rcases List.mem_append.mp hs' with hold | hnew
      · exact Or.inl ⟨s', (List.mem_filter.mp hold).1, hnum⟩
      · obtain rfl := List.mem_singleton.mp hnew
        exact Or.inr ⟨s, List.mem_cons_self, hnum⟩
    · exact Or.inr ⟨s', List.mem_cons_of_mem _ hs', hnum⟩

/-- The disk that an unload leaves. -/
def MetaSnapper.written (m : MetaSnapper) : Disk :=
  (m.snapshots.filter Snapshot.infoModified).foldl (fun disk s => disk.write s) m.disk

/-- What is read from the disk that an unload leaves is the list exactly when the list is on disk.
-/
theorem written_eq_iff :
    (m.snapshots.map Snapshot.num).toFinset = (m.written.read.map Snapshot.num).toFinset ↔
    m.OnDisk := by
  have hread : ∀ num, num ∈ (m.written.read.map Snapshot.num).toFinset ↔
      num = 0 ∨ ((∃ s ∈ m.disk.infos, s.num = num) ∨
        ∃ s ∈ m.snapshots, s.infoModified = true ∧ s.num = num) ∧ num ∉ m.disk.unreadable := by
    intro num
    -- on disk there is what was there and what the unload wrote
    have hinfos : (∃ s ∈ m.written.infos, s.num = num) ↔ (∃ s ∈ m.disk.infos, s.num = num) ∨
        ∃ s ∈ m.snapshots, s.infoModified = true ∧ s.num = num := by
      constructor
      · intro hs
        rcases of_writes_infos hs with hold | ⟨s, hs, hnum⟩
        · exact Or.inl hold
        · obtain ⟨hmem, hmodified⟩ := List.mem_filter.mp hs
          exact Or.inr ⟨s, hmem, hmodified, hnum⟩
      · intro hs
        apply writes_infos
        rcases hs with hinfo | ⟨s, hs, hmodified, hnum⟩
        · exact Or.inl hinfo
        · exact Or.inr ⟨s, List.mem_filter.mpr ⟨hs, hmodified⟩, hnum⟩
    rw [mem_read_nums, ← hinfos]
    exact or_congr_right (and_congr_right fun _ => by rw [MetaSnapper.written, unreadable_writes])
  rw [Finset.ext_iff]
  simp only [hread, List.mem_toFinset, ← has_iff]
  rfl

/-- An unloaded config shows what can be read of its disk. -/
theorem numbers_unloaded (hfind : d.find configName = some m) (hid : m.id = id) :
    (d.modMeta id fun m' => { m' with
      snapper := none
      disk := (m.snapshots.filter Snapshot.infoModified).foldl (fun disk s => disk.write s)
        m'.disk }).numbers configName = (m.written.read.map Snapshot.num).toFinset := by
  rw [Daemon.numbers, find_modMeta_self (by intro; rfl) hfind hid]
  rfl

/-- An unload tells nobody anything, so it is right exactly when the list is what will be read
next. -/
theorem unload_sends (hd : d.Base) :
    Sends configName (Conceals configName d (.unload id env)) d (d.step (.unload id env)) := by
  by_cases hunloads : ∃ m, d.metaSnapper id = some m ∧ Unloads env d m
  · obtain ⟨m, hm, hunloads⟩ := hunloads
    have hother : ∀ m', d.find configName = some m' → m'.id = id → m' = m :=
      fun m' hfind hid => eq_of_find hd hfind hm hid
    rw [step_unload_run hm hunloads]
    by_cases hfound : d.find configName = some m
    · have hid : m.id = id := id_of_metaSnapper hm
      have hbefore : d.numbers configName = (m.snapshots.map Snapshot.num).toFinset := by
        rw [Daemon.numbers, hfound, ← shown_of_loaded hunloads.loaded]
      refine ⟨[], (List.append_nil _).symm, ?_⟩
      -- an unloaded config shows what is on disk, so the two must agree
      rw [numbers_unloaded hfound hid, hbefore]
      show (m.snapshots.map Snapshot.num).toFinset = _ ↔ _
      rw [written_eq_iff]
      constructor
      · rintro hdisk ⟨m', hfind', hid', -, hnot⟩
        obtain rfl := hother m' hfind' hid'
        exact hnot hdisk
      · intro hhalf
        by_contra hnot
        exact hhalf ⟨m, hfound, hid, hunloads, hnot⟩
    · -- another config has the name
      refine Unheard.sends (unheard_modMeta (by intro; rfl) ?_) ?_
      · intro m' hfind hid
        obtain rfl := hother m' hfind hid
        exact absurd hfind hfound
      · rintro ⟨m', hfind, hid, -⟩
        obtain rfl := hother m' hfind hid
        exact hfound hfind
  · have hno : ∀ m, d.metaSnapper id = some m → ¬ Unloads env d m :=
      fun m hm h => hunloads ⟨m, hm, h⟩
    have hhalf : ¬ Conceals configName d (.unload id env) := by
      rintro ⟨m, hfind, rfl, h, -⟩
      exact hno m (hd.addresses.metaSnapper_of_find hfind) h
    rcases step_unload_not hno with hsame | ⟨m, written, hm, hloaded, hend⟩
    · rw [hsame]
      exact Unheard.refl.sends hhalf
    · -- the list is in memory, whatever is written
      have hwritten : Unheard configName d (d.writeInfos id written) := by
        apply unheard_modMeta (by intro; rfl)
        intro m' hfind hid
        obtain rfl := eq_of_find hd hfind hm hid
        rw [shown_of_loaded hloaded]
        exact congrArg (List.map Snapshot.num) (shown_of_loaded hloaded)
      rw [hend]
      exact (hwritten.trans unheard_terminate).sends hhalf

/-- Whether two lists of numbers hide the same infos. -/
theorem read_nums_eq_iff {disk : Disk} {nums : List UInt32} (hdisk : disk.WF) :
    (disk.read.map Snapshot.num).toFinset =
      (({ disk with unreadable := nums } : Disk).read.map Snapshot.num).toFinset ↔
      ∀ s ∈ disk.infos, s.num ∈ nums ↔ s.num ∈ disk.unreadable := by
  rw [Finset.ext_iff]
  simp only [mem_read_nums]
  constructor
  · intro h s hs
    have hnum := h s.num
    have hinfo : ∃ s' ∈ disk.infos, s'.num = s.num := ⟨s, hs, rfl⟩
    simp only [hdisk.nonzero s hs, false_or, hinfo, true_and] at hnum
    exact (not_iff_not.mp hnum).symm
  · intro h num
    refine or_congr_right (and_congr_right ?_)
    rintro ⟨s, hs, rfl⟩
    exact not_congr (h s hs).symm

/-- What can be read matters while the config is not loaded. -/
theorem spoil_sends {nums : List UInt32} (hd : d.Base) :
    Sends configName (Conceals configName d (.spoil id nums)) d (d.step (.spoil id nums)) := by
  rw [Daemon.step.eq_def]
  split
  · next hended => exact Unheard.refl.sends fun h => h.1 hended
  · next hrunning =>
    show Sends configName _ d (d.spoil id nums)
    by_cases hfound : ∃ m, d.find configName = some m ∧ m.id = id ∧ m.isLoaded = false
    · obtain ⟨m, hfind, hid, hloaded⟩ := hfound
      have hunloaded : m.snapper = none := by simpa [MetaSnapper.isLoaded] using hloaded
      have hbefore : d.numbers configName = (m.disk.read.map Snapshot.num).toFinset := by
        rw [Daemon.numbers, hfind, ← shown_of_unloaded hunloaded]
      have hafter : (d.spoil id nums).numbers configName =
          (({ m.disk with unreadable := nums } : Disk).read.map Snapshot.num).toFinset := by
        rw [Daemon.numbers, Daemon.spoil, Daemon.modDisk,
          find_modMeta_self (by intro; rfl) hfind hid]
        exact congrArg (fun l => (List.map Snapshot.num l).toFinset) (shown_of_unloaded hunloaded)
      refine ⟨[], (List.append_nil _).symm, ?_⟩
      rw [hafter, hbefore]
      show (m.disk.read.map Snapshot.num).toFinset = _ ↔ _
      rw [read_nums_eq_iff (hd.numbered m (mem_of_find hfind)).disk]
      constructor
      · rintro hsame ⟨-, m', hfind', -, -, s, hs, hnot⟩
        obtain rfl := Option.some.inj (hfind.symm.trans hfind')
        exact hnot (hsame s hs)
      · intro hhalf s hs
        by_contra hnot
        exact hhalf ⟨hrunning, m, hfind, hid, hloaded, s, hs, hnot⟩
    · -- the list is in memory, or it is another config
      refine Unheard.sends (unheard_modMeta (by intro; rfl) ?_) ?_
      · intro m hfind hid
        have hloaded : m.isLoaded = true := by
          by_contra hnot
          exact hfound ⟨m, hfind, hid, Bool.eq_false_iff.mpr hnot⟩
        rw [shown_of_loaded hloaded]
        exact congrArg (List.map Snapshot.num) (shown_of_loaded hloaded)
      · rintro ⟨-, m, hfind, hid, hloaded, -⟩
        exact hfound ⟨m, hfind, hid, hloaded⟩

/-- What a step tells a listener is what it does to the numbers, unless it conceals something. -/
theorem step_sends (hd : d.Base) {a : Action} (hrequest : OnlyLists configName d a) :
    Sends configName (Conceals configName d a) d (d.step a) := by
  -- an unload and a change of what can be read tell nobody; the rest is unheard altogether
  cases a with
  | work name env =>
    cases hnext : d.next name with
    | none =>
      rw [step_work_none hnext]
      apply Unheard.refl.sends
      rintro ⟨request, hnext', -⟩
      rw [hnext] at hnext'
      cases hnext'
    | some request =>
      rw [step_work hnext]
      -- taking the request off the queue is not heard, serving it is
      have htaken : Unheard configName d (d.take name) := unheard_modClient
      have hsends : Sends configName (request.halves env name (d.take name)) (d.take name)
          (dispatch env name request (d.take name)) :=
        dispatch_sends (take_base hd) (hrequest request hnext)
      obtain ⟨msgs, hsent, hiff⟩ := htaken.trans_sends hsends
      refine ⟨msgs, hsent, hiff.trans (not_congr ?_)⟩
      constructor
      · intro hhalf
        exact ⟨request, hnext, hhalf⟩
      · rintro ⟨request', hnext', hhalf⟩
        obtain rfl := Option.some.inj (hnext.symm.trans hnext')
        exact hhalf
  | unload id env => exact unload_sends hd
  | spoil id nums => exact spoil_sends hd
  | _ => exact (step_unheard hd (by simp) (by simp) (by simp)).sends id

/-- Where the step conceals nothing, an error has changed no number. -/
theorem errorKeeps_of_open (hd : d.Base) {a : Action} (hrequest : OnlyLists configName d a)
    (h : ¬ Conceals configName d a) : ErrorKeeps configName d a := by
  cases a with
  | work name env =>
    intro request e hnext herror
    have htells : Tells configName (request.halves env name (d.take name)) (d.take name)
        ((handle env name request).run (d.take name)) :=
      handle_tells (take_base hd) (hrequest request hnext)
    have hkept := htells.keeps e herror fun hhalf => h ⟨request, hnext, hhalf⟩
    -- the answer to an error changes no list
    have hdispatch : dispatch env name request (d.take name) =
        ((handle env name request).run (d.take name)).2.send (.error name e.error) := by
      rw [dispatch]
      cases hrun : (handle env name request).run (d.take name) with
      | mk r d' =>
        rw [hrun] at herror
        dsimp only at herror
        rw [herror]
    have htaken : Unheard configName d (d.take name) := unheard_modClient
    rw [step_work hnext, hdispatch, ← htaken.numbers]
    exact hkept
  | _ => trivial

/-- A step that conceals nothing, and no other, takes a listener from the list to the list. -/
theorem mirrors_step_iff (hd : d.Base) {a : Action} (hrequest : OnlyLists configName d a)
    (h : Mirrors configName start d) :
    Mirrors configName start (d.step a) ↔ ¬ Conceals configName d a := by
  obtain ⟨msgs, hsent, hmirrors⟩ := h
  obtain ⟨msgs', hsent', hiff⟩ := step_sends hd hrequest
  have hall : (d.step a).sent = start.sent ++ (msgs ++ msgs') := by
    rw [hsent', hsent, List.append_assoc]
  rw [← hiff, ← hmirrors, ← listen_append]
  constructor
  · rintro ⟨msgs'', hsent'', hmirrors''⟩
    obtain rfl := List.append_cancel_left (hall.symm.trans hsent'')
    exact hmirrors''
  · intro hmirrors'
    exact ⟨_, hall, hmirrors'⟩

/-- A listener that starts anywhere keeps the numbers of the list in a run of requests that create
and delete snapshots of a config, and an error leaves the list as it is, exactly when no step
conceals what it does. -/
theorem signals_mirror_iff {actions : List Action} (hstart : start.Reachable)
    (hrequests : Along (OnlyLists configName) Daemon.step actions start) :
    ((∀ done rest, actions = done ++ rest →
        Mirrors configName start (done.foldl Daemon.step start)) ∧
      Along (ErrorKeeps configName) Daemon.step actions start) ↔
    Along (fun d a => ¬ Conceals configName d a) Daemon.step actions start := by
  have hpoints := points_iff_along (R := Mirrors configName start) hrequests hstart.base
    (fun d a hbase _ => step_base hbase a) ⟨[], (List.append_nil _).symm, rfl⟩
    fun d a hbase hrequest hmirrors => mirrors_step_iff hbase hrequest hmirrors
  rw [hpoints]
  constructor
  · exact fun h => h.1
  · intro h
    refine ⟨h, along_iff.mpr fun done a rest hactions => ?_⟩
    have hbase : (done.foldl Daemon.step start).Base :=
      foldl_induction (P := fun _ => Daemon.Base) hstart.base
        (fun _ a _ _ hbase => step_base hbase a) hactions
    exact errorKeeps_of_open hbase (along_iff.mp hrequests done a rest hactions)
      (along_iff.mp h done a rest hactions)

end Runs

/-- Root creates a snapshot, and the listener has it. -/
theorem signals_mirror_created :
    Mirrors (str "root") Daemon.rootOnly
      ([.receive (str "a") (.createSingleSnapshot (str "root") (str "new") [] .empty),
        .work (str "a") Env.quiet].foldl Daemon.step Daemon.rootOnly) := by
  refine ((signals_mirror_iff (rootOnly_reachable []) ?_).mpr ?_).1 _ _ (List.append_nil _).symm
  · refine ⟨trivial, ?_, trivial⟩
    intro request hnext
    cases hnext
    decide
  · refine ⟨fun h => h, ?_, trivial⟩
    rintro ⟨request, hnext, hhalf⟩
    cases hnext
    obtain ⟨m, num, -, -, -, hnot⟩ := hhalf
    exact hnot ⟨rfl, rfl, rfl⟩

/-- The userdata of a request is refused once its snapshot is in the list: the client gets an
error, and the listener has no snapshot 2. -/
theorem create_refused_listed :
    let actions : List Action :=
      [.receive (str "a") (.createSingleSnapshot (str "root") (str "new") [] badUserdata),
        .work (str "a") Env.quiet]
    Daemon.rootOnly.Reachable ∧ Along (OnlyLists (str "root")) Daemon.step actions Daemon.rootOnly ∧
      (actions.foldl Daemon.step Daemon.rootOnly).sent =
        [.error (str "a") (str "error.invalid_userdata")] ∧
      2 ∈ (actions.foldl Daemon.step Daemon.rootOnly).numbers (str "root") ∧
      ¬ Mirrors (str "root") Daemon.rootOnly (actions.foldl Daemon.step Daemon.rootOnly) := by
  refine ⟨rootOnly_reachable [], ⟨trivial, ?_, trivial⟩, rfl, by decide, ?_⟩
  · intro request hnext
    cases hnext
    decide
  · rintro ⟨msgs, hsent, hmirrors⟩
    obtain rfl : msgs = [.error (str "a") (str "error.invalid_userdata")] := hsent.symm
    exact absurd hmirrors (by decide)

end Snapper.Server
