import Mathlib.Data.Finset.Basic
import Mathlib.Data.Finset.Dedup
import Snapper.Server.Mounted

/-!
# What a listener to the signals hears

A listener keeps the numbers of the snapshots of a config: it adds what is signalled as created
and removes what is signalled as deleted.  Most steps of the daemon neither change the numbers
in its list nor send such a signal.

## Main results

* `step_unheard`: a step that serves no request, apart from an unload and a change of what can be
  read, goes unheard.
-/

namespace Snapper.Server

open General Act

/-! ## The listener -/

/-- What a listener makes of a message: it knows the two signals about the snapshots of its config
and takes no notice of anything else. -/
def hear (configName : Str) (numbers : Finset UInt32) : Sent → Finset UInt32
  | .snapshotCreated name num => if name = configName then Insert.insert num numbers else numbers
  | .snapshotsDeleted name nums => if name = configName then numbers \ nums.toFinset else numbers
  | _ => numbers

/-- What it has after some messages. -/
def listen (configName : Str) (msgs : List Sent) (numbers : Finset UInt32) : Finset UInt32 :=
  msgs.foldl (hear configName) numbers

/-- The numbers that `ListSnapshots` gives. -/
def Daemon.numbers (configName : Str) (d : Daemon) : Finset UInt32 :=
  match d.find configName with
  | none => ∅
  | some m => (m.shown.map Snapshot.num).toFinset

/-- The numbers are the same, and nothing is sent that a listener hears, so that it is right
afterwards when it was right before. -/
structure Unheard (configName : Str) (d d' : Daemon) : Prop where
  numbers : d'.numbers configName = d.numbers configName
  sent : ∃ msgs, d'.sent = d.sent ++ msgs ∧ ∀ numbers, listen configName msgs numbers = numbers

section Unheard

variable {env : Env} {name configName : Str} {d d' : Daemon} {id : Nat}
  {f : MetaSnapper → MetaSnapper}

/-- Messages are heard one after the other. -/
theorem listen_append {msgs msgs' : List Sent} {numbers : Finset UInt32} :
    listen configName (msgs ++ msgs') numbers =
      listen configName msgs' (listen configName msgs numbers) := List.foldl_append

/-- Nothing happened. -/
theorem Unheard.refl : Unheard configName d d :=
  ⟨rfl, [], (List.append_nil _).symm, fun _ => rfl⟩

/-- Two steps that go unheard are unheard together. -/
theorem Unheard.trans {d'' : Daemon} (h : Unheard configName d d')
    (h' : Unheard configName d' d'') :
    Unheard configName d d'' := by
  obtain ⟨msgs, hsent, hnothing⟩ := h.sent
  obtain ⟨msgs', hsent', hnothing'⟩ := h'.sent
  refine ⟨h'.numbers.trans h.numbers, msgs ++ msgs', ?_, fun numbers => ?_⟩
  · rw [hsent', hsent, List.append_assoc]
  · rw [listen_append, hnothing, hnothing']

/-- The numbers are those of the configs. -/
theorem numbers_of_metaSnappers (h : d'.metaSnappers = d.metaSnappers) :
    d'.numbers configName = d.numbers configName := by
  rw [Daemon.numbers, Daemon.numbers, Daemon.find, Daemon.find, h]

/-- A change of one config that shows the same numbers. -/
theorem numbers_modMeta (hname : ∀ m, (f m).configName = m.configName)
    (hshown : ∀ m, d.find configName = some m → m.id = id →
      (f m).shown.map Snapshot.num = m.shown.map Snapshot.num) :
    (d.modMeta id f).numbers configName = d.numbers configName := by
  rw [Daemon.numbers, Daemon.numbers, find_modMeta hname]
  cases hfind : d.find configName with
  | none => rfl
  | some m =>
    simp only [Option.map_some]
    split
    · next hid => rw [hshown m hfind hid]
    · rfl

/-- A step that changes no config and sends nothing. -/
theorem unheard_of_same (hmetas : d'.metaSnappers = d.metaSnappers) (hsent : d'.sent = d.sent) :
    Unheard configName d d' :=
  ⟨numbers_of_metaSnappers hmetas, [], by rw [hsent, List.append_nil], fun _ => rfl⟩

/-- A change of one config that shows the same numbers, without a message. -/
theorem unheard_modMeta (hname : ∀ m, (f m).configName = m.configName)
    (hshown : ∀ m, d.find configName = some m → m.id = id →
      (f m).shown.map Snapshot.num = m.shown.map Snapshot.num) :
    Unheard configName d (d.modMeta id f) :=
  ⟨numbers_modMeta hname hshown, [], (List.append_nil _).symm, fun _ => rfl⟩

/-- An answer is no signal. -/
theorem unheard_send {msg : Sent} (hmsg : ∀ numbers, hear configName numbers msg = numbers) :
    Unheard configName d (d.send msg) :=
  ⟨numbers_of_metaSnappers rfl, [msg], rfl, hmsg⟩

/-- Configs change in their counts only. -/
theorem unheard_map (hname : ∀ m, (f m).configName = m.configName)
    (hshown : ∀ m, (f m).shown = m.shown) (hmetas : d'.metaSnappers = d.metaSnappers.map f)
    (hsent : d'.sent = d.sent) : Unheard configName d d' := by
  refine ⟨?_, [], by rw [hsent, List.append_nil], fun _ => rfl⟩
  rw [Daemon.numbers, Daemon.numbers, Daemon.find, hmetas, lookup_map hname]
  show (match (d.find configName).map f with
    | none => ∅
    | some m => (m.shown.map Snapshot.num).toFinset) = _
  cases d.find configName with
  | none => rfl
  | some m =>
    simp only [Option.map_some]
    rw [hshown]

/-- Changing a snapshot in place keeps the numbers in the list. -/
theorem shown_setSnapshots_update {m : MetaSnapper} {num : UInt32} {g : Snapshot → Snapshot}
    (hnum : ∀ s, (g s).num = s.num) :
    (m.setSnapshots (General.update Snapshot.num num g)).shown.map Snapshot.num =
      m.shown.map Snapshot.num := by
  cases hsnapper : m.snapper with
  | none => simp [MetaSnapper.setSnapshots, MetaSnapper.shown, hsnapper]
  | some loaded => simp [MetaSnapper.setSnapshots, MetaSnapper.shown, hsnapper, map_update hnum]

/-- A change of one snapshot that keeps its number. -/
theorem unheard_modSnapshot {num : UInt32} {g : Snapshot → Snapshot}
    (hnum : ∀ s, (g s).num = s.num) :
    Unheard configName d (d.modSnapshot id num g) :=
  unheard_modMeta (by intro; rfl) fun _ _ _ => shown_setSnapshots_update hnum

/-- The list that is loaded is the one that was shown: an unloaded config already shows what can
be read of its disk. -/
theorem unheard_openedAt (hbase : d.Base) : Unheard configName d (d.openedAt env id) := by
  rw [Daemon.openedAt]
  split
  · exact Unheard.refl
  · next m hm =>
    obtain rfl := id_of_metaSnapper hm
    have hload : Unheard configName d (if m.isLoaded = true then d else d.load m.id) := by
      split
      · exact Unheard.refl
      -- loading makes the list of what was shown
      · next hunloaded =>
        have hmod : Unheard configName d (d.modMeta m.id fun m =>
            { m with snapper := some ⟨d.nextId, m.disk.read⟩ }) := by
          apply unheard_modMeta (by intro; rfl)
          intro m' hfind hid
          obtain rfl := eq_of_find hbase hfind hm hid
          have hshown : m'.shown = m'.disk.read :=
            shown_of_unloaded (by simpa [MetaSnapper.isLoaded] using hunloaded)
          rw [hshown]
          rfl
        exact hmod.trans (unheard_of_same rfl rfl)
    exact hload.trans (unheard_modMeta (by intro; rfl) fun _ _ _ => rfl)

/-- What is changed while it is unheard; the numbers stay well-formed, which the next change
needs. -/
def Silent (configName : Str) (d d' : Daemon) : Prop :=
  d.Base → d'.Base ∧ Unheard configName d d'

/-- A sequence of silent changes is silent. -/
theorem silent_of_steps (h : Relation.ReflTransGen (Silent configName) d d') (hbase : d.Base) :
    d'.Base ∧ Unheard configName d d' := by
  induction h with
  | refl => exact ⟨hbase, Unheard.refl⟩
  | tail _ hstep ih =>
    obtain ⟨hbase', hunheard⟩ := ih
    obtain ⟨hbase'', hunheard'⟩ := hstep hbase'
    exact ⟨hbase'', hunheard.trans hunheard'⟩

/-- Counting mounts is silent. -/
theorem silent_changes : ChangesSnapshots (Silent configName) := by
  intro d id num f hnum hbase
  exact ⟨hbase.modSnapshot hnum, unheard_modSnapshot hnum⟩

/-- Mounting for a comparison changes counts only. -/
theorem mountBoth_unheard {num1 num2 : UInt32} {r : Except Exception PUnit} (hbase : d.Base)
    (hrun : (mountBoth env id num1 num2).run d = (r, d')) : Unheard configName d d' :=
  (silent_of_steps ((mountBoth_changes silent_changes).steps_of_run trivial hrun) hbase).2

/-- Unmounting after a comparison changes counts only. -/
theorem umountBoth_unheard {num1 num2 : UInt32} {r : Except Exception PUnit} (hbase : d.Base)
    (hrun : (umountBoth env id num1 num2).run d = (r, d')) : Unheard configName d d' :=
  (silent_of_steps ((umountBoth_changes silent_changes).steps_of_run trivial hrun) hbase).2

/-- The loop over the mounts of a client that goes may load configs, and what they show stays the
same. -/
theorem umountAll_silent {l : List (MountKey × UInt32)} :
    Through (Silent configName) (fun _ => True) (umountAll env l) fun _ _ => True := by
  induction l with
  | nil => exact Through.pure fun _ _ => trivial
  | cons entry rest ih =>
    apply Through.bind findConfig_through
    intro m
    apply Through.bind (Q := fun _ _ => True)
    · intro d _
      -- a config that is not loaded is loaded here, or the loading fails
      have hcases : (getSnapper env m.id).run d = (.ok ⟨⟩, d.openedAt env m.id) ∨ _ :=
        getSnapper_cases
      rcases hcases with hrun | ⟨e, hrun⟩
      · rw [hrun]
        exact ⟨.single fun hbase => ⟨hbase.openedAt, unheard_openedAt hbase⟩, fun _ _ => trivial⟩
      · rw [hrun]
        exact ⟨.refl, fun _ _ => trivial⟩
    · intro _
      apply Through.bind getSnapshot_through
      intro _
      apply Through.bind (Q := fun _ _ => True)
      · apply (umountTimes_through (P := fun _ => True) silent_changes fun _ _ _ h => h).conseq
        · exact fun _ _ => trivial
        · exact fun _ _ h => h
      · intro _
        exact ih

theorem unheard_release : Unheard configName d (d.release env id) := by
  have hdec : Unheard configName d (d.modMeta id (MetaSnapper.dec env)) :=
    unheard_modMeta (by intro; rfl) fun _ _ _ => rfl
  exact hdec.trans (unheard_of_same rfl rfl)

theorem unheard_modClient {g : Client → Client} : Unheard configName d (d.modClient name g) :=
  unheard_of_same rfl rfl

/-- A comparison that fails is answered to its client. -/
theorem unheard_failed {making : Making} {e : Exception} :
    Unheard configName d (d.failed env name making e) := by
  have hworker : Unheard configName d (d.setWorker name .waiting) := unheard_modClient
  exact (hworker.trans unheard_release).trans (unheard_send fun _ => rfl)

theorem unheard_incUseCount : Unheard configName d (incUseCount id d) :=
  unheard_modMeta (by intro; rfl) fun _ _ _ => rfl

/-- A comparison that is finished is answered to its client. -/
theorem unheard_finished {making : Making} {comparison : Comparison} :
    Unheard configName d (d.finished env name making comparison) := by
  have hclient : Unheard configName d (d.modClient name fun c =>
      { c with comparisons := c.comparisons ++ [comparison], worker := .waiting }) :=
    unheard_modClient
  exact ((hclient.trans unheard_incUseCount).trans (unheard_send fun _ => rfl)).trans
    unheard_release

/-- Giving back comparisons changes counts only. -/
theorem unheard_decAll {comparisons : List Comparison} :
    Unheard configName d (decAll env comparisons d) := by
  induction comparisons generalizing d with
  | nil => exact Unheard.refl
  | cons comparison comparisons ih =>
    have hdec : Unheard configName d (decUseCount env comparison.snapper d) := by
      apply unheard_map (f := fun m => if m.isEqual comparison.snapper then m.dec env else m)
      · intro m
        split
        · rfl
        · rfl
      · intro m
        split
        · rfl
        · rfl
      · rfl
      · rfl
    exact hdec.trans ih

theorem unheard_terminate : Unheard configName d d.terminate := unheard_of_same rfl rfl

/-! ## The steps -/

/-- The constructor mounts, of which no listener hears. -/
theorem mountComparison_unheard (hbase : d.Base) :
    Unheard configName d (d.mountComparison name env) := by
  have hcases : d.mountComparison name env = d ∨ _ := mountComparison_cases
  rcases hcases with hsame | ⟨making, num1, num2, d₁, -, -, -, -, hrest⟩
  · rw [hsame]
    exact Unheard.refl
  · rcases hrest with ⟨hrun, hmounted⟩ | ⟨e, hrun, hfailed⟩
    · rw [hmounted]
      exact (mountBoth_unheard hbase hrun).trans unheard_modClient
    · rw [hfailed]
      exact (mountBoth_unheard hbase hrun).trans unheard_failed

/-- The answer goes to the client that asked and is no signal. -/
theorem finishComparison_unheard {files : List DBus.SentFile} (hbase : d.Base) :
    Unheard configName d (d.finishComparison name env files) := by
  have hcases : d.finishComparison name env files = d ∨ _ := finishComparison_cases
  rcases hcases with hsame | ⟨making, num1, num2, d₁, -, -, -, hrest⟩
  · rw [hsame]
    exact Unheard.refl
  · rcases hrest with ⟨hrun, hfinished⟩ | ⟨e, -, hrun, hfailed⟩
    · have hunheard : Unheard configName d d₁ := by
        split at hrun
        · exact umountBoth_unheard hbase hrun
        · rw [hrun]
          exact Unheard.refl
      rw [hfinished]
      exact hunheard.trans unheard_finished
    · rw [hfailed]
      exact (umountBoth_unheard hbase hrun).trans unheard_failed

theorem failComparison_unheard {failure : Failure} :
    Unheard configName d (d.failComparison name env failure) := by
  have hcases : d.failComparison name env failure = d ∨ _ := failComparison_cases
  rcases hcases with hsame | ⟨making, -, ⟨e, hfailed⟩ | ⟨-, hreleased⟩⟩
  · rw [hsame]
    exact Unheard.refl
  · rw [hfailed]
    exact unheard_failed
  · rw [hreleased]
    have hworker : Unheard configName d (d.setWorker name .ended) := unheard_modClient
    exact hworker.trans unheard_release

theorem startTask_unheard (hbase : d.Base) : Unheard configName d (d.startTask env) := by
  have hcases : d.startTask env = d ∨ d.startTask env = d.terminate ∨ _ := startTask_cases
  rcases hcases with hsame | hend | ⟨task, rest, -, -, hstart⟩
  · rw [hsame]
    exact Unheard.refl
  · rw [hend]
    exact unheard_terminate
  · rw [hstart]
    exact (unheard_openedAt hbase).trans (unheard_of_same rfl rfl)

theorem mountTask_unheard (hbase : d.Base) : Unheard configName d (d.mountTask env) := by
  rw [Daemon.mountTask]
  split
  · next making _ =>
    split
    · next num1 num2 _ _ =>
      cases hrun : (mountBoth env making.metaSnapper num1 num2).run d with
      | mk r d₁ =>
        have hunheard : Unheard configName d d₁ := mountBoth_unheard hbase hrun
        cases r with
        | ok _ => exact hunheard.trans (unheard_of_same rfl rfl)
        | error e => exact hunheard.trans unheard_terminate
    · exact Unheard.refl
  · exact Unheard.refl

theorem finishTask_unheard (hbase : d.Base) : Unheard configName d (d.finishTask env) := by
  rw [Daemon.finishTask]
  split
  · next making _ =>
    split
    · next num1 num2 _ _ =>
      cases hrun : (umountBoth env making.metaSnapper num1 num2).run d with
      | mk r d₁ =>
        have hunheard : Unheard configName d d₁ := umountBoth_unheard hbase hrun
        cases r with
        | ok _ => exact (hunheard.trans unheard_release).trans (unheard_of_same rfl rfl)
        | error e => exact hunheard.trans unheard_terminate
    · exact unheard_release.trans (unheard_of_same rfl rfl)
    · exact unheard_terminate
  · exact Unheard.refl

/-- A client that goes is not heard of. -/
theorem reap_unheard (hbase : d.Base) : Unheard configName d (d.reap name env) := by
  have hcases : d.reap name env = d ∨ _ := reap_cases
  rcases hcases with hsame | ⟨client, d₁, -, -, -, hrest⟩
  · rw [hsame]
    exact Unheard.refl
  · have hdec : (decAll env client.comparisons d).Base := hbase.decAll
    have humount : ∀ {r}, (umountAll env client.mounts.entries).run
        (decAll env client.comparisons d) = (r, d₁) → Unheard configName d d₁ := by
      intro r hrun
      have hsteps : Relation.ReflTransGen (Silent configName) _ d₁ :=
        umountAll_silent.steps_of_run trivial hrun
      exact unheard_decAll.trans (silent_of_steps hsteps hdec).2
    rcases hrest with ⟨hrun, hreap⟩ | ⟨e, hrun, hend⟩
    · rw [hreap]
      exact (humount hrun).trans (unheard_of_same rfl rfl)
    · rw [hend]
      exact (humount hrun).trans unheard_terminate

/-- A step that serves no request goes unheard, apart from an unload and a change of what can be
read. -/
theorem step_unheard (hbase : d.Base) {a : Action} (hwork : ∀ name env, a ≠ .work name env)
    (hunload : ∀ id env, a ≠ .unload id env) (hspoil : ∀ id nums, a ≠ .spoil id nums) :
    Unheard configName d (d.step a) := by
  rw [Daemon.step.eq_def]
  split
  · exact Unheard.refl
  -- only requests and unloading change what a client may know of the numbers
  · cases a with
    | receive name request =>
      show Unheard configName d (d.receive name request)
      rw [Daemon.receive]
      split
      · exact unheard_of_same rfl rfl
      · exact unheard_of_same rfl rfl
    | disconnect name => exact unheard_modClient
    | work name env => exact absurd rfl (hwork name env)
    | endWorker name =>
      show Unheard configName d (d.endWorker name)
      have hcases : d.endWorker name = d ∨ _ := endWorker_cases
      rcases hcases with hsame | ⟨-, -, -, -, hend⟩
      · rw [hsame]
        exact Unheard.refl
      · rw [hend]
        exact unheard_modClient
    | mountComparison name env => exact mountComparison_unheard hbase
    | finishComparison name env files => exact finishComparison_unheard hbase
    | failComparison name env failure => exact failComparison_unheard
    | startTask env => exact startTask_unheard hbase
    | mountTask env => exact mountTask_unheard hbase
    | finishTask env => exact finishTask_unheard hbase
    | popTask =>
      show Unheard configName d d.popTask
      rcases popTask_cases with hsame | ⟨-, hpop⟩
      · rw [hsame]
        exact Unheard.refl
      · rw [hpop]
        exact unheard_of_same rfl rfl
    | reap name env => exact reap_unheard hbase
    | unload id env => exact absurd rfl (hunload id env)
    | race id num userRequest useCount => exact unheard_modSnapshot raced_num
    | spoil id nums => exact absurd rfl (hspoil id nums)

end Unheard

end Snapper.Server
