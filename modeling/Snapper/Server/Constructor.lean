import Snapper.Server.Access
import Snapper.Server.SetSnapshot
import Snapper.Server.Steps

/-!
# The constructor of a comparison

`Comparison::create` mounts both snapshots, scans them and unmounts them.  Each of the two calls
counts at the snapshots; nothing catches an exception between them, so what was counted by then
stays counted.

## Main results

- `mountBoth_run`: how far mounting gets, and what it counts
- `counts_restored_iff`: when the constructor leaves the counts as they were
-/

namespace Snapper

open Server

namespace Snapshot

/-- Whether finding out if the snapshot is mounted succeeds. -/
def checks (env : Env) (configName : Str) (s : Snapshot) : Bool :=
  s.mountChecked || (env.fault (.isSnapshotMounted configName s.num)).isNone

/-- Whether mounting the snapshot for a comparison counts at it. -/
def isCounted (env : Env) (configName : Str) (s : Snapshot) : Bool :=
  !s.isCurrent && s.checks env configName

/-- Whether mounting the snapshot for a comparison succeeds. -/
def mounts (env : Env) (configName : Str) (s : Snapshot) : Bool :=
  s.isCurrent || (s.checks env configName && (env.fault (.mountSnapshot s.num)).isNone)

/-- The snapshot after mounting it for a comparison. -/
def afterMount (env : Env) (configName : Str) (s : Snapshot) : Snapshot :=
  if s.isCounted env configName then
    (s.checkMounted (env.isSnapshotMounted s.num)).countMount false
  else s

/-- The snapshot after unmounting it again. -/
def afterUmount (env : Env) (s : Snapshot) : Snapshot :=
  if s.isCurrent then s else (s.checkMounted (env.isSnapshotMounted s.num)).countUmount false

end Snapshot

end Snapper

namespace Snapper.Server

open General

/-! ## The constructor -/

/-- What leaves the constructor -/
inductive Stop where
  | exception (e : Exception)
  /-- `boost::thread_interrupted` -/
  | interrupted

/-- What happens in the constructor besides mounting. -/
structure Course where
  /-- `load`: whether there was a list of files -/
  load : Except Fault Bool
  /-- opening both directories, and `cmpDirs` -/
  scan : Except Stop PUnit
  save : Except Fault PUnit

/-- `Comparison::create` -/
def create (env : Env) (id : Nat) (num1 num2 : UInt32) (scan : Except Stop PUnit) :
    Act Daemon Stop PUnit := do
  Act.mapError .exception (mountBoth env id num1 num2)
  Act.ofExcept scan
  Act.mapError .exception (umountBoth env id num1 num2)

/-- An exception of the library -/
def raised (r : Except Fault PUnit) : Act Daemon Stop PUnit :=
  Act.ofExcept (r.mapError fun fault => .exception (.fault fault))

/-- `Comparison::initialize` -/
def initializeComparison (env : Env) (id : Nat) (num1 num2 : UInt32) (course : Course) :
    Act Daemon Stop PUnit :=
  if num1 = 0 ∨ num2 = 0 then create env id num1 num2 course.scan
  else
    match course.load with
    | .error fault => throw (.exception (.fault fault))
    | .ok true => pure ⟨⟩
    | .ok false => do
      create env id num1 num2 course.scan
      raised course.save

/-- `Comparison::Comparison` -/
def construct (env : Env) (making : Making) (course : Course) : Act Daemon Stop PUnit :=
  match making.snapshots with
  | none => throw (.exception .IllegalSnapshotException)
  | some (num1, num2) => initializeComparison env making.metaSnapper num1 num2 course

/-- `mount_use_count` -/
def Daemon.useCount (d : Daemon) (id : Nat) (num : UInt32) : Option UInt32 :=
  (d.snapshot id num).map Snapshot.mountUseCount

/-! ## One snapshot -/

/-- One snapshot of a config is changed. -/
structure Turns (id : Nat) (num : UInt32) (g : Snapshot → Snapshot) (d d' : Daemon) : Prop where
  configName : (d'.metaSnapper id).map MetaSnapper.configName =
    (d.metaSnapper id).map MetaSnapper.configName
  snapshot : ∀ num', d'.snapshot id num' =
    (d.snapshot id num').map fun s => if num' = num then g s else s

variable {d d' d'' : Daemon} {env : Env} {id : Nat} {num num1 num2 : UInt32} {m : MetaSnapper}
  {s s1 s2 : Snapshot} {f g : Snapshot → Snapshot}

/-- A change of one snapshot turns it and leaves the others. -/
theorem Turns.modSnapshot (hg : ∀ s, (g s).num = s.num) :
    Turns id num g d (d.modSnapshot id num g) where
  configName := by
    rw [Daemon.modSnapshot, metaSnapper_modMeta (by intro; rfl), Option.map_map]
    rfl
  snapshot num' := by
    unfold Daemon.snapshot
    cases hm : d.metaSnapper id with
    | none =>
      have hnone : (d.modSnapshot id num g).metaSnapper id = none := by
        rw [Daemon.modSnapshot, metaSnapper_modMeta (by intro; rfl), hm]
        rfl
      rw [Daemon.snapshots, hnone, Daemon.snapshots, hm]
      rfl
    | some m =>
      rw [snapshots_modSnapshot hm]
      by_cases hne : num' = num
      · rw [hne, lookup_update_self hg]
        simp
      · rw [lookup_update_other hg hne]
        simp [hne]

theorem Turns.refl : Turns id num (fun s => s) d d where
  configName := rfl
  snapshot num' := by simp

theorem Turns.self (h : Turns id num g d d') (hs : d.snapshot id num = some s) :
    d'.snapshot id num = some (g s) := by
  rw [h.snapshot, hs, Option.map_some, if_pos rfl]

theorem Turns.other (h : Turns id num g d d') {num' : UInt32} (hne : num' ≠ num) :
    d'.snapshot id num' = d.snapshot id num' := by
  rw [h.snapshot]
  simp [hne]

/-- Only what becomes of the snapshot matters. -/
theorem Turns.congr (h : Turns id num g d d') (hs : d.snapshot id num = some s) (heq : g s = f s) :
    Turns id num f d d' where
  configName := h.configName
  snapshot num' := by
    rw [h.snapshot]
    by_cases hne : num' = num
    · simp [hne, hs, heq]
    · simp [hne]

theorem Turns.find (h : Turns id num g d d') (hm : d.metaSnapper id = some m) :
    ∃ m', d'.metaSnapper id = some m' ∧ m'.configName = m.configName := by
  have hname := h.configName
  rw [hm] at hname
  exact Option.map_eq_some_iff.mp hname

/-- The snapshot that is found has the number. -/
theorem num_of_snapshot (hs : d.snapshot id num = some s) : s.num = num := key_of_lookup hs

theorem mountOf_current (f : Env → Nat → Str → Snapshot → Bool → Handler PUnit) :
    (mountOf env id 0 f).run d = (.ok ⟨⟩, d) := rfl

/-- With the snapshot in the list the constructor mounts it under the name of its config. -/
theorem mountOf_run (hnum : num ≠ 0) (hm : d.metaSnapper id = some m)
    (hs : d.snapshot id num = some s) (f : Env → Nat → Str → Snapshot → Bool → Handler PUnit) :
    (mountOf env id num f).run d = (f env id m.configName s false).run d := by
  have hmeta : (Act.read (·.metaSnapper id) : Handler _).run d = (.ok (some m), d) := by
    rw [Act.run_read, hm]
  have hfind : (findSnapshot id num).run d = (.ok (some s), d) := by
    rw [findSnapshot, Act.run_read, hs]
  rw [mountOf, if_neg hnum, Act.run_bind_ok hmeta, Act.run_bind_ok hfind]

theorem num_checkMounted (mounted : Bool) (s : Snapshot) :
    (s.checkMounted mounted).num = s.num := by
  rw [Snapshot.checkMounted]
  split <;> rfl

/-- When the checks pass the snapshot only learns whether it is mounted. -/
theorem checkMounted_ok {configName : Str} (hcurrent : s.isCurrent = false)
    (hchecks : s.checks env configName = true) :
    (checkMounted env id configName s).run d = (.ok ⟨⟩, d.modSnapshot id s.num
      (Snapshot.checkMounted (env.isSnapshotMounted s.num))) := by
  unfold checkMounted
  rw [if_neg (by simp [hcurrent])]
  cases hchecked : s.mountChecked with
  | true => rfl
  | false =>
    have hfault : env.fault (.isSnapshotMounted configName s.num) = none := by
      simpa [Snapshot.checks, hchecked] using hchecks
    rw [call, hfault]
    rfl

/-- When a check fails `checkMounted` throws before it changes anything. -/
theorem checkMounted_error {configName : Str} (hcurrent : s.isCurrent = false)
    (hchecks : s.checks env configName = false) :
    ∃ e, (checkMounted env id configName s).run d = (.error e, d) := by
  simp only [Snapshot.checks, Bool.or_eq_false_iff, Option.isNone_eq_false_iff] at hchecks
  obtain ⟨hchecked, hfault⟩ := hchecks
  obtain ⟨fault, hfault⟩ := Option.isSome_iff_exists.mp hfault
  refine ⟨.fault fault, ?_⟩
  unfold checkMounted
  rw [if_neg (by simp [hcurrent]), hchecked, call, hfault]
  rfl

variable (env) in
theorem call_run {c : Call} :
    ∃ r, (call env c).run d = (r, d) ∧ r.isOk = (env.fault c).isNone := by
  unfold call
  cases env.fault c with
  | none => exact ⟨_, rfl, rfl⟩
  | some fault => exact ⟨_, rfl, rfl⟩

theorem isCurrent_iff : s.isCurrent = true ↔ s.num = 0 := decide_eq_true_iff

/-- An exception that comes before the count. -/
theorem checkMounted_not {configName : Str} (h : s.isCounted env configName = false) :
    ∃ e, (checkMounted env id configName s).run d = (.error e, d) := by
  cases hcurrent : s.isCurrent with
  | true => exact ⟨.IllegalSnapshotException, by simp [checkMounted, hcurrent]⟩
  | false =>
    have hchecks : s.checks env configName = false := by
      simpa [Snapshot.isCounted, hcurrent] using h
    exact checkMounted_error hcurrent hchecks

theorem checkMounted_run {configName : Str} (h : s.isCounted env configName = true) :
    (checkMounted env id configName s).run d = (.ok ⟨⟩, d.modSnapshot id s.num
      (Snapshot.checkMounted (env.isSnapshotMounted s.num))) := by
  simp only [Snapshot.isCounted, Bool.and_eq_true, Bool.not_eq_true'] at h
  exact checkMounted_ok h.1 h.2

/-- A failing `mountSnapshot` comes after the count. -/
theorem mountFilesystemSnapshot_run {configName : Str} (userRequest : Bool)
    (h : s.isCounted env configName = true) :
    ∃ r, (mountFilesystemSnapshot env id configName s userRequest).run d =
        (r, d.modSnapshot id s.num (Snapshot.countMount userRequest ∘
          Snapshot.checkMounted (env.isSnapshotMounted s.num))) ∧
      r.isOk = (env.fault (.mountSnapshot s.num)).isNone := by
  rw [mountFilesystemSnapshot, Act.run_bind_ok (checkMounted_run h),
    Act.run_bind_ok (Act.run_modify _ _), modSnapshot_modSnapshot (num_checkMounted _)]
  exact call_run env

/-- What unmounting does to the count, and that it can fail for a user's request only. -/
theorem umountFilesystemSnapshot_run {configName : Str} (userRequest : Bool)
    (h : s.isCounted env configName = true) :
    ∃ r, (umountFilesystemSnapshot env id configName s userRequest).run d =
        (r, d.modSnapshot id s.num (Snapshot.countUmount userRequest ∘
          Snapshot.checkMounted (env.isSnapshotMounted s.num))) ∧
      (userRequest = false → r = .ok ⟨⟩) := by
  rw [umountFilesystemSnapshot, Act.run_bind_ok (checkMounted_run h),
    Act.run_bind_ok (Act.run_modify _ _), modSnapshot_modSnapshot (num_checkMounted _)]
  set d' := d.modSnapshot id s.num (Snapshot.countUmount userRequest ∘
    Snapshot.checkMounted (env.isSnapshotMounted s.num))
  -- the count is read again after it was changed
  have hfind : (findSnapshot id s.num).run d' = (.ok (d'.snapshot id s.num), d') := rfl
  rw [Act.run_bind_ok hfind]
  cases d'.snapshot id s.num with
  | none => exact ⟨.ok ⟨⟩, rfl, fun _ => rfl⟩
  | some s' =>
    dsimp only
    split
    · next hlast =>
      obtain ⟨r, hrun, -⟩ := call_run env (c := .umountSnapshot s'.num) (d := d')
      refine ⟨r, hrun, fun hrequest => ?_⟩
      rw [hrequest] at hlast
      cases hlast.1
    · exact ⟨.ok ⟨⟩, rfl, fun _ => rfl⟩

variable (env) in
/-- Mounting one of the snapshots. -/
theorem mountOf_mount (hm : d.metaSnapper id = some m) (hs : d.snapshot id num = some s) :
    ∃ r d', (mountOf env id num mountFilesystemSnapshot).run d = (r, d') ∧
      r.isOk = s.mounts env m.configName ∧
      Turns id num (Snapshot.afterMount env m.configName) d d' := by
  have hnum := num_of_snapshot hs
  -- the current system is never mounted, and the count is left alone
  cases hcurrent : s.isCurrent with
  | true =>
    have hzero : num = 0 := hnum.symm.trans (isCurrent_iff.mp hcurrent)
    have hsame : s = s.afterMount env m.configName := by
      simp [Snapshot.afterMount, Snapshot.isCounted, hcurrent]
    rw [hzero] at hs ⊢
    have hmounts : s.mounts env m.configName = true := by simp [Snapshot.mounts, hcurrent]
    exact ⟨.ok ⟨⟩, d, mountOf_current _, hmounts.symm, Turns.refl.congr hs hsame⟩
  | false =>
    have hne : num ≠ 0 := fun h => by
      rw [isCurrent_iff.mpr (hnum.trans h)] at hcurrent
      cases hcurrent
    rw [mountOf_run hne hm hs]
    -- the check comes before the count, and the mount after it
    cases hcounted : s.isCounted env m.configName with
    | false =>
      obtain ⟨e, hrun⟩ : ∃ e, (checkMounted env id m.configName s).run d = (.error e, d) :=
        checkMounted_not hcounted
      have hsame : s = s.afterMount env m.configName := by simp [Snapshot.afterMount, hcounted]
      have hfails : s.mounts env m.configName = false := by
        simp only [Snapshot.isCounted, hcurrent, Bool.not_false, Bool.true_and] at hcounted
        simp [Snapshot.mounts, hcurrent, hcounted]
      exact ⟨.error e, d, Act.run_bind_error hrun, hfails.symm, Turns.refl.congr hs hsame⟩
    | true =>
      obtain ⟨r, hrun, hok⟩ : ∃ r,
        (mountFilesystemSnapshot env id m.configName s false).run d = _ ∧ _ :=
        mountFilesystemSnapshot_run false hcounted
      refine ⟨r, _, hrun, ?_, ?_⟩
      · simp only [Snapshot.isCounted, hcurrent, Bool.not_false, Bool.true_and] at hcounted
        rw [hok]
        simp [Snapshot.mounts, hcurrent, hcounted]
      · rw [hnum]
        refine (Turns.modSnapshot ?_).congr hs ?_
        · intro s
          exact num_checkMounted _ s
        · simp [Snapshot.afterMount, hcounted, hnum]

variable (env) in
/-- Unmounting one of the snapshots again. -/
theorem mountOf_umount (hm : d.metaSnapper id = some m) (hs : d.snapshot id num = some s)
    (hchecked : s.isCurrent = true ∨ s.mountChecked = true) :
    ∃ d', (mountOf env id num umountFilesystemSnapshot).run d = (.ok ⟨⟩, d') ∧
      Turns id num (Snapshot.afterUmount env) d d' := by
  have hnum := num_of_snapshot hs
  cases hcurrent : s.isCurrent with
  | true =>
    -- the current snapshot is not mounted at all
    have hzero : num = 0 := hnum.symm.trans (isCurrent_iff.mp hcurrent)
    have hsame : s = s.afterUmount env := by simp [Snapshot.afterUmount, hcurrent]
    rw [hzero] at hs ⊢
    exact ⟨d, mountOf_current _, Turns.refl.congr hs hsame⟩
  | false =>
    have hne : num ≠ 0 := fun h => by
      rw [isCurrent_iff.mpr (hnum.trans h)] at hcurrent
      cases hcurrent
    -- the check for a mount was made before, so that nothing can fail up to the count
    have hcounted : s.isCounted env m.configName = true := by
      have hchecked := hchecked.resolve_left (by simp [hcurrent])
      simp [Snapshot.isCounted, Snapshot.checks, hcurrent, hchecked]
    obtain ⟨r, hrun, hok⟩ : ∃ r,
      (umountFilesystemSnapshot env id m.configName s false).run d = _ ∧ _ :=
      umountFilesystemSnapshot_run false hcounted
    rw [mountOf_run hne hm hs]
    refine ⟨_, hrun.trans (by rw [hok rfl]), ?_⟩
    rw [hnum]
    refine (Turns.modSnapshot ?_).congr hs ?_
    · intro s
      exact num_checkMounted _ s
    · simp [Snapshot.afterUmount, hcurrent, hnum]

/-! ## Both snapshots -/

theorem mountUseCount_checkMounted (mounted : Bool) (s : Snapshot) :
    (s.checkMounted mounted).mountUseCount = s.mountUseCount := by
  rw [Snapshot.checkMounted]
  split <;> rfl

theorem mountChecked_checkMounted (mounted : Bool) (s : Snapshot) :
    (s.checkMounted mounted).mountChecked = true := by
  rw [Snapshot.checkMounted]
  split
  · assumption
  · rfl

theorem mountUseCount_afterMount (configName : Str) (s : Snapshot) :
    (s.afterMount env configName).mountUseCount =
      if s.isCounted env configName then s.mountUseCount + 1 else s.mountUseCount := by
  unfold Snapshot.afterMount
  split
  · simp [Snapshot.countMount, mountUseCount_checkMounted]
  · rfl

theorem mountUseCount_afterUmount (h : s.isCurrent = false) :
    (s.afterUmount env).mountUseCount = s.mountUseCount - 1 := by
  rw [Snapshot.afterUmount, if_neg (by simp [h])]
  exact congrArg (· - 1) (mountUseCount_checkMounted _ s)

theorem isCurrent_afterMount (configName : Str) (s : Snapshot) :
    (s.afterMount env configName).isCurrent = s.isCurrent := by
  have hnum : (s.afterMount env configName).num = s.num := by
    unfold Snapshot.afterMount
    split
    · exact num_checkMounted _ s
    · rfl
  rw [Snapshot.isCurrent, Snapshot.isCurrent, hnum]

/-- A snapshot that was mounted can be unmounted, and its count is then the one before. -/
theorem afterMount_of_mounts {configName : Str} (h : s.mounts env configName = true) :
    ((s.afterMount env configName).isCurrent = true ∨
      (s.afterMount env configName).mountChecked = true) ∧
    ((s.afterMount env configName).afterUmount env).mountUseCount = s.mountUseCount := by
  rw [isCurrent_afterMount]
  cases hcurrent : s.isCurrent with
  | true => simp [Snapshot.afterMount, Snapshot.afterUmount, Snapshot.isCounted, hcurrent]
  | false =>
    have hchecks : s.checks env configName = true := by
      simp only [Snapshot.mounts, hcurrent, Bool.false_or, Bool.and_eq_true] at h
      exact h.1
    have hcounted : s.isCounted env configName = true := by
      simp [Snapshot.isCounted, hcurrent, hchecks]
    constructor
    · rw [Snapshot.afterMount, if_pos hcounted]
      exact Or.inr (mountChecked_checkMounted _ s)
    · rw [mountUseCount_afterUmount ((isCurrent_afterMount configName s).trans hcurrent),
        mountUseCount_afterMount, if_pos hcounted, UInt32.add_sub_cancel]

variable (env) in
/-- How far `mount` gets, and what it counts. -/
theorem mountBoth_run (hne : num1 ≠ num2) (hm : d.metaSnapper id = some m)
    (hs1 : d.snapshot id num1 = some s1) (hs2 : d.snapshot id num2 = some s2) :
    ∃ r d', (mountBoth env id num1 num2).run d = (r, d') ∧
      r.isOk = (s1.mounts env m.configName && s2.mounts env m.configName) ∧
      (∃ m', d'.metaSnapper id = some m' ∧ m'.configName = m.configName) ∧
      d'.snapshot id num1 = some (s1.afterMount env m.configName) ∧
      d'.snapshot id num2 =
        some (if s1.mounts env m.configName then s2.afterMount env m.configName else s2) := by
  obtain ⟨r₁, d₁, hrun₁, hok₁, hturns₁⟩ := mountOf_mount env hm hs1
  obtain ⟨m₁, hm₁, hname₁⟩ := hturns₁.find hm
  have hs2' : d₁.snapshot id num2 = some s2 := (hturns₁.other hne.symm).trans hs2
  unfold mountBoth
  cases r₁ with
  | error e =>
    -- the second one is not tried
    have hno : s1.mounts env m.configName = false := hok₁.symm
    refine ⟨.error e, d₁, Act.run_bind_error hrun₁, by rw [hno]; rfl, ⟨m₁, hm₁, hname₁⟩,
      hturns₁.self hs1, ?_⟩
    rw [hs2', hno]
    rfl
  | ok _ =>
    have hyes : s1.mounts env m.configName = true := hok₁.symm
    obtain ⟨r₂, d₂, hrun₂, hok₂, hturns₂⟩ := mountOf_mount env hm₁ hs2'
    obtain ⟨m₂, hm₂, hname₂⟩ := hturns₂.find hm₁
    rw [hname₁] at hok₂ hturns₂
    refine ⟨r₂, d₂, (Act.run_bind_ok hrun₁).trans hrun₂, by rw [hyes, hok₂]; rfl,
      ⟨m₂, hm₂, hname₂.trans hname₁⟩, ?_, ?_⟩
    · rw [hturns₂.other hne, hturns₁.self hs1]
    · rw [hturns₂.self hs2', hyes]
      rfl

variable (env) in
/-- Both snapshots were looked at when they were mounted, so neither unmount can throw. -/
theorem umountBoth_run (hne : num1 ≠ num2) (hm : d.metaSnapper id = some m)
    (hs1 : d.snapshot id num1 = some s1) (hs2 : d.snapshot id num2 = some s2)
    (hchecked1 : s1.isCurrent = true ∨ s1.mountChecked = true)
    (hchecked2 : s2.isCurrent = true ∨ s2.mountChecked = true) :
    ∃ d', (umountBoth env id num1 num2).run d = (.ok ⟨⟩, d') ∧
      d'.snapshot id num1 = some (s1.afterUmount env) ∧
      d'.snapshot id num2 = some (s2.afterUmount env) := by
  obtain ⟨d₁, hrun₁, hturns₁⟩ := mountOf_umount env hm hs1 hchecked1
  obtain ⟨m₁, hm₁, -⟩ := hturns₁.find hm
  have hs2' : d₁.snapshot id num2 = some s2 := (hturns₁.other hne.symm).trans hs2
  obtain ⟨d₂, hrun₂, hturns₂⟩ := mountOf_umount env hm₁ hs2' hchecked2
  refine ⟨d₂, (Act.run_bind_ok hrun₁).trans hrun₂, ?_, hturns₂.self hs2'⟩
  rw [hturns₂.other hne, hturns₁.self hs1]

/-! ## The counts -/

/-- The use counts of both snapshots are the same. -/
def CountsKept (id : Nat) (num1 num2 : UInt32) (d d' : Daemon) : Prop :=
  d'.useCount id num1 = d.useCount id num1 ∧ d'.useCount id num2 = d.useCount id num2

theorem useCount_of_snapshot (h : d.snapshot id num = some s) :
    d.useCount id num = some s.mountUseCount := by
  rw [Daemon.useCount, h]
  rfl

/-- The first snapshot that is not the current one is not even counted. -/
def FailsAtOnce (env : Env) (configName : Str) (s1 s2 : Snapshot) : Prop :=
  (if s1.isCurrent then s2 else s1).checks env configName = false

/-- The list of the files is read, or cannot be read. -/
def Unscanned (s1 s2 : Snapshot) (course : Course) : Prop :=
  s1.isCurrent = false ∧ s2.isCurrent = false ∧ ∀ found, course.load = .ok found → found = true

/-- What counts at a snapshot raises its count. -/
theorem afterMount_count_eq_iff {configName : Str} :
    (s.afterMount env configName).mountUseCount = s.mountUseCount ↔
      s.isCounted env configName = false := by
  rw [mountUseCount_afterMount]
  cases s.isCounted env configName with
  | true =>
    refine iff_of_false ?_ (by simp)
    rw [if_pos rfl]
    grind
  | false => simp

/-- Mounting alone keeps the counts when it counts nothing. -/
theorem mount_kept_iff (hne : num1 ≠ num2) (hs1 : d.snapshot id num1 = some s1)
    (hs2 : d.snapshot id num2 = some s2)
    (hs1' : d'.snapshot id num1 = some (s1.afterMount env m.configName))
    (hs2' : d'.snapshot id num2 =
      some (if s1.mounts env m.configName then s2.afterMount env m.configName else s2)) :
    CountsKept id num1 num2 d d' ↔ FailsAtOnce env m.configName s1 s2 := by
  have hnums : ¬(s1.isCurrent = true ∧ s2.isCurrent = true) := by
    rw [isCurrent_iff, isCurrent_iff, num_of_snapshot hs1, num_of_snapshot hs2]
    intro ⟨h1, h2⟩
    exact hne (h1.trans h2.symm)
  have hkept : CountsKept id num1 num2 d d' ↔ s1.isCounted env m.configName = false ∧
      (s1.mounts env m.configName = true → s2.isCounted env m.configName = false) := by
    rw [CountsKept, useCount_of_snapshot hs1', useCount_of_snapshot hs2', useCount_of_snapshot hs1,
      useCount_of_snapshot hs2, Option.some_inj, Option.some_inj, afterMount_count_eq_iff]
    cases s1.mounts env m.configName with
    | true => simp [afterMount_count_eq_iff]
    | false => simp
  rw [hkept, FailsAtOnce]
  cases hcurrent1 : s1.isCurrent with
  | true =>
    have hcurrent2 : s2.isCurrent = false := by simpa [hcurrent1] using hnums
    simp [Snapshot.isCounted, Snapshot.mounts, hcurrent1, hcurrent2]
  | false =>
    -- what is not counted is not mounted
    cases hchecks : s1.checks env m.configName with
    | true => simp [Snapshot.isCounted, hcurrent1, hchecks]
    | false => simp [Snapshot.isCounted, Snapshot.mounts, hcurrent1, hchecks]

variable (env) in
/-- The counts are those before if the first mount fails at once, and those of two mounts if the
whole constructor succeeds; in between a count is left behind. -/
theorem create_kept_iff (hne : num1 ≠ num2) (hm : d.metaSnapper id = some m)
    (hs1 : d.snapshot id num1 = some s1) (hs2 : d.snapshot id num2 = some s2)
    (scan : Except Stop PUnit) :
    CountsKept id num1 num2 d ((create env id num1 num2 scan).run d).2 ↔
      FailsAtOnce env m.configName s1 s2 ∨ (s1.mounts env m.configName = true ∧
        s2.mounts env m.configName = true ∧ scan.isOk = true) := by
  obtain ⟨r, d', hrun, hok, ⟨m', hm', -⟩, hs1', hs2'⟩ :=
    mountBoth_run env hne hm hs1 hs2
  have hkept := mount_kept_iff hne hs1 hs2 hs1' hs2'
  unfold create
  cases r with
  | error e =>
    rw [Act.run_bind_error (Act.run_mapError_error hrun), hkept, or_iff_left]
    intro ⟨h1, h2, _⟩
    rw [h1, h2] at hok
    cases hok
  | ok _ =>
    have hmounts : s1.mounts env m.configName = true ∧ s2.mounts env m.configName = true := by
      rw [← Bool.and_eq_true]
      exact hok.symm
    rw [Act.run_bind_ok (Act.run_mapError_ok hrun)]
    cases scan with
    | error stop =>
      -- nothing catches the exception, so both stay mounted
      rw [Act.run_bind_error (Act.run_ofExcept _ _), hkept, or_iff_left]
      intro ⟨_, _, h⟩
      cases h
    | ok _ =>
      rw [Act.run_bind_ok (Act.run_ofExcept _ _)]
      rw [if_pos hmounts.1] at hs2'
      obtain ⟨hchecked1, hcount1⟩ := afterMount_of_mounts hmounts.1
      obtain ⟨hchecked2, hcount2⟩ := afterMount_of_mounts hmounts.2
      obtain ⟨d'', hrun', hs1'', hs2''⟩ := umountBoth_run env hne hm' hs1' hs2'
        hchecked1 hchecked2
      rw [Act.run_mapError_ok hrun']
      refine iff_of_true ⟨?_, ?_⟩ (Or.inr ⟨hmounts.1, hmounts.2, rfl⟩)
      · rw [useCount_of_snapshot hs1'', useCount_of_snapshot hs1, hcount1]
      · rw [useCount_of_snapshot hs2'', useCount_of_snapshot hs2, hcount2]

theorem run_raised_snd {c : Act Daemon Stop PUnit} {r : Except Fault PUnit} :
    ((c >>= fun _ => raised r).run d).2 = (c.run d).2 := by
  rw [Act.run_bind]
  split
  · next hrun => rw [hrun]; rfl
  · next hrun => rw [hrun]

/-- The constructor leaves the counts as they were unless it is left after the first of them was
raised and before it was lowered. -/
theorem counts_restored_iff (d : Daemon) (env : Env) (id snapper : Nat) (m : MetaSnapper)
    (num1 num2 : UInt32) (s1 s2 : Snapshot) (course : Course) (hm : d.metaSnapper id = some m)
    (hs1 : d.snapshot id num1 = some s1) (hs2 : d.snapshot id num2 = some s2) :
    CountsKept id num1 num2 d
        ((construct env ⟨id, snapper, some num1, some num2, false⟩ course).run d).2 ↔
      num1 = num2 ∨ Unscanned s1 s2 course ∨ FailsAtOnce env m.configName s1 s2 ∨
        (s1.mounts env m.configName = true ∧ s2.mounts env m.configName = true ∧
          course.scan.isOk = true) := by
  have hsame : CountsKept id num1 num2 d d := ⟨rfl, rfl⟩
  -- two equal numbers are refused before anything is mounted
  by_cases hne : num1 = num2
  · have hrefused : Making.snapshots ⟨id, snapper, some num1, some num2, false⟩ = none :=
      if_pos hne
    rw [construct, hrefused]
    exact iff_of_true hsame (Or.inl hne)
  have hmaking : Making.snapshots ⟨id, snapper, some num1, some num2, false⟩ =
    some (num1, num2) := if_neg hne
  have hcreate := create_kept_iff env hne hm hs1 hs2 course.scan
  have hcurrent1 : s1.isCurrent = true ↔ num1 = 0 := by rw [isCurrent_iff, num_of_snapshot hs1]
  have hcurrent2 : s2.isCurrent = true ↔ num2 = 0 := by rw [isCurrent_iff, num_of_snapshot hs2]
  rw [construct, hmaking, or_iff_right hne]
  show CountsKept id num1 num2 d ((initializeComparison env id num1 num2 course).run d).2 ↔ _
  unfold initializeComparison
  -- a comparison with the current system is never loaded from a file
  by_cases hcurrent : num1 = 0 ∨ num2 = 0
  · have hscanned : ¬Unscanned s1 s2 course := by
      intro ⟨h1, h2, _⟩
      rw [← hcurrent1, ← hcurrent2, h1, h2] at hcurrent
      simp at hcurrent
    rw [if_pos hcurrent, hcreate, or_iff_right hscanned]
  · rw [if_neg hcurrent]
    obtain ⟨hnum1, hnum2⟩ := not_or.mp hcurrent
    have h1 : s1.isCurrent = false := Bool.eq_false_iff.mpr fun h => hnum1 (hcurrent1.mp h)
    have h2 : s2.isCurrent = false := Bool.eq_false_iff.mpr fun h => hnum2 (hcurrent2.mp h)
    cases hload : course.load with
    | error fault =>
      refine iff_of_true hsame (Or.inl ⟨h1, h2, fun found h => ?_⟩)
      rw [hload] at h
      cases h
    | ok found =>
      cases found with
      | true =>
        refine iff_of_true hsame (Or.inl ⟨h1, h2, fun found h => ?_⟩)
        rw [hload] at h
        exact (Except.ok.inj h).symm
      | false =>
        have hscanned : ¬Unscanned s1 s2 course := fun ⟨_, _, h⟩ => by cases h false hload
        show CountsKept id num1 num2 d
          ((create env id num1 num2 course.scan >>= fun _ => raised course.save).run d).2 ↔ _
        rw [run_raised_snd, hcreate, or_iff_right hscanned]

/-! ## An interrupted scan -/

/-- The config `root` with the snapshots 1 and 2 -/
def twoSnapshots : Daemon :=
  { Daemon.rootOnly with
    metaSnappers := [⟨0, ⟨str "root", str "/", .empty⟩, [], 0, 0,
      some ⟨0, [Snapshot.current, Snapshot.new .SINGLE 1 0, Snapshot.new .SINGLE 2 0]⟩,
      ⟨[1, 2], [], []⟩⟩] }

/-- Nothing fails and nobody interrupts the thread while snapshots 1 and 2 are compared. -/
theorem counts_restored_iff_quiet :
    CountsKept 0 1 2 twoSnapshots ((construct Env.quiet ⟨0, 0, some 1, some 2, false⟩
      ⟨.ok false, .ok ⟨⟩, .ok ⟨⟩⟩).run twoSnapshots).2 :=
  (counts_restored_iff twoSnapshots Env.quiet 0 0 _ 1 2 _ _ ⟨.ok false, .ok ⟨⟩, .ok ⟨⟩⟩ rfl rfl
    rfl).mpr (Or.inr (Or.inr (Or.inr ⟨rfl, rfl, rfl⟩)))

/-- The thread is interrupted while it scans: both snapshots keep a count. -/
theorem interrupted_keeps_mounts :
    ¬∀ (d : Daemon) (env : Env) (id snapper : Nat) (num1 num2 : UInt32) (course : Course),
      (d.snapshot id num1).isSome → (d.snapshot id num2).isSome →
      CountsKept id num1 num2 d
        ((construct env ⟨id, snapper, some num1, some num2, false⟩ course).run d).2 := by
  intro h
  have hkept := (h twoSnapshots Env.quiet 0 0 1 2 ⟨.ok false, .error .interrupted, .ok ⟨⟩⟩ rfl
    rfl).1
  have hcount : (((construct Env.quiet ⟨0, 0, some 1, some 2, false⟩
      ⟨.ok false, .error .interrupted, .ok ⟨⟩⟩).run twoSnapshots).2).useCount 0 1 = some 1 := rfl
  have hbefore : twoSnapshots.useCount 0 1 = some 0 := rfl
  rw [hcount, hbefore] at hkept
  cases hkept

end Snapper.Server
