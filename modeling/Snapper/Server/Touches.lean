import Snapper.Server.Durable

/-!
# What happens to configs

Whatever the daemon does to a config, its list of snapshots and its disk, is a sequence of
a few kinds of changes.  They are listed once here, and every handler and every event is
taken apart into them, so that an invariant of configs has to be looked at for each kind only.

## Main results

* `handle_touches`, `event_touches`: what is done to configs.
* `Lasts.history`: what lasts through each kind of change holds after every history.
-/

namespace Snapper.Server

open General Act Relation

/-! ## The kinds of changes -/

/-- What nothing changes in a config while the daemon runs: its address, its data and its users.
-/
def MetaSnapper.fixed (m : MetaSnapper) : Nat × ConfigInfo × List UInt32 :=
  (m.id, m.configInfo, m.uids)

/-- A change of the configs.  `new` has the snapshots that may come, `set` what may be done to
those that are there.  Everything else about the daemon may change at the same time: clients,
messages and tasks do not matter here. -/
inductive Touch (new : Snapshot → Prop) (set : (Snapshot → Snapshot) → Prop) :
    Daemon → Daemon → Prop
  /-- counts and times, or objects that go -/
  | recount {d d'} {g : MetaSnapper → MetaSnapper} (hmetas : d'.metaSnappers = d.metaSnappers.map g)
      (hdisk : ∀ m, (g m).disk = m.disk)
      (hsnapper : ∀ m, (g m).snapper = m.snapper ∨ (g m).snapper = none)
      (hfixed : ∀ m, (g m).fixed = m.fixed) (hnext : d.nextId ≤ d'.nextId) : Touch new set d d'
  | load {d} (id : Nat) : Touch new set d (d.load id)
  | change {d} (id : Nat) {num : UInt32} {f : Snapshot → Snapshot} (hnum : num ≠ 0)
      (hkeeps : ∀ s, (f s).num = s.num) (hf : set f) : Touch new set d (d.modSnapshot id num f)
  | write {d} {id : Nat} {s : Snapshot} (hs : s ∈ d.snapshots id) (hnum : s.num ≠ 0) :
      Touch new set d (d.modDisk id (Disk.write s))
  | makeDir {d} (id : Nat) (num : UInt32) :
      Touch new set d (d.modDisk id fun disk => { disk with dirs := disk.dirs ++ [num] })
  | removeDir {d} (id : Nat) (num : UInt32) (stays : Bool) :
      Touch new set d (d.modDisk id (Disk.removeDir num stays))
  | insert {d} (id : Nat) {s : Snapshot} (hs : new s) (hnum : s.num ≠ 0) :
      Touch new set d (d.insert id s)
  | spoil {d} (id : Nat) (nums : List UInt32) :
      Touch new set d (d.modDisk id fun disk => { disk with unreadable := nums })
  | lose {d} (id : Nat) (p : Snapshot → Bool) :
      Touch new set d (d.modDisk id fun disk => { disk with infos := disk.infos.filter p })
  | erase {d} (id : Nat) {num : UInt32} (stays : Bool) (hnum : num ≠ 0) :
      Touch new set d (d.erase id num stays)
  | remove {d d'} {p : MetaSnapper → Bool} (hmetas : d'.metaSnappers = d.metaSnappers.filter p)
      (hnext : d.nextId ≤ d'.nextId) : Touch new set d d'
  | add {d d'} {m : MetaSnapper} (hmetas : d'.metaSnappers = d.metaSnappers ++ [m])
      (hunloaded : m.snapper = none) (hdisk : m.disk.WF) (hnew : ∀ s ∈ m.disk.infos, new s)
      (hid : d.nextId ≤ m.id) (hnext : d.nextId ≤ d'.nextId) : Touch new set d d'

/-- What is done to snapshots without a request for it: checks and counts of mounts, the mark of a
written info, and the uid, which `createHelper` sets. -/
structure Routine (set : (Snapshot → Snapshot) → Prop) : Prop where
  checkMounted : ∀ mounted, set (Snapshot.checkMounted mounted)
  countMount : ∀ userRequest, set (Snapshot.countMount userRequest)
  countUmount : ∀ userRequest, set (Snapshot.countUmount userRequest)
  raced : ∀ userRequest useCount, set (Snapshot.raced userRequest useCount)
  flushed : set Snapshot.flushed
  setUid : ∀ val, set (Snapshot.setUid val)

/-- The snapshot that a create request makes, with a number. -/
def Env.made (env : Env) (type : SnapshotType) (preNum : UInt32) (description : Str)
    (num : UInt32) : Snapshot :=
  { Snapshot.new type num env.time with
    preNum := preNum, description := description, infoModified := true }

/-- What comes with a request: the snapshots that it may make, and the fields that it may set.
Userdata are only set when they were found to be valid. -/
def Request.Brings (new : Snapshot → Prop) (set : (Snapshot → Snapshot) → Prop) (env : Env) :
    Request → Prop
  | .createConfig .. => ∀ s ∈ env.createdDisk.infos, new s
  | .setSnapshot _ _ description cleanup userdata =>
    set (Snapshot.setDescription description) ∧ set (Snapshot.setCleanup cleanup) ∧
      (validUserdata userdata = true → set (Snapshot.setUserdata userdata))
  | .createSingleSnapshot _ description cleanup userdata =>
    (∀ num, new (env.made .SINGLE 0 description num)) ∧ set (Snapshot.setCleanup cleanup) ∧
      (validUserdata userdata = true → set (Snapshot.setUserdata userdata))
  | .createPreSnapshot _ description cleanup userdata =>
    (∀ num, new (env.made .PRE 0 description num)) ∧ set (Snapshot.setCleanup cleanup) ∧
      (validUserdata userdata = true → set (Snapshot.setUserdata userdata))
  | .createPostSnapshot _ preNum description cleanup userdata =>
    (∀ num, new (env.made .POST preNum description num)) ∧ set (Snapshot.setCleanup cleanup) ∧
      (validUserdata userdata = true → set (Snapshot.setUserdata userdata))
  | _ => True

/-- The handler is a sequence of such changes, also where it throws: what it did before the
exception stays done. -/
def Touches (new : Snapshot → Prop) (set : (Snapshot → Snapshot) → Prop) {α : Type}
    (c : Handler α) : Prop := Through (Touch new set) (fun _ => True) c fun _ _ => True

section Handlers

variable {new : Snapshot → Prop} {set : (Snapshot → Snapshot) → Prop} {env : Env}
  {me configName : Str} {id : Nat} {num num1 num2 : UInt32} {m : MetaSnapper} {d d' : Daemon}
  {α β : Type}

namespace Touches

theorem bind {c : Handler α} {k : α → Handler β} (hc : Touches new set c)
    (hk : ∀ a, Touches new set (k a)) : Touches new set (c >>= k) := Through.bind hc hk

theorem pure {a : α} : Touches new set (pure a : Handler α) := Through.pure fun _ h => h

theorem throw {e : Exception} : Touches new set (throw e : Handler α) := Through.throw

theorem read {f : Daemon → α} : Touches new set (Act.read f : Handler α) := Through.look

theorem modify {f : Daemon → Daemon} (h : ∀ d, Touch new set d (f d)) :
    Touches new set (Act.modify f) := Through.modify fun d _ => ⟨h d, trivial⟩

theorem ite {p : Prop} [Decidable p] {c c' : Handler α} (hc : p → Touches new set c)
    (hc' : ¬ p → Touches new set c') : Touches new set (if p then c else c') := Through.ite hc hc'

theorem throwIf {b : Bool} {e : Exception} : Touches new set (Act.throwIf b e) :=
  Through.throwIf fun _ _ h => h

/-- Also where more is known. -/
theorem anyhow {P : Daemon → Prop} {c : Handler α} (h : Touches new set c) :
    Through (Touch new set) P c fun _ _ => True := h.conseq (fun _ _ => trivial) fun _ _ h => h

end Touches

/-! ## What leaves lists and disks alone -/

/-- A step that leaves the list of configs as it is. -/
theorem touch_same (h : d'.metaSnappers = d.metaSnappers) (hnext : d.nextId ≤ d'.nextId) :
    Touch new set d d' :=
  .recount (h.trans (List.map_id _).symm) (fun _ => rfl) (fun _ => Or.inl rfl) (fun _ => rfl) hnext

/-- A change of one config, but not of its list and its disk: a count or a time. -/
theorem touch_modMeta {f : MetaSnapper → MetaSnapper}
    (h : d'.metaSnappers = (d.modMeta id f).metaSnappers) (hdisk : ∀ m, (f m).disk = m.disk)
    (hsnapper : ∀ m, (f m).snapper = m.snapper) (hfixed : ∀ m, (f m).fixed = m.fixed)
    (hnext : d.nextId ≤ d'.nextId) : Touch new set d d' := by
  refine .recount h ?_ ?_ ?_ hnext
  · intro m
    split
    · exact hdisk m
    · rfl
  · intro m
    split
    · exact Or.inl (hsnapper m)
    · exact Or.inl rfl
  · intro m
    split
    · exact hfixed m
    · rfl

/-- A use that is given back, at the config with the address of the `Snapper` object. -/
theorem touch_decUseCount {snapper : Nat} : Touch new set d (decUseCount env snapper d) := by
  refine .recount rfl ?_ ?_ ?_ le_rfl
  · intro m
    split <;> rfl
  · intro m
    split <;> exact Or.inl rfl
  · intro m
    split <;> rfl

theorem call_touches {c : Call} : Touches new set (call env c) := call_through

theorem sendReply_touches {reply : Reply} : Touches new set (sendReply me reply) :=
  Touches.modify fun _ => touch_same rfl le_rfl

theorem signal_touches {msg : Sent} : Touches new set (signal msg) :=
  Touches.modify fun _ => touch_same rfl le_rfl

theorem modClient_touches {name : Str} {f : Client → Client} :
    Touches new set (Act.modify (Daemon.modClient name f)) :=
  Touches.modify fun _ => touch_same rfl le_rfl

theorem findConfig_touches : Touches new set (findConfig configName) := by
  apply Touches.read.bind
  intro m
  cases m with
  | none => exact Touches.throw
  | some m => exact Touches.pure

theorem getUnixUserid_touches {again : Bool} : Touches new set (getUnixUserid env again) :=
  call_touches.bind fun _ => Touches.pure

theorem checkRoot_touches : Touches new set (checkRoot env) :=
  getUnixUserid_touches.bind fun _ => Touches.throwIf

theorem checkPermission_touches : Touches new set (checkPermission env m) :=
  getUnixUserid_touches.bind fun _ => Touches.throwIf

theorem checkLock_touches : Touches new set (checkLock me configName) :=
  Touches.read.bind fun _ => Touches.throwIf

/-! ## Loading and finding -/

/-- `MetaSnapper::getSnapper` loads the config where it is not loaded yet and notes the time. -/
theorem getSnapper_touches : Touches new set (getSnapper env id) := by
  apply Touches.read.bind
  intro found
  have huse : Touches new set
      (Act.modify (Daemon.modMeta id fun m => { m with lastUsed := env.now })) :=
    Touches.modify fun _ =>
      touch_modMeta rfl (fun _ => rfl) (fun _ => rfl) (fun _ => rfl) le_rfl
  -- a config that is loaded already is only used
  cases found with
  | none => exact Touches.pure
  | some m =>
    apply Touches.ite
    · exact fun _ => huse
    · intro _
      apply call_touches.bind
      intro _
      exact (Touches.modify fun _ => .load id).bind fun _ => huse

theorem openConfig_touches : Touches new set (openConfig env configName) :=
  findConfig_touches.bind fun _ => checkPermission_touches.bind fun _ =>
    getSnapper_touches.bind fun _ => Touches.pure

theorem findSnapshot_touches : Touches new set (findSnapshot id num) := Touches.read

/-- Finding a snapshot, with an exception where there is none. -/
theorem getSnapshot_touches : Touches new set (getSnapshot id num) := by
  apply findSnapshot_touches.bind
  intro s
  cases s with
  | none => exact Touches.throw
  | some s => exact Touches.pure

/-- Finding a comparison reads the client and the config. -/
theorem findComparison_touches : Touches new set (findComparison me id num1 num2) := by
  apply Touches.read.bind
  intro snapper
  apply findSnapshot_touches.bind
  intro s1
  apply findSnapshot_touches.bind
  intro s2
  apply Touches.read.bind
  intro client
  split
  · exact Touches.throw
  · exact Touches.pure

/-! ## Changing snapshots -/

/-- Setting a field marks the info as modified; the info is written by a later call. -/
theorem setField_touches {f : Snapshot → Snapshot} (hkeeps : ∀ s, (f s).num = s.num) (hf : set f) :
    Touches new set (setField id num f) := by
  apply Touches.ite
  · exact fun _ => Touches.throw
  · intro hnum
    exact Touches.modify fun _ => .change id hnum hkeeps hf

/-- The keys are checked first, so that only valid userdata are set. -/
theorem setUserdata_touches {userdata : StrMap}
    (hset : validUserdata userdata = true → set (Snapshot.setUserdata userdata)) :
    Touches new set (setUserdata id num userdata) := by
  apply Touches.ite
  · exact fun _ => Touches.throw
  · intro hvalid
    by_cases hnum : num = 0
    · -- the current snapshot has no setters
      rw [hnum]
      exact Touches.throw
    · apply setField_touches (by intro; rfl)
      apply hset
      by_contra hinvalid
      exact hvalid ⟨hnum, by simpa using hinvalid⟩

/-- `flushInfo` writes the info of a modified snapshot and then clears the mark.  For the current
system it throws instead, so that what is written has another number than 0. -/
theorem flushInfo_touches {again : Bool} (hset : Routine set) :
    Touches new set (flushInfo env id num again) := by
  apply Through.bind findSnapshot_through
  intro found
  cases found with
  | none => exact Through.pure fun _ _ => trivial
  | some s =>
    apply Through.ite
    · intro _
      apply Through.bind (Q := fun _ d => (True ∧ d.snapshot id num = some s) ∧ s.num ≠ 0)
      · apply Through.throwIf
        intro hcurrent d h
        exact ⟨h, by simpa [Snapshot.isCurrent] using hcurrent⟩
      intro _
      apply Through.bind call_through
      intro _
      -- what is written is the snapshot of the list, and the mark is cleared afterwards
      apply Through.bind (Q := fun _ _ => num ≠ 0)
      · apply Through.modify
        rintro d ⟨⟨-, hs⟩, hnum⟩
        have hsame : s.num = num := key_of_lookup hs
        have hmem : s ∈ d.snapshots id := mem_of_lookup hs
        exact ⟨.write hmem hnum, hsame ▸ hnum⟩
      intro _
      apply Through.modify
      intro d hnum
      exact ⟨.change id hnum (by intro; rfl) hset.flushed, trivial⟩
    · exact fun _ => Through.pure fun _ _ => trivial

/-- The first mount or unmount of a snapshot looks whether the user has mounted it already.  The
current system is refused, so that what follows is about another snapshot. -/
theorem checkMounted_touches {s : Snapshot} (hset : Routine set) :
    Through (Touch new set) (fun _ => True) (checkMounted env id configName s)
      fun _ _ => s.num ≠ 0 := by
  apply Through.ite
  · exact fun _ => Through.throw
  · intro hcurrent
    have hnum : s.num ≠ 0 := by simpa [Snapshot.isCurrent] using hcurrent
    have hsee : Through (Touch new set) (fun _ => True) (Act.modify (Daemon.modSnapshot id s.num
        (Snapshot.checkMounted (env.isSnapshotMounted s.num))) : Handler PUnit)
        fun _ _ => s.num ≠ 0 :=
      Through.modify fun d _ => ⟨.change id hnum checkMounted_num (hset.checkMounted _), hnum⟩
    apply Through.ite
    · exact fun _ => hsee
    · intro _
      apply Through.bind call_through
      exact fun _ => hsee

/-- Mounting checks, calls the file system and counts. -/
theorem mountFilesystemSnapshot_touches {s : Snapshot} {userRequest : Bool} (hset : Routine set) :
    Touches new set (mountFilesystemSnapshot env id configName s userRequest) := by
  apply Through.bind (checkMounted_touches hset)
  intro _
  apply Through.bind (Q := fun _ _ => True)
  · apply Through.modify
    intro d hnum
    exact ⟨.change id hnum countMount_num (hset.countMount _), trivial⟩
  · exact fun _ => call_touches

/-- Unmounting checks, counts down and calls the file system when the count has become zero. -/
theorem umountFilesystemSnapshot_touches {s : Snapshot} {userRequest : Bool}
    (hset : Routine set) :
    Touches new set (umountFilesystemSnapshot env id configName s userRequest) := by
  apply Through.bind (checkMounted_touches hset)
  intro _
  apply Through.bind (Q := fun _ _ => True)
  · apply Through.modify
    intro d hnum
    exact ⟨.change id hnum countUmount_num (hset.countUmount _), trivial⟩
  intro _
  apply findSnapshot_touches.bind
  intro found
  cases found with
  | none => exact Touches.pure
  | some s => exact Touches.ite (fun _ => call_touches) fun _ => Touches.pure

/-! ## Creating and deleting -/

/-- The next number makes its directory, and tries again where a directory is there already. -/
theorem nextNumber_touches : Touches new set (nextNumber env id) := by
  apply Touches.read.bind
  intro snapshots
  apply Touches.read.bind
  intro found
  dsimp only
  split
  · exact Touches.throw
  · next num _ =>
    apply call_touches.bind
    intro _
    exact (Touches.modify fun _ => .makeDir id num).bind fun _ => Touches.pure

/-- The snapshot comes into the list at the end; where a call fails before that, only the
directory is removed. -/
theorem createHelper_touches {s : Snapshot} (hs : new s) :
    Touches new set (createHelper env id s) := by
  apply Through.bind (Q := fun _ _ => s.num ≠ 0)
  · apply Through.throwIf
    intro hcurrent d _
    simpa [Snapshot.isCurrent] using hcurrent
  intro _
  have hremove : ∀ e : Exception,
      Touches new set (removeDir env id s.num >>= fun _ => throw e : Handler PUnit) :=
    fun e => Touches.bind (Touches.modify fun _ => .removeDir id s.num _) fun _ => Touches.throw
  split
  · exact (hremove _).anyhow
  · exact Through.throw
  · split
    · apply Through.bind call_through
      exact fun _ => (hremove _).anyhow
    · exact Through.throw
    · exact Through.modify fun d hnum => ⟨.insert id hs hnum, trivial⟩

/-- A create request takes a number, makes the snapshot with it and writes its info. -/
theorem createSnapshot_touches {type : SnapshotType} {preNum : UInt32} {description : Str}
    (hnew : ∀ num, new (env.made type preNum description num)) :
    Touches new set (createSnapshot env id type preNum description) := by
  apply nextNumber_touches.bind
  intro num
  exact (createHelper_touches (hnew num)).bind fun _ => Touches.pure

/-- After the creation the handler sets cleanup and userdata and writes the info again. -/
theorem finishCreate_touches {cleanup : Str} {userdata : StrMap} (hset : Routine set)
    (hcleanup : set (Snapshot.setCleanup cleanup))
    (huserdata : validUserdata userdata = true → set (Snapshot.setUserdata userdata)) :
    Touches new set (finishCreate env id num cleanup userdata) := by
  apply getUnixUserid_touches.bind
  intro uid
  apply (setField_touches (by intro; rfl) (hset.setUid uid)).bind
  intro _
  apply (setField_touches (by intro; rfl) hcleanup).bind
  intro _
  exact (setUserdata_touches huserdata).bind fun _ => flushInfo_touches hset

theorem incUseCount_touches : Touches new set (Act.modify (incUseCount id)) :=
  Touches.modify fun _ =>
    touch_modMeta rfl (by intro; rfl) (by intro; rfl) (by intro; rfl) le_rfl

/-- A new task counts as a use of its config. -/
theorem addTask_touches {task : Task} : Touches new set (addTask task) := by
  apply Touches.bind
  · exact Touches.modify fun _ => touch_same rfl le_rfl
  · exact fun _ => incUseCount_touches

/-- Deleting a snapshot takes away its directory and its entry, in this order. -/
theorem deleteSnapshot_touches {s : Option Snapshot} :
    Touches new set (deleteSnapshot env id s) := by
  cases s with
  | none => exact Touches.throw
  | some s =>
    apply Touches.ite
    · exact fun _ => Touches.throw
    · intro hcurrent
      have hnum : s.num ≠ 0 := by simpa [Snapshot.isCurrent] using hcurrent
      apply call_touches.bind
      intro _
      apply (Touches.modify fun _ => .lose id fun s' => s'.num ≠ s.num).bind
      intro _
      apply call_touches.bind
      exact fun _ => Touches.modify fun _ => .erase id _ hnum

/-- The snapshots of a request are deleted one after the other until one cannot be. -/
theorem deleteAll_touches {nums : List UInt32} : Touches new set (deleteAll env m nums) := by
  induction nums with
  | nil => exact Touches.pure
  | cons num nums ih =>
    apply Touches.bind (Touches.read.bind fun _ => Touches.throwIf)
    intro _
    apply findSnapshot_touches.bind
    intro s
    exact deleteSnapshot_touches.bind fun _ => ih

/-- A deleted config is taken out of the list with everything it has. -/
theorem deleteConfigOf_touches : Touches new set (deleteConfigOf env m) := by
  rw [deleteConfigOf]
  split
  · exact (Touches.modify fun _ => .lose m.id _).bind fun _ => Touches.throw
  · exact Touches.modify fun _ => .remove rfl le_rfl

/-! ## All requests -/

/-- The requests that make a single or a pre snapshot. -/
theorem create_touches {type : SnapshotType} {preNum : UInt32} {description cleanup : Str}
    {userdata : StrMap} (hset : Routine set)
    (hnew : ∀ num, new (env.made type preNum description num))
    (hcleanup : set (Snapshot.setCleanup cleanup))
    (huserdata : validUserdata userdata = true → set (Snapshot.setUserdata userdata)) :
    Touches new set (do
      let m ← openConfig env configName
      let num ← createSnapshot env m.id type preNum description
      finishCreate env m.id num cleanup userdata
      sendReply me (.number num)
      signal (.snapshotCreated configName num)) := by
  apply openConfig_touches.bind
  intro m
  apply (createSnapshot_touches hnew).bind
  intro num
  apply (finishCreate_touches hset hcleanup huserdata).bind
  exact fun _ => sendReply_touches.bind fun _ => signal_touches

/-- The request that makes a post snapshot: its pre number is the number of the snapshot that was
found. -/
theorem createPost_touches {preNum : UInt32} {description cleanup : Str} {userdata : StrMap}
    (hset : Routine set) (hnew : ∀ num, new (env.made .POST preNum description num))
    (hcleanup : set (Snapshot.setCleanup cleanup))
    (huserdata : validUserdata userdata = true → set (Snapshot.setUserdata userdata)) :
    Touches new set
      (handleCreatePostSnapshot env me configName preNum description cleanup userdata) := by
  apply openConfig_touches.bind
  intro m
  apply Through.bind findSnapshot_through
  intro pre
  -- the iterator points to the snapshot of this number
  apply Through.of_fact (p := ∀ pre', pre = some pre' → pre'.num = preNum)
  · rintro d ⟨-, hpre⟩ pre' rfl
    exact key_of_lookup hpre
  intro hpre
  have hcreate : Touches new set (createPostSnapshot env m.id description pre) := by
    apply Touches.read.bind
    intro snapshots
    cases pre with
    | none => exact Touches.throw
    | some pre =>
      apply Touches.ite
      · exact fun _ => Touches.throw
      · intro _
        rw [hpre pre rfl]
        exact createSnapshot_touches hnew
  apply Touches.anyhow
  apply Touches.bind hcreate
  intro num
  apply (finishCreate_touches hset hcleanup huserdata).bind
  intro _
  apply Touches.ite
  · exact fun _ => addTask_touches.bind fun _ => sendReply_touches.bind fun _ => signal_touches
  · exact fun _ => sendReply_touches.bind fun _ => signal_touches

/-- `SetSnapshot` sets three fields of a snapshot and writes its info. -/
theorem setSnapshot_touches {description cleanup : Str} {userdata : StrMap} (hset : Routine set)
    (hdescription : set (Snapshot.setDescription description))
    (hcleanup : set (Snapshot.setCleanup cleanup))
    (huserdata : validUserdata userdata = true → set (Snapshot.setUserdata userdata)) :
    Touches new set (setSnapshot env me configName num description cleanup userdata) := by
  apply openConfig_touches.bind
  intro m
  apply getSnapshot_touches.bind
  intro s
  apply (setField_touches (by intro; rfl) hdescription).bind
  intro _
  apply (setField_touches (by intro; rfl) hcleanup).bind
  intro _
  apply (setUserdata_touches huserdata).bind
  intro _
  apply (flushInfo_touches hset).bind
  exact fun _ => sendReply_touches.bind fun _ => signal_touches

/-- `CreateConfig` adds a config; whatever its disk holds comes with it. -/
theorem createConfig_touches (hnew : ∀ s ∈ env.createdDisk.infos, new s) :
    Touches new set (createConfig env me configName) := by
  apply checkRoot_touches.bind
  intro _
  apply Touches.read.bind
  intro known
  apply Touches.throwIf.bind
  intro _
  apply call_touches.bind
  intro _
  apply Touches.bind (Touches.modify fun d =>
    .add rfl rfl env.createdDisk_wf hnew le_rfl (Nat.le_succ _))
  exact fun _ => sendReply_touches.bind fun _ => signal_touches

/-- `DeleteConfig` checks that nothing refers to the config before it takes it away. -/
theorem deleteConfig_touches : Touches new set (deleteConfig env me configName) := by
  apply findConfig_touches.bind
  intro m
  apply checkRoot_touches.bind
  intro _
  apply checkLock_touches.bind
  intro _
  apply Touches.throwIf.bind
  intro _
  apply deleteConfigOf_touches.bind
  exact fun _ => sendReply_touches.bind fun _ => signal_touches

/-- `DeleteSnapshots` looks at all snapshots of the request before it deletes the first. -/
theorem deleteSnapshots_touches {nums : List UInt32} :
    Touches new set (deleteSnapshots env me configName nums) := by
  apply findConfig_touches.bind
  intro m
  apply checkPermission_touches.bind
  intro _
  apply checkLock_touches.bind
  intro _
  apply Touches.throwIf.bind
  intro _
  apply getSnapper_touches.bind
  intro _
  apply deleteAll_touches.bind
  exact fun _ => sendReply_touches.bind fun _ => signal_touches

/-- `MountSnapshot` mounts before it enters the mount at the client. -/
theorem mountSnapshot_touches {userRequest : Bool} (hset : Routine set) :
    Touches new set (mountSnapshot env me configName num userRequest) := by
  apply openConfig_touches.bind
  intro m
  apply getSnapshot_touches.bind
  intro s
  apply (mountFilesystemSnapshot_touches hset).bind
  intro _
  cases userRequest with
  | true => exact sendReply_touches
  | false => exact modClient_touches.bind fun _ => sendReply_touches

/-- `UmountSnapshot` unmounts before it takes the mount from the client. -/
theorem umountSnapshot_touches {userRequest : Bool} (hset : Routine set) :
    Touches new set (umountSnapshot env me configName num userRequest) := by
  apply openConfig_touches.bind
  intro m
  apply getSnapshot_touches.bind
  intro s
  apply (umountFilesystemSnapshot_touches hset).bind
  intro _
  cases userRequest with
  | true => exact sendReply_touches
  | false => exact modClient_touches.bind fun _ => sendReply_touches

/-- `CreateComparison` looks at both snapshots and counts a use of the config. -/
theorem createComparison_touches :
    Touches new set (createComparison env me configName num1 num2) := by
  apply openConfig_touches.bind
  intro m
  apply Touches.read.bind
  intro snapper
  apply findSnapshot_touches.bind
  intro s1
  apply findSnapshot_touches.bind
  intro s2
  exact incUseCount_touches.bind fun _ => modClient_touches

/-- `DeleteComparison` gives back the use of the config. -/
theorem deleteComparison_touches :
    Touches new set (deleteComparison env me configName num1 num2) := by
  apply openConfig_touches.bind
  intro m
  apply findComparison_touches.bind
  intro comparison
  apply Touches.bind (Touches.modify fun _ => touch_decUseCount)
  exact fun _ => modClient_touches.bind fun _ => sendReply_touches

/-- Every handler makes such changes only. -/
theorem handle_touches {request : Request} (hset : Routine set)
    (hbrings : request.Brings new set env) : Touches new set (handle env me request) := by
  -- handler by handler; what a request brings is what the changes may bring
  cases request with
  | listConfigs => exact Touches.read.bind fun _ => sendReply_touches
  | createConfig => exact createConfig_touches hbrings
  | getConfig =>
    exact findConfig_touches.bind fun _ => checkPermission_touches.bind fun _ => sendReply_touches
  | deleteConfig => exact deleteConfig_touches
  | lockConfig =>
    exact findConfig_touches.bind fun _ => checkPermission_touches.bind fun _ =>
      modClient_touches.bind fun _ => sendReply_touches
  | unlockConfig =>
    exact findConfig_touches.bind fun _ => checkPermission_touches.bind fun _ =>
      modClient_touches.bind fun _ => sendReply_touches
  | listSnapshots =>
    exact openConfig_touches.bind fun _ => Touches.read.bind fun _ => sendReply_touches
  | listSnapshotsAtTime =>
    exact openConfig_touches.bind fun _ => Touches.read.bind fun _ => sendReply_touches
  | getSnapshot =>
    exact openConfig_touches.bind fun _ => getSnapshot_touches.bind fun _ => sendReply_touches
  | setSnapshot => exact setSnapshot_touches hset hbrings.1 hbrings.2.1 hbrings.2.2
  | createSingleSnapshot => exact create_touches hset hbrings.1 hbrings.2.1 hbrings.2.2
  | createPreSnapshot => exact create_touches hset hbrings.1 hbrings.2.1 hbrings.2.2
  | createPostSnapshot => exact createPost_touches hset hbrings.1 hbrings.2.1 hbrings.2.2
  | deleteSnapshots => exact deleteSnapshots_touches
  | mountSnapshot => exact mountSnapshot_touches hset
  | umountSnapshot => exact umountSnapshot_touches hset
  | getMountPoint =>
    exact openConfig_touches.bind fun _ => getSnapshot_touches.bind fun _ => sendReply_touches
  | createComparison => exact createComparison_touches
  | deleteComparison => exact deleteComparison_touches
  | getFiles =>
    exact openConfig_touches.bind fun _ => findComparison_touches.bind fun _ => sendReply_touches
  | debug => exact checkRoot_touches.bind fun _ => sendReply_touches

/-- A request with its answer: the message of an exception is no change of a config. -/
theorem dispatch_touches {request : Request} (hset : Routine set)
    (hbrings : request.Brings new set env) :
    ReflTransGen (Touch new set) d (dispatch env me request d) := by
  have hhandle : Touches new set (handle env me request) := handle_touches hset hbrings
  have hsteps := (hhandle d trivial).1
  rw [dispatch]
  cases hrun : (handle env me request).run d with
  | mk r d' =>
    rw [hrun] at hsteps
    cases r with
    | ok _ => exact hsteps
    | error e => exact hsteps.tail (touch_same rfl le_rfl)

end Handlers

/-! ## Steps -/

section Steps

variable {new : Snapshot → Prop} {set : (Snapshot → Snapshot) → Prop} {env : Env} {name : Str}
  {id : Nat} {d d₁ : Daemon}

/-- A comparison mounts or unmounts one snapshot of its config, and does nothing for the current
system. -/
theorem mountOf_touches {num : UInt32} {f : Env → Nat → Str → Snapshot → Bool → Handler PUnit}
    (hf : ∀ configName s, Touches new set (f env id configName s false)) :
    Touches new set (mountOf env id num f) := by
  apply Touches.ite
  · exact fun _ => Touches.pure
  · intro _
    apply Touches.read.bind
    intro m
    apply findSnapshot_touches.bind
    intro s
    split
    · exact hf _ _
    · exact Touches.pure

theorem mountBoth_touches {num1 num2 : UInt32} (hset : Routine set) :
    Touches new set (mountBoth env id num1 num2) :=
  (mountOf_touches fun _ _ => mountFilesystemSnapshot_touches hset).bind fun _ =>
    mountOf_touches fun _ _ => mountFilesystemSnapshot_touches hset

theorem umountBoth_touches {num1 num2 : UInt32} (hset : Routine set) :
    Touches new set (umountBoth env id num1 num2) :=
  (mountOf_touches fun _ _ => umountFilesystemSnapshot_touches hset).bind fun _ =>
    mountOf_touches fun _ _ => umountFilesystemSnapshot_touches hset

theorem umountTimes_touches {configName : Str} {num : UInt32} {n : Nat} (hset : Routine set) :
    Touches new set (umountTimes env id configName num n) := by
  induction n with
  | zero => exact Touches.pure
  | succ n ih =>
    exact getSnapshot_touches.bind fun _ =>
      (umountFilesystemSnapshot_touches hset).bind fun _ => ih

/-- The destructor of a client unmounts all that the client has mounted, as far as no exception
ends it. -/
theorem umountAll_touches {l : List (MountKey × UInt32)} (hset : Routine set) :
    Touches new set (umountAll env l) := by
  induction l with
  | nil => exact Touches.pure
  | cons entry rest ih =>
    exact findConfig_touches.bind fun _ => getSnapper_touches.bind fun _ =>
      getSnapshot_touches.bind fun _ => (umountTimes_touches hset).bind fun _ => ih

/-- The comparisons of a client give back their uses of configs. -/
theorem decAll_touches {comparisons : List Comparison} :
    ReflTransGen (Touch new set) d (decAll env comparisons d) := by
  induction comparisons generalizing d with
  | nil => exact .refl
  | cons comparison comparisons ih => exact ih.head touch_decUseCount

/-- The end of a comparison gives back its use of the config and notes the time. -/
theorem release_touch (env : Env) (id : Nat) : Touch new set d (d.release env id) :=
  touch_modMeta (f := MetaSnapper.dec env) rfl (fun _ => rfl) (fun _ => rfl) (fun _ => rfl) le_rfl

/-- What is not about configs comes for free. -/
theorem touches_then {d' : Daemon} (h : ReflTransGen (Touch new set) d d₁)
    (hsame : d'.metaSnappers = d₁.metaSnappers) (hnext : d₁.nextId ≤ d'.nextId) :
    ReflTransGen (Touch new set) d d' := h.tail (touch_same hsame hnext)

/-- A comparison that fails releases its config and is answered with the exception. -/
theorem failed_touches {making : Making} {e : Exception} :
    ReflTransGen (Touch new set) d (d.failed env name making e) := by
  have hworker : Touch new set d (d.setWorker name .waiting) := touch_same rfl le_rfl
  have hrelease : Touch new set (d.setWorker name .waiting)
      ((d.setWorker name .waiting).release env making.metaSnapper) := release_touch _ _
  exact touches_then (.tail (.single hworker) hrelease) rfl le_rfl

/-- A comparison that is finished becomes one of the client and is answered. -/
theorem finished_touches {making : Making} {comparison : Comparison} :
    ReflTransGen (Touch new set) d (d.finished env name making comparison) := by
  rw [Daemon.finished]
  set d₁ := d.modClient name fun c =>
    { c with comparisons := c.comparisons ++ [comparison], worker := .waiting }
  have hclient : Touch new set d d₁ := touch_same rfl le_rfl
  have hcount : Touch new set d₁
      ((incUseCount making.metaSnapper d₁).send (.reply name .done)) :=
    touch_modMeta (f := fun m => { m with counter := m.counter + 1 }) rfl (fun _ => rfl)
      (fun _ => rfl) (fun _ => rfl) le_rfl
  exact ((ReflTransGen.single hclient).tail hcount).tail (release_touch _ _)

/-- A worker that takes a request makes the changes of its handler. -/
theorem work_touches (hset : Routine set)
    (hbrings : ∀ request, d.next name = some request → request.Brings new set env) :
    ReflTransGen (Touch new set) d (d.step (.work name env)) := by
  cases hnext : d.next name with
  | none =>
    rw [step_work_none hnext]
  | some request =>
    have htake : Touch new set d (d.take name) := touch_same rfl le_rfl
    rw [step_work hnext]
    exact (dispatch_touches hset (hbrings request hnext)).head htake

theorem endWorker_touches : ReflTransGen (Touch new set) d (d.endWorker name) := by
  have hcases : d.endWorker name = d ∨ _ := endWorker_cases
  rcases hcases with hsame | ⟨client, -, -, -, hend⟩
  · rw [hsame]
  · rw [hend]
    exact .single (touch_same rfl le_rfl)

/-- The first part of a comparison mounts its two snapshots. -/
theorem mountComparison_touches (hset : Routine set) :
    ReflTransGen (Touch new set) d (d.mountComparison name env) := by
  have hcases : d.mountComparison name env = d ∨ _ := mountComparison_cases
  rcases hcases with hsame |
    ⟨making, num1, num2, d₁, -, -, -, -, ⟨hrun, hmount⟩ | ⟨e, hrun, hfail⟩⟩
  · rw [hsame]
  · rw [hmount]
    exact touches_then ((mountBoth_touches hset).steps_of_run trivial hrun) rfl le_rfl
  · rw [hfail]
    exact ((mountBoth_touches hset).steps_of_run trivial hrun).trans failed_touches

/-- The last part of a comparison unmounts them; an exception is answered as for a request. -/
theorem finishComparison_touches {files : List DBus.SentFile} (hset : Routine set) :
    ReflTransGen (Touch new set) d (d.finishComparison name env files) := by
  have hcases : d.finishComparison name env files = d ∨ _ := finishComparison_cases
  rcases hcases with hsame |
    ⟨making, num1, num2, d₁, -, -, -, ⟨hrun, hfinish⟩ | ⟨e, -, hrun, hfail⟩⟩
  · rw [hsame]
  · rw [hfinish]
    split at hrun
    · exact ((umountBoth_touches hset).steps_of_run trivial hrun).trans finished_touches
    · subst hrun
      exact finished_touches
  · rw [hfail]
    exact ((umountBoth_touches hset).steps_of_run trivial hrun).trans failed_touches

/-- A comparison that fails in between leaves its snapshots as they are. -/
theorem failComparison_touches {failure : Failure} :
    ReflTransGen (Touch new set) d (d.failComparison name env failure) := by
  have hcases : d.failComparison name env failure = d ∨ _ := failComparison_cases
  rcases hcases with hsame | ⟨making, -, ⟨e, hfail⟩ | ⟨-, hend⟩⟩
  · rw [hsame]
  · rw [hfail]
    exact failed_touches
  · rw [hend]
    have hworker : Touch new set d (d.setWorker name .ended) := touch_same rfl le_rfl
    exact (ReflTransGen.single hworker).tail (release_touch _ _)

theorem startTask_touches : ReflTransGen (Touch new set) d (d.startTask env) := by
  rw [Daemon.startTask]
  split
  · next task rest hbackground htasks =>
    have hsnapper : Touches new set (getSnapper env task.metaSnapper) := getSnapper_touches
    split
    · next d₁ hrun => exact touches_then (hsnapper.steps_of_run trivial hrun) rfl le_rfl
    · next e d₁ hrun => exact touches_then (hsnapper.steps_of_run trivial hrun) rfl le_rfl
  · exact .refl

/-- The background mounts the snapshots of a task, without an answer to anybody. -/
theorem mountTask_touches (hset : Routine set) :
    ReflTransGen (Touch new set) d (d.mountTask env) := by
  rw [Daemon.mountTask]
  split
  · next making hbackground =>
    split
    · next num1 num2 hmounted hsnapshots =>
      split
      · next d₁ hrun =>
        exact touches_then ((mountBoth_touches hset).steps_of_run trivial hrun) rfl le_rfl
      · next e d₁ hrun =>
        exact touches_then ((mountBoth_touches hset).steps_of_run trivial hrun) rfl le_rfl
    · exact .refl
  · exact .refl

/-- The background unmounts them and releases the config. -/
theorem finishTask_touches (hset : Routine set) :
    ReflTransGen (Touch new set) d (d.finishTask env) := by
  rw [Daemon.finishTask]
  split
  · next making hbackground =>
    split
    · next num1 num2 hmounted hsnapshots =>
      split
      · next d₁ hrun =>
        have hsteps : ReflTransGen (Touch new set) d d₁ :=
          (umountBoth_touches hset).steps_of_run trivial hrun
        exact touches_then (hsteps.tail (release_touch env making.metaSnapper)) rfl le_rfl
      · next e d₁ hrun =>
        exact touches_then ((umountBoth_touches hset).steps_of_run trivial hrun) rfl le_rfl
    · exact touches_then (.single (release_touch env making.metaSnapper)) rfl le_rfl
    · exact .single (touch_same rfl le_rfl)
  · exact .refl

theorem popTask_touches : ReflTransGen (Touch new set) d d.popTask := by
  rcases popTask_cases with hsame | ⟨-, hpop⟩
  · rw [hsame]
  · rw [hpop]
    exact .single (touch_same rfl le_rfl)

/-- A client that goes gives back its comparisons and unmounts its mounts. -/
theorem reap_touches (hset : Routine set) :
    ReflTransGen (Touch new set) d (d.reap name env) := by
  have hcases : d.reap name env = d ∨ _ := reap_cases
  rcases hcases with hsame | ⟨client, d₁, -, -, -, ⟨hrun, hreap⟩ | ⟨e, hrun, hend⟩⟩
  · rw [hsame]
  · rw [hreap]
    exact touches_then
      (decAll_touches.trans ((umountAll_touches hset).steps_of_run trivial hrun)) rfl le_rfl
  · rw [hend]
    exact touches_then
      (decAll_touches.trans ((umountAll_touches hset).steps_of_run trivial hrun)) rfl le_rfl

theorem snapshots_modDisk {f : Disk → Disk} : (d.modDisk id f).snapshots id = d.snapshots id := by
  rw [Daemon.snapshots, Daemon.modDisk, metaSnapper_modMeta (by intro; rfl), Daemon.snapshots]
  cases d.metaSnapper id with
  | none => rfl
  | some m => rfl

/-- Snapshots of the list are written one after the other. -/
theorem writes_touches {l : List Snapshot} (hl : ∀ s ∈ l, s ∈ d.snapshots id ∧ s.num ≠ 0) :
    ReflTransGen (Touch new set) d
      (d.modDisk id fun disk => l.foldl (fun disk s => disk.write s) disk) := by
  induction l generalizing d with
  | nil =>
    refine touches_then .refl ?_ le_rfl
    exact update_eq_self_iff.mpr fun _ _ _ => rfl
  | cons s l ih =>
    obtain ⟨⟨hs, hnum⟩, hl'⟩ := List.forall_mem_cons.mp hl
    have hwrite : Touch new set d (d.modDisk id (Disk.write s)) := .write hs hnum
    have hrest := ih (d := d.modDisk id (Disk.write s)) fun s' hs' => by
      rw [snapshots_modDisk]
      exact hl' s' hs'
    -- two changes of one disk are one change
    have htwo : (d.modDisk id (Disk.write s)).modDisk id
        (fun disk => l.foldl (fun disk s => disk.write s) disk) =
        d.modDisk id fun disk => (s :: l).foldl (fun disk s => disk.write s) disk :=
      modMeta_modMeta (by intro; rfl)
    rw [htwo] at hrest
    exact hrest.head hwrite

/-- What is pending is written, and then the object goes.  Where `~Snapper` ends the daemon some
of it has been written. -/
theorem unload_touches : ReflTransGen (Touch new set) d (d.unload id env) := by
  have hcases : d.unload id env = d ∨ _ := unload_cases
  rcases hcases with hsame | ⟨m, written, hm, -, hwritten, hend⟩ | ⟨m, hm, -, -, hmodified, hunload⟩
  · rw [hsame]
  · have hwrites : ReflTransGen (Touch new set) d (d.writeInfos id written) :=
      writes_touches fun s hs => by
        obtain ⟨hmem, -, hcurrent⟩ := hwritten s hs
        rw [snapshots_of_metaSnapper hm]
        exact ⟨hmem, by simpa [Snapshot.isCurrent] using hcurrent⟩
    rw [hend]
    exact touches_then hwrites rfl le_rfl
  -- the infos are written one by one, and only then the list is forgotten
  · set l := m.snapshots.filter Snapshot.infoModified
    have hwrites : ReflTransGen (Touch new set) d _ := writes_touches (l := l) fun s hs => by
      obtain ⟨hmem, hpending⟩ := List.mem_filter.mp hs
      have hcurrent := hmodified s hmem hpending
      rw [snapshots_of_metaSnapper hm]
      exact ⟨hmem, by simpa [Snapshot.isCurrent] using hcurrent⟩
    have hgo : Touch new set (d.modDisk id fun disk => l.foldl (fun disk s => disk.write s) disk)
        ((d.modDisk id fun disk => l.foldl (fun disk s => disk.write s) disk).modMeta id
          fun m => { m with snapper := none }) := by
      refine .recount rfl ?_ ?_ ?_ le_rfl
      · intro m
        split <;> rfl
      · intro m
        split
        · exact Or.inr rfl
        · exact Or.inl rfl
      · intro m
        split <;> rfl
    have htwo : (d.modDisk id fun disk => l.foldl (fun disk s => disk.write s) disk).modMeta id
        (fun m => { m with snapper := none }) = d.unload id env := by
      rw [hunload]
      exact modMeta_modMeta (by intro; rfl)
    rw [← htwo]
    exact hwrites.tail hgo

/-- A count that two threads have changed: of no snapshot, or not of the current one. -/
theorem race_touch {num : UInt32} {userRequest : Bool} {useCount : UInt32} (hset : Routine set) :
    Touch new set d (d.race id num userRequest useCount) := by
  by_cases hnum : num = 0
  · subst hnum
    refine touch_same (update_eq_self_iff.mpr fun m _ _ => ?_) (le_refl d.nextId)
    have hsame : ∀ snapshots : List Snapshot,
        update Snapshot.num 0 (Snapshot.raced userRequest useCount) snapshots = snapshots := by
      intro snapshots
      refine update_eq_self_iff.mpr fun s _ hs => ?_
      rw [Snapshot.raced, if_pos (by simpa [Snapshot.isCurrent] using hs)]
    rw [MetaSnapper.setSnapshots]
    simp only [hsame]
    exact congrArg (fun snapper => { m with snapper := snapper }) Option.map_id'
  · exact .change id hnum raced_num (hset.raced userRequest useCount)

/-- What an event may bring: a request, or a config that a restart finds. -/
def Event.Brings (new : Snapshot → Prop) (set : (Snapshot → Snapshot) → Prop) (d : Daemon) :
    Event → Prop
  | .step (.work name env) => ∀ request, d.next name = some request → request.Brings new set env
  | .step _ => True
  | .restart _ _ added => ∀ found ∈ added, ∀ s ∈ found.disk.infos, new s

/-- A step is a sequence of changes, whichever thread makes it. -/
theorem step_touches {a : Action} (hset : Routine set)
    (hbrings : (Event.step a).Brings new set d) : ReflTransGen (Touch new set) d (d.step a) := by
  cases a with
  | work name env => exact work_touches hset hbrings
  -- a message may make a client, which is no change of a config
  | receive name request =>
    rw [Daemon.step.eq_def]
    split
    · exact .refl
    · apply touches_then .refl
      · dsimp only [Daemon.receive]
        split <;> rfl
      · dsimp only [Daemon.receive]
        split <;> exact le_rfl
  | _ =>
    rw [Daemon.step.eq_def]
    split
    · exact .refl
    · first
      | exact .single (touch_same rfl le_rfl)
      | exact endWorker_touches
      | exact mountComparison_touches hset
      | exact finishComparison_touches hset
      | exact failComparison_touches
      | exact startTask_touches
      | exact mountTask_touches hset
      | exact finishTask_touches hset
      | exact popTask_touches
      | exact reap_touches hset
      | exact unload_touches
      | exact .single (race_touch hset)
      | exact .single (.spoil _ _)

/-- The configs that a restart finds come one after the other, each with an address of its own. -/
theorem found_touches {now : Int} {added : List Found} {id' : Nat} (hnext : d.nextId ≤ id')
    (hnew : ∀ found ∈ added, ∀ s ∈ found.disk.infos, new s) :
    ReflTransGen (Touch new set) d
      { d with metaSnappers := d.metaSnappers ++ Found.metaSnappers now id' added
               nextId := id' + added.length } := by
  -- config after config, with the next free address
  induction added generalizing d id' with
  | nil => exact .single (touch_same (List.append_nil _) hnext)
  | cons found rest ih =>
    obtain ⟨hfound, hrest⟩ := List.forall_mem_cons.mp hnew
    set m : MetaSnapper := ⟨id', found.configInfo, found.uids, 0, now, none, found.disk⟩ with hm
    have hadd : Touch new set d
        { d with metaSnappers := d.metaSnappers ++ [m], nextId := id' + 1 } :=
      .add rfl rfl found.wf hfound hnext (hnext.trans (Nat.le_succ id'))
    have hmore := ih (d := { d with metaSnappers := d.metaSnappers ++ [m], nextId := id' + 1 })
      le_rfl hrest
    have hlength : id' + 1 + rest.length = id' + (found :: rest).length := by
      rw [List.length_cons]
      omega
    have htwo : d.metaSnappers ++ [m] ++ Found.metaSnappers now (id' + 1) rest =
        d.metaSnappers ++ Found.metaSnappers now id' (found :: rest) :=
      List.append_assoc _ _ _
    dsimp only at hmore
    rw [hlength, htwo] at hmore
    exact hmore.head hadd

/-- A restart: some configs are not listed any more, the others lose their objects, and then
others are found. -/
theorem restart_touches {now : Int} {listed : Str → Bool} {added : List Found}
    (hnew : ∀ found ∈ added, ∀ s ∈ found.disk.infos, new s) :
    ReflTransGen (Touch new set) d (d.restart now listed added) := by
  set d₁ : Daemon := { d with
    metaSnappers := d.metaSnappers.filter fun m => listed m.configName }
  set d₂ : Daemon := { d₁ with metaSnappers := d₁.metaSnappers.map fun m =>
    { m with counter := 0, lastUsed := now, snapper := none } }
  have hlist : Touch new set d d₁ := .remove rfl le_rfl
  have hforget : Touch new set d₁ d₂ :=
    .recount rfl (by intro; rfl) (by intro; exact Or.inr rfl) (by intro; rfl) le_rfl
  have hfound : ReflTransGen (Touch new set) d₂ { d₂ with
      metaSnappers := d₂.metaSnappers ++ Found.metaSnappers now d.nextId added
      nextId := d.nextId + added.length } := found_touches le_rfl hnew
  exact touches_then (hfound.head hforget |>.head hlist) rfl le_rfl

/-- Every event of a history is a sequence of changes, whether it is a step or a restart. -/
theorem event_touches {event : Event} (hset : Routine set) (hbrings : event.Brings new set d) :
    ReflTransGen (Touch new set) d (d.event event) := by
  cases event with
  | step a => exact step_touches hset hbrings
  | restart now listed added => exact restart_touches hbrings

end Steps

/-! ## What lasts -/

/-- What each kind of change keeps of a config.  There is one field for each kind; the fields
without a number or a snapshot are about any of them. -/
structure Lasts (new : Snapshot → Prop) (set : (Snapshot → Snapshot) → Prop)
    (I : MetaSnapper → Prop) : Prop where
  same : ∀ m m', m'.fixed = m.fixed → m'.disk = m.disk → m'.snapper = m.snapper → I m → I m'
  unload : ∀ m m', m'.fixed = m.fixed → m'.disk = m.disk → m'.snapper = none → I m → I m'
  load : ∀ m id, I m → I { m with snapper := some ⟨id, m.disk.read⟩ }
  change : ∀ m num f, num ≠ 0 → (∀ s, (f s).num = s.num) → set f → I m →
    I (m.setSnapshots (update Snapshot.num num f))
  write : ∀ m m' s, s ∈ m'.snapshots → s.num ≠ 0 → I m' → I m →
    I { m with disk := m.disk.write s }
  dirs : ∀ m dirs, I m → I { m with disk := { m.disk with dirs := dirs } }
  spoil : ∀ m nums, I m → I { m with disk := { m.disk with unreadable := nums } }
  insert : ∀ m s, new s → s.num ≠ 0 → I m →
    I { m.setSnapshots (· ++ [s.flushed]) with disk := m.disk.write s }
  lose : ∀ m p, I m → I { m with disk := { m.disk with infos := m.disk.infos.filter p } }
  erase : ∀ m num dirs, num ≠ 0 → I m →
    I { m.setSnapshots (·.eraseP (·.num = num)) with disk := { m.disk with dirs := dirs } }
  add : ∀ m, m.snapper = none → m.disk.WF → (∀ s ∈ m.disk.infos, new s) → I m

section Lasts

variable {new : Snapshot → Prop} {set : (Snapshot → Snapshot) → Prop} {I : MetaSnapper → Prop}
  {d d' : Daemon}

theorem all_modMeta {id : Nat} {f : MetaSnapper → MetaSnapper} (hf : ∀ m, I m → I (f m))
    (h : ∀ m ∈ d.metaSnappers, I m) : ∀ m ∈ (d.modMeta id f).metaSnappers, I m := by
  intro m' hm'
  obtain ⟨m, hm, ⟨-, rfl⟩ | ⟨-, rfl⟩⟩ := mem_modMeta hm'
  · exact hf m (h m hm)
  · exact h m' hm

/-- What lasts through each kind of change is kept by a change of the daemon: the other configs
are as they were. -/
theorem Lasts.touch (hI : Lasts new set I) (htouch : Touch new set d d')
    (h : ∀ m ∈ d.metaSnappers, I m) : ∀ m ∈ d'.metaSnappers, I m := by
  cases htouch with
  | recount hmetas hdisk hsnapper hfixed _ =>
    rw [hmetas]
    intro m' hm'
    obtain ⟨m, hm, rfl⟩ := List.mem_map.mp hm'
    rcases hsnapper m with hsame | hnone
    · exact hI.same m _ (hfixed m) (hdisk m) hsame (h m hm)
    · exact hI.unload m _ (hfixed m) (hdisk m) hnone (h m hm)
  | load id => exact all_modMeta (d := d) (fun m hm => hI.load m _ hm) h
  | change id hnum hkeeps hf => exact all_modMeta (fun m hm => hI.change m _ _ hnum hkeeps hf hm) h
  | write hs hnum =>
    rename_i id s
    -- the snapshot is one of a config of which this holds
    rw [Daemon.snapshots] at hs
    split at hs
    · cases hs
    · next m' hm' =>
      exact all_modMeta (fun m hm => hI.write m m' s hs hnum (h m' (mem_of_metaSnapper hm')) hm) h
  | makeDir id num => exact all_modMeta (fun m hm => hI.dirs m _ hm) h
  | removeDir id num stays => exact all_modMeta (fun m hm => hI.dirs m _ hm) h
  | insert id hs hnum => exact all_modMeta (fun m hm => hI.insert m _ hs hnum hm) h
  | spoil id nums => exact all_modMeta (fun m hm => hI.spoil m nums hm) h
  | lose id p => exact all_modMeta (fun m hm => hI.lose m p hm) h
  | erase id stays hnum => exact all_modMeta (fun m hm => hI.erase m _ _ hnum hm) h
  | remove hmetas _ =>
    rw [hmetas]
    exact fun m hm => h m (List.mem_filter.mp hm).1
  | add hmetas hunloaded hdisk hnew _ _ =>
    rw [hmetas]
    intro m' hm'
    rcases List.mem_append.mp hm' with hold | hadded
    · exact h m' hold
    · rw [List.mem_singleton.mp hadded]
      exact hI.add _ hunloaded hdisk hnew

/-- What lasts through every kind of change lasts through an event. -/
theorem Lasts.event (hI : Lasts new set I) (hset : Routine set) {event : Event}
    (hbrings : event.Brings new set d) (h : ∀ m ∈ d.metaSnappers, I m) :
    ∀ m ∈ (d.event event).metaSnappers, I m :=
  keeps_of_steps (I := fun d => ∀ m ∈ d.metaSnappers, I m) (fun _ _ htouch h => hI.touch htouch h)
    (event_touches hset hbrings) h

/-- What lasts through every kind of change holds after every history. -/
theorem Lasts.history (hI : Lasts new set I) (hset : Routine set) {start : Daemon}
    {events : List Event} (hstart : ∀ m ∈ start.metaSnappers, I m)
    (hbrings : Along (fun d event => event.Brings new set d) Daemon.event events start) :
    ∀ m ∈ (events.foldl Daemon.event start).metaSnappers, I m :=
  hbrings.invariant hstart fun _ _ h hevent => hI.event hset hevent h

end Lasts

/-! ## What never changes -/

/-- Where nothing is asked, a request may bring anything. -/
theorem brings_anything {request : Request} {env : Env} :
    request.Brings (fun _ => True) (fun _ => True) env := by
  cases request <;> simp [Request.Brings]

/-- Where nothing is asked of the changes, those without a request are among them. -/
theorem routine_anything : Routine fun _ => True :=
  ⟨by simp, by simp, by simp, by simp, trivial, by simp⟩

/-- Where nothing is asked, an event may bring anything. -/
theorem brings_any {event : Event} {d : Daemon} :
    event.Brings (fun _ => True) (fun _ => True) d := by
  cases event with
  | restart => exact fun _ _ _ _ => trivial
  | step a =>
    cases a with
    | work => exact fun _ _ => brings_anything
    | _ => trivial

/-- A config of the later daemon is one of the earlier one, with the same data and users, or has
an address that was not used then. -/
structure Daemon.Follows (d d' : Daemon) : Prop where
  nextId : d.nextId ≤ d'.nextId
  fixed : ∀ m' ∈ d'.metaSnappers, (∃ m ∈ d.metaSnappers, m.fixed = m'.fixed) ∨ d.nextId ≤ m'.id

section Follows

variable {new : Snapshot → Prop} {set : (Snapshot → Snapshot) → Prop} {d d' d'' : Daemon}

/-- A daemon follows itself. -/
theorem Daemon.Follows.refl : d.Follows d := ⟨le_rfl, fun m hm => Or.inl ⟨m, hm, rfl⟩⟩

/-- An address that was new at the first step is still higher than all that were used before it.
-/
theorem Daemon.Follows.trans (h : d.Follows d') (h' : d'.Follows d'') : d.Follows d'' := by
  refine ⟨h.nextId.trans h'.nextId, ?_⟩
  intro m'' hm''
  rcases h'.fixed m'' hm'' with ⟨m', hm', hsame'⟩ | hlate
  · have hid : m'.id = m''.id := congrArg Prod.fst hsame'
    rcases h.fixed m' hm' with ⟨m, hm, hsame⟩ | hlate
    · exact Or.inl ⟨m, hm, hsame.trans hsame'⟩
    · exact Or.inr (hlate.trans hid.le)
  · exact Or.inr (h.nextId.trans hlate)

/-- Every config is changed in place. -/
theorem follows_map {g : MetaSnapper → MetaSnapper}
    (hmetas : d'.metaSnappers = d.metaSnappers.map g)
    (hfixed : ∀ m, (g m).fixed = m.fixed) (hnext : d.nextId ≤ d'.nextId) : d.Follows d' := by
  refine ⟨hnext, ?_⟩
  rw [hmetas]
  intro m' hm'
  obtain ⟨m, hm, rfl⟩ := List.mem_map.mp hm'
  exact Or.inl ⟨m, hm, (hfixed m).symm⟩

/-- One config is changed in place. -/
theorem follows_modMeta {id : Nat} {f : MetaSnapper → MetaSnapper}
    (hfixed : ∀ m, (f m).fixed = m.fixed) : d.Follows (d.modMeta id f) := by
  refine follows_map rfl ?_ le_rfl
  intro m
  split
  · exact hfixed m
  · rfl

/-- No kind of change gives a config another address, other data or other users. -/
theorem Touch.follows (h : Touch new set d d') : d.Follows d' := by
  -- only two kinds of change come to configs as a whole; a new one has a late address
  cases h with
  | recount hmetas _ _ hfixed hnext => exact follows_map hmetas hfixed hnext
  | load id =>
    have hloaded : d.Follows (d.modMeta id fun m =>
        { m with snapper := some ⟨d.nextId, m.disk.read⟩ }) := follows_modMeta (by intro; rfl)
    exact ⟨Nat.le_succ _, hloaded.fixed⟩
  | remove hmetas hnext =>
    refine ⟨hnext, ?_⟩
    rw [hmetas]
    exact fun m hm => Or.inl ⟨m, (List.mem_filter.mp hm).1, rfl⟩
  | add hmetas _ _ _ hid hnext =>
    refine ⟨hnext, ?_⟩
    rw [hmetas]
    intro m' hm'
    rcases List.mem_append.mp hm' with hold | hadded
    · exact Or.inl ⟨m', hold, rfl⟩
    · rw [List.mem_singleton.mp hadded]
      exact Or.inr hid
  | _ => exact follows_modMeta (by intro; rfl)

/-- Whatever happens, the data and the users of a config stay as they are. -/
theorem event_follows (d : Daemon) (event : Event) : d.Follows (d.event event) := by
  have hsteps : ReflTransGen (Touch (fun _ => True) fun _ => True) d (d.event event) :=
    event_touches routine_anything brings_any
  generalize d.event event = d' at hsteps
  induction hsteps with
  | refl => exact .refl
  | tail _ htouch ih => exact ih.trans htouch.follows

end Follows

end Snapper.Server
