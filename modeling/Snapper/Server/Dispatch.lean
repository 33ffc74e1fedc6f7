import Snapper.Server.Change

/-!
# Every handler makes the changes of its request

One lemma for each handler, put together for `handle` and `dispatch`.

## Main results

* `handle_through`: a handler goes from state to state by the changes of its request.
* `dispatch_changes`: so does `Client::dispatch`, which answers an exception.
-/

namespace Snapper.Server

open General Act

section Dispatch

variable {env : Env} {me configName : Str} {request : Request} {P : Daemon → Prop}

/-- Where nothing needs to be known. -/
private theorem always : ∀ d d', Edit d d' → True → True := fun _ _ _ _ => trivial

/-- The last answer of a handler. -/
theorem sendReply_through {reply : Reply} :
    Through Edit P (sendReply me reply) fun _ _ => True :=
  Through.modify fun _ _ => ⟨Edit.send (.reply me reply), trivial⟩

theorem signal_through {msg : Sent} : Through Edit P (signal msg) fun _ _ => True :=
  Through.modify fun _ _ => ⟨Edit.send msg, trivial⟩

/-- An answer and a signal. -/
theorem reply_signal_through {reply : Reply} {msg : Sent} :
    Through Edit P (sendReply me reply >>= fun _ => signal msg) fun _ _ => True := by
  apply Through.bind sendReply_through
  intro _
  exact signal_through

/-! ## Looking -/

theorem listConfigs_through : Through Edit Daemon.Base (listConfigs me) fun _ _ => True := by
  apply Through.bind Through.look
  intro metaSnappers
  exact sendReply_through

theorem getConfig_through :
    Through Edit Daemon.Base (getConfig env me configName) fun _ _ => True := by
  apply Through.bind findConfig_through
  intro m
  apply Through.bind checkPermission_through
  intro _
  exact sendReply_through

theorem listSnapshots_through :
    Through Edit Daemon.Base (listSnapshots env me configName) fun _ _ => True := by
  apply Through.bind openConfig_through
  intro m
  apply Through.bind Through.look
  intro snapshots
  exact sendReply_through

theorem listSnapshotsAtTime_through {begin_ end_ : Int64} :
    Through Edit Daemon.Base (listSnapshotsAtTime env me configName begin_ end_)
      fun _ _ => True := by
  apply Through.bind openConfig_through
  intro m
  apply Through.bind Through.look
  intro snapshots
  exact sendReply_through

theorem sendSnapshot_through {num : UInt32} :
    Through Edit Daemon.Base (sendSnapshot env me configName num) fun _ _ => True := by
  apply Through.bind openConfig_through
  intro m
  apply Through.bind getSnapshot_through
  intro snapshot
  exact sendReply_through

theorem getMountPoint_through {num : UInt32} :
    Through Edit Daemon.Base (getMountPoint env me configName num) fun _ _ => True := by
  apply Through.bind openConfig_through
  intro m
  apply Through.bind getSnapshot_through
  intro snapshot
  exact sendReply_through

/-- A comparison that is found is one of the client. -/
theorem findComparison_through {R : Daemon → Daemon → Prop} {id : Nat} {num1 num2 : UInt32} :
    Through R P (findComparison me id num1 num2) fun comparison d =>
      P d ∧ ∃ c, d.client me = some c ∧ comparison ∈ c.comparisons := by
  apply Through.bind Through.look
  intro snapper
  apply Through.bind findSnapshot_through
  intro snapshot1
  apply Through.bind findSnapshot_through
  intro snapshot2
  apply Through.bind (Q := fun client d => P d ∧ d.client me = client)
  · exact Through.read fun _ h => ⟨h.1.1, rfl⟩
  · intro client
    split
    · exact Through.throw
    · next comparison hfound =>
      obtain ⟨c, rfl, hfind⟩ := Option.bind_eq_some_iff.mp hfound
      exact Through.pure fun d h => ⟨h.1, c, h.2, List.mem_of_find?_eq_some hfind⟩

theorem getFiles_through {num1 num2 : UInt32} :
    Through Edit Daemon.Base (getFiles env me configName num1 num2) fun _ _ => True := by
  apply Through.bind openConfig_through
  intro m
  apply Through.bind findComparison_through
  intro comparison
  exact sendReply_through

theorem debug_through : Through Edit Daemon.Base (debug env me) fun _ _ => True := by
  apply Through.bind checkRoot_through
  intro _
  exact sendReply_through

theorem setSnapshot_through {num : UInt32} {description cleanup : Str} {userdata : StrMap} :
    Through Edit Daemon.Base (setSnapshot env me configName num description cleanup userdata)
      fun _ _ => True := by
  apply Through.bind openConfig_through
  intro m
  apply Through.bind getSnapshot_through
  intro snapshot
  apply Through.bind (Q := fun _ _ => True)
  · exact (setField_through always (by intro; rfl) (by intro; rfl)).conseq
      (fun _ _ => trivial) (fun _ _ h => h)
  · intro _
    apply Through.bind (setField_through always (by intro; rfl) (by intro; rfl))
    intro _
    apply Through.bind (setUserdata_through always)
    intro _
    apply Through.bind (flushInfo_through always)
    intro _
    exact reply_signal_through

/-! ## Configs and locks -/

/-- A config is added at the end, under an id that no other has. -/
theorem createConfig_through : Through (Change me request) Daemon.Base
    (createConfig env me configName) fun _ _ => True := by
  apply Through.bind checkRoot_through
  intro _
  apply Through.bind (Q := fun known d => (d.find configName).isSome = known)
  · exact Through.read fun _ _ => rfl
  · intro known
    apply Through.bind (Q := fun _ d => d.find configName = none)
    · apply Through.throwIf
      rintro rfl d h
      simpa using h
    · intro _
      apply Through.bind call_through
      intro _
      apply Through.bind (Q := fun _ _ => True)
      · exact Through.modify fun d hnew => ⟨Change.createConfig hnew, trivial⟩
      · intro _
        exact reply_signal_through.mono fun _ _ h => Change.create (Create.edit h)

/-- Deleting a config: its checks, the loss of infos when the deletion fails, and the removal. -/
theorem deleteConfig_through : Through (Change me (.deleteConfig configName)) Daemon.Base
    (deleteConfig env me configName) fun _ _ => True := by
  apply Through.bind findConfig_through
  intro m
  apply Through.bind checkRoot_through
  intro _
  apply Through.bind (Q := fun _ d => d.find configName = some m)
  · apply Through.bind (Q := fun _ d => d.find configName = some m)
    · exact Through.read fun _ h => h.2
    · intro locked
      exact Through.throwIf fun _ _ h => h
  · intro _
    apply Through.bind (Q := fun _ d => d.find configName = some m ∧ m.counter = 0)
    · apply Through.throwIf
      intro hcounter d h
      exact ⟨h, by simpa using hcounter⟩
    · intro _
      apply Through.bind (Q := fun _ _ => True)
      -- with an error some infos may be lost and the config is still there
      · rw [deleteConfigOf]
        split
        · apply Through.bind (Q := fun _ _ => True)
          · exact Through.modify fun d h => ⟨Change.loseInfos rfl h.1 h.2, trivial⟩
          · intro _
            exact Through.throw
        · exact Through.modify fun d h => ⟨Change.removeConfig rfl h.1 h.2, trivial⟩
      · intro _
        exact reply_signal_through.mono fun _ _ h => Change.create (Create.edit h)

theorem lockConfig_through : Through (Change me (.lockConfig configName)) Daemon.Base
    (lockConfig env me configName) fun _ _ => True := by
  apply Through.bind findConfig_through
  intro m
  apply Through.bind checkPermission_through
  intro _
  apply Through.bind (Q := fun _ _ => True)
  · exact Through.modify fun d _ => ⟨Change.lock rfl, trivial⟩
  · intro _
    exact sendReply_through.mono fun _ _ h => Change.create (Create.edit h)

theorem unlockConfig_through : Through (Change me (.unlockConfig configName)) Daemon.Base
    (unlockConfig env me configName) fun _ _ => True := by
  apply Through.bind findConfig_through
  intro m
  apply Through.bind checkPermission_through
  intro _
  apply Through.bind (Q := fun _ _ => True)
  · exact Through.modify fun d _ => ⟨Change.unlock rfl, trivial⟩
  · intro _
    exact sendReply_through.mono fun _ _ h => Change.create (Create.edit h)

/-! ## Creating and deleting snapshots -/

/-- A handler that opens the config, creates a snapshot, finishes it, replies and sends a signal. -/
theorem create_through {create : MetaSnapper → Handler UInt32} {cleanup : Str} {userdata : StrMap}
    (hcreate : ∀ m, Through Create (Daemon.Serves configName m) (create m)
      fun num d => d.Serves configName m ∧ d.Has m.id num) :
    Through Create Daemon.Base
      (do
        let m ← openConfig env configName
        let num ← create m
        finishCreate env m.id num cleanup userdata
        sendReply me (.number num)
        signal (.snapshotCreated configName num) : Handler PUnit)
      fun _ _ => True := by
  -- what opening, creating and finishing do are all changes of a creation
  apply Through.bind (openConfig_through.mono fun _ _ h => Create.edit h)
  intro m
  apply Through.bind (hcreate m)
  intro num
  apply Through.mono _ fun _ _ h => Create.edit h
  apply Through.bind (Q := fun _ _ => True)
  · exact (finishCreate_through always).conseq (fun _ _ => trivial) (fun _ _ h => h)
  · intro _
    exact reply_signal_through

theorem handleCreateSingleSnapshot_through {description cleanup : Str} {userdata : StrMap} :
    Through Create Daemon.Base
      (handleCreateSingleSnapshot env me configName description cleanup userdata)
      fun _ _ => True :=
  create_through fun _ => createSnapshot_through

theorem handleCreatePreSnapshot_through {description cleanup : Str} {userdata : StrMap} :
    Through Create Daemon.Base
      (handleCreatePreSnapshot env me configName description cleanup userdata)
      fun _ _ => True :=
  create_through fun _ => createSnapshot_through

/-- The pre snapshot is looked up first, which edits nothing but what opening the config loads. -/
theorem handleCreatePostSnapshot_through {preNum : UInt32} {description cleanup : Str}
    {userdata : StrMap} :
    Through (Change me request) Daemon.Base
      (handleCreatePostSnapshot env me configName preNum description cleanup userdata)
      fun _ _ => True := by
  have hedit : ∀ d d', Edit d d' → Change me request d d' := fun _ _ h =>
    Change.create (Create.edit h)
  apply Through.bind (openConfig_through.mono hedit)
  intro m
  apply Through.bind findSnapshot_through
  intro pre
  -- both snapshots are in the list once the post snapshot is created
  apply Through.bind (Q := fun num d => d.Has m.id preNum ∧ d.Has m.id num)
  · apply Through.mono _ fun _ _ h => Change.create h
    apply Through.bind Through.look
    intro snapshots
    cases pre with
    | none => exact Through.throw
    | some pre =>
      apply Through.ite
      · intro _
        exact Through.throw
      · intro _
        have hcreate : Through Create
            (fun d => d.Serves configName m ∧ d.Has m.id preNum)
            (createSnapshot env m.id .POST pre.num description)
            fun num d => (d.Serves configName m ∧ d.Has m.id num) ∧ d.Has m.id preNum :=
          createSnapshot_through.keep fun _ _ h hd => h.has hd
        apply hcreate.conseq
        · rintro d ⟨h, hs⟩
          obtain ⟨m', hm', hmem, hnum⟩ := mem_of_snapshot hs
          exact ⟨h, m', hm', pre, hmem, hnum⟩
        · rintro num d ⟨⟨-, hhas⟩, hpre⟩
          exact ⟨hpre, hhas⟩
  · intro num
    apply Through.bind (Q := fun _ d => d.Has m.id preNum ∧ d.Has m.id num)
    · apply Through.mono _ hedit
      exact finishCreate_through fun d d' h hd => ⟨h.has hd.1, h.has hd.2⟩
    · intro _
      have hanswer : Through (Change me request) (fun _ => True)
          (sendReply me (.number num) >>= fun _ => signal (.snapshotCreated configName num))
          fun _ _ => True := reply_signal_through.mono hedit
      apply Through.ite
      · intro _
        apply Through.bind (Q := fun _ _ => True)
        · apply Through.modify_modify
          intro d h
          have hsound : Task.Sound d ⟨m.id, preNum, num⟩ := h
          exact ⟨Change.addTask hsound, trivial⟩
        · intro _
          exact hanswer
      · intro _
        exact hanswer.conseq (fun _ _ => trivial) (fun _ _ h => h)

/-- The config is not in use when the loop begins, which is checked after the lock. -/
theorem deleteSnapshots_through {nums : List UInt32} :
    Through (Change me (.deleteSnapshots configName nums)) Daemon.Base
      (deleteSnapshots env me configName nums)
      fun _ _ => True := by
  have hedit : ∀ d d', Edit d d' →
      Change me (.deleteSnapshots configName nums) d d' := fun _ _ h =>
    Change.create (Create.edit h)
  apply Through.bind findConfig_through
  intro m
  apply Through.bind checkPermission_through
  intro _
  apply Through.bind (Q := fun _ d => d.Base ∧ d.find configName = some m)
  · apply Through.bind (Q := fun _ d => d.Base ∧ d.find configName = some m)
    · exact Through.read fun _ h => h
    · intro locked
      exact Through.throwIf fun _ _ h => h
  · intro _
    -- `checkConfigInUse` comes before the config is loaded, which makes no use of it
    apply Through.bind (Q := fun _ d => (d.Base ∧ d.find configName = some m) ∧ d.Unused m)
    · apply Through.throwIf
      intro hcounter d h
      refine ⟨h, m, h.1.addresses.metaSnapper_of_find h.2, rfl, rfl, ?_⟩
      simpa using hcounter
    · intro _
      have hload : Through Edit (fun d => (d.Base ∧ d.find configName = some m) ∧ d.Unused m)
          (getSnapper env m.id) fun _ d => d.Serves configName m ∧ d.Unused m :=
        getSnapper_through.keep fun _ _ h hd => h.unused hd
      apply Through.bind (hload.mono hedit)
      intro _
      apply Through.bind (Q := fun _ _ => True)
      · exact (deleteAll_through rfl).conseq (fun _ h => h.2) (fun _ _ h => h)
      · intro _
        exact reply_signal_through.mono hedit

/-! ## Mounts -/

theorem mountSnapshot_through {num : UInt32} {userRequest : Bool} :
    Through (Change me (.mountSnapshot configName num userRequest)) Daemon.Base
      (mountSnapshot env me configName num userRequest) fun _ _ => True := by
  have hedit : ∀ d d', Edit d d' →
      Change me (.mountSnapshot configName num userRequest) d d' := fun _ _ h =>
    Change.create (Create.edit h)
  apply Through.bind (openConfig_through.mono hedit)
  intro m
  apply Through.bind getSnapshot_through
  intro s
  apply Through.of_fact (p := s.num = num)
  · exact fun d h => key_of_lookup h.2
  rintro rfl
  have hreply : ∀ {P : Daemon → Prop}, Through (Change me (.mountSnapshot configName s.num
      userRequest)) P (sendReply me (.mountPoint (env.snapshotDir s.num))) fun _ _ => True :=
    sendReply_through.mono hedit
  cases userRequest with
  | true =>
    apply Through.bind (Q := fun _ _ => True)
    · apply Through.mono _ hedit
      exact (mountFilesystemSnapshot_through (fun _ => checkMounted_edit) (fun _ => countMount_edit)
        always).conseq (fun _ _ => trivial) (fun _ _ _ => trivial)
    · intro _
      exact hreply
  | false =>
    -- the snapshot that is mounted is still in the list when the client gets its entry
    apply Through.bind (Q := fun _ d => (d.Serves configName m ∧ d.Has m.id s.num) ∧ s.num ≠ 0)
    · have hmount : Through Recount (fun d => d.Serves configName m ∧ d.Has m.id s.num)
          (mountFilesystemSnapshot env m.id configName s false)
          fun _ d => (d.Serves configName m ∧ d.Has m.id s.num) ∧ s.num ≠ 0 := by
        apply mountFilesystemSnapshot_through
        · exact fun _ => Recount.edit checkMounted_edit
        · exact fun _ => Recount.recount m.id s.num countMount_num
        · exact fun _ _ h hd => ⟨h.serves hd.1, h.has hd.2⟩
      apply (hmount.mono fun _ _ h => Change.mount rfl h).conseq
      · rintro d ⟨h, hs⟩
        obtain ⟨m', hm', hmem, -⟩ := mem_of_snapshot hs
        exact ⟨h, m', hm', s, hmem, rfl⟩
      · exact fun _ _ h => h
    · intro _
      apply Through.bind (Q := fun _ _ => True)
      · apply Through.modify
        rintro d ⟨⟨h, hhas⟩, hnum⟩
        exact ⟨Change.addMount rfl h hhas hnum, trivial⟩
      · intro _
        exact hreply

theorem umountSnapshot_through {num : UInt32} {userRequest : Bool} :
    Through (Change me (.umountSnapshot configName num userRequest)) Daemon.Base
      (umountSnapshot env me configName num userRequest) fun _ _ => True := by
  have hedit : ∀ d d', Edit d d' →
      Change me (.umountSnapshot configName num userRequest) d d' := fun _ _ h =>
    Change.create (Create.edit h)
  apply Through.bind (openConfig_through.mono hedit)
  intro m
  apply Through.bind getSnapshot_through
  intro s
  have hreply : ∀ {P : Daemon → Prop}, Through (Change me (.umountSnapshot configName num
      userRequest)) P (sendReply me .done) fun _ _ => True :=
    sendReply_through.mono hedit
  apply Through.bind (Q := fun _ _ => True)
  -- a user request is not one of the uses that are counted
  · cases userRequest with
    | true =>
      apply Through.mono _ hedit
      exact (umountFilesystemSnapshot_through (fun _ => checkMounted_edit)
        (fun _ => countUmount_edit) always).conseq (fun _ _ => trivial) (fun _ _ _ => trivial)
    | false =>
      apply Through.mono (R := Recount) _ fun _ _ h => Change.mount rfl h
      apply (umountFilesystemSnapshot_through (P := fun _ => True) _ _ _).conseq
      · exact fun _ _ => trivial
      · exact fun _ _ _ => trivial
      · exact fun _ => Recount.edit checkMounted_edit
      · exact fun _ => Recount.recount m.id s.num countUmount_num
      · exact fun _ _ _ _ => trivial
  · intro _
    cases userRequest with
    | true => exact hreply
    | false =>
      apply Through.bind (Q := fun _ _ => True)
      · exact Through.modify fun d _ => ⟨Change.removeMount rfl, trivial⟩
      · intro _
        exact hreply

/-! ## Comparisons -/

/-- The address of the `Snapper` of a loaded config. -/
theorem snapperOf_eq {d : Daemon} {id : Nat} {m : MetaSnapper} (hm : d.metaSnapper id = some m)
    (hloaded : m.isLoaded = true) : m.snapperId = some (d.snapperOf id) := by
  obtain ⟨loaded, hsnapper⟩ := Option.isSome_iff_exists.mp hloaded
  simp [MetaSnapper.snapperId, Daemon.snapperOf, hm, hsnapper]

theorem Edit.idle {name : Str} {d d' : Daemon} (h : Edit d d') (hd : d.Idle name) :
    d'.Idle name := by
  cases h <;> exact hd

/-- The worker goes on to the constructor with the use counted. -/
theorem createComparison_through {num1 num2 : UInt32} :
    Through (Change me request) (fun d => d.Base ∧ d.Idle me)
      (createComparison env me configName num1 num2) fun _ _ => True := by
  have hopen : Through Edit (fun d => d.Base ∧ d.Idle me) (openConfig env configName)
      fun m d => d.Serves configName m ∧ d.Idle me :=
    openConfig_through.keep fun _ _ h hd => h.idle hd
  apply Through.bind (hopen.mono fun _ _ h => Change.create (Create.edit h))
  intro m
  apply Through.bind (Q := fun snapper d =>
    (d.Serves configName m ∧ d.Idle me) ∧ d.snapperOf m.id = snapper)
  · exact Through.read fun _ h => ⟨h, rfl⟩
  · intro snapper
    apply Through.bind findSnapshot_through
    intro snapshot1
    apply Through.bind findSnapshot_through
    intro snapshot2
    -- the counter and the worker change in one step of the daemon
    apply Through.modify_modify
    rintro d ⟨⟨⟨⟨h, hidle⟩, rfl⟩, hs1⟩, hs2⟩
    have hhas : ∀ {num num' : UInt32} {found : Option Snapshot}, d.snapshot m.id num' = found →
        found.map Snapshot.num = some num → d.Has m.id num := by
      rintro num num' found hfound hmap
      obtain ⟨s, rfl, rfl⟩ := Option.map_eq_some_iff.mp hmap
      obtain ⟨m', hm', hmem, -⟩ := mem_of_snapshot hfound
      exact ⟨m', hm', s, hmem, rfl⟩
    obtain ⟨m', hm', hloaded, -⟩ := h.metaSnapper
    -- the snapshots were looked up in the list that the config shows
    have hsound : Making.Sound d ⟨m.id, d.snapperOf m.id, snapshot1.map Snapshot.num,
        snapshot2.map Snapshot.num, false⟩ :=
      ⟨⟨m', hm', snapperOf_eq hm' hloaded⟩, fun _ => hhas hs1, fun _ => hhas hs2⟩
    exact ⟨Change.startComparison hidle hsound rfl, trivial⟩

/-- The comparison leaves the client and its use is given back in one change. -/
theorem deleteComparison_through {num1 num2 : UInt32} :
    Through (Change me (.deleteComparison configName num1 num2)) Daemon.Base
      (deleteComparison env me configName num1 num2) fun _ _ => True := by
  have hedit : ∀ d d', Edit d d' →
      Change me (.deleteComparison configName num1 num2) d d' := fun _ _ h =>
    Change.create (Create.edit h)
  apply Through.bind (openConfig_through.mono hedit)
  intro m
  apply Through.bind findComparison_through
  intro comparison
  apply Through.assoc
  apply Through.bind (Q := fun _ _ => True)
  · apply Through.modify_modify
    rintro d ⟨-, c, hc, hcomparison⟩
    exact ⟨Change.endComparison env rfl hc hcomparison, trivial⟩
  · intro _
    exact sendReply_through.mono hedit

/-! ## All of them -/

/-- A handler makes the changes of its request, also when it throws. -/
theorem handle_through : Through (Change me request) (fun d => d.Base ∧ d.Idle me)
    (handle env me request) fun _ _ => True := by
  have hchange : ∀ {c : Handler PUnit},
    Through (Change me request) Daemon.Base c (fun _ _ => True) →
      Through (Change me request) (fun d => d.Base ∧ d.Idle me) c fun _ _ => True := fun h =>
    h.conseq (fun _ h => h.1) (fun _ _ h => h)
  have hcreate : ∀ {c : Handler PUnit}, Through Create Daemon.Base c (fun _ _ => True) →
      Through (Change me request) (fun d => d.Base ∧ d.Idle me) c fun _ _ => True := fun h =>
    hchange (h.mono fun _ _ h => Change.create h)
  have hedit : ∀ {c : Handler PUnit}, Through Edit Daemon.Base c (fun _ _ => True) →
      Through (Change me request) (fun d => d.Base ∧ d.Idle me) c fun _ _ => True := fun h =>
    hcreate (h.mono fun _ _ h => Create.edit h)
  -- a handler makes edits only, or creates as well, or has changes of its own
  cases request with
  | listConfigs => exact hedit listConfigs_through
  | createConfig => exact hchange createConfig_through
  | getConfig => exact hedit getConfig_through
  | deleteConfig => exact hchange deleteConfig_through
  | lockConfig => exact hchange lockConfig_through
  | unlockConfig => exact hchange unlockConfig_through
  | listSnapshots => exact hedit listSnapshots_through
  | listSnapshotsAtTime => exact hedit listSnapshotsAtTime_through
  | getSnapshot => exact hedit sendSnapshot_through
  | setSnapshot => exact hedit setSnapshot_through
  | createSingleSnapshot => exact hcreate handleCreateSingleSnapshot_through
  | createPreSnapshot => exact hcreate handleCreatePreSnapshot_through
  | createPostSnapshot => exact hchange handleCreatePostSnapshot_through
  | deleteSnapshots => exact hchange deleteSnapshots_through
  | mountSnapshot => exact hchange mountSnapshot_through
  | umountSnapshot => exact hchange umountSnapshot_through
  | getMountPoint => exact hedit getMountPoint_through
  | createComparison => exact createComparison_through
  | deleteComparison => exact hchange deleteComparison_through
  | getFiles => exact hedit getFiles_through
  | debug => exact hedit debug_through

/-- So does the dispatcher, which answers an exception. -/
theorem dispatch_changes {d : Daemon} (hd : d.Base) (hidle : d.Idle me) :
    Relation.ReflTransGen (Change me request) d (dispatch env me request d) := by
  have hthrough : Through (Change me request) _ (handle env me request) _ := handle_through
  obtain ⟨hsteps, -⟩ := hthrough d ⟨hd, hidle⟩
  rw [dispatch]
  cases hrun : (handle env me request).run d with
  | mk r d' =>
    rw [hrun] at hsteps
    cases r with
    | ok _ => exact hsteps
    | error e => exact hsteps.tail (Change.create (Create.edit (Edit.send _)))

end Dispatch

end Snapper.Server
