import Snapper.Server.Coherent

/-!
# Steps keep lists and disks together

Every handler and every step of the daemon keep what is on disk in the list, and keep on disk
what they are not asked to delete.  A snapshot whose creation is answered is on disk.

## Main results

* `handle_coherent`, `step_coherent`: nothing is lost that is not deleted.
* `create_created`, `createPost_created`: a snapshot is on disk when its number is sent.
-/

namespace Snapper.Server

open General Act

/-! ## The other handlers -/

/-- The request deletes the snapshot, or the config that the snapshot is one of. -/
def Request.Removes (kept : Deposit) : Request → Prop
  | .deleteSnapshots configName nums => configName = kept.configName ∧ kept.core.num ∈ nums
  | .deleteConfig configName => configName = kept.configName
  | _ => False

/-- A config that the request creates has no unreadable entry of this number. -/
def Request.Reads (env : Env) (configName : Str) (num : UInt32) : Request → Prop
  | .createConfig name .. => name = configName → num ∉ env.createdDisk.unreadable
  | _ => True

section Handlers

variable {seen : Entries} {held : Nat → Deposit → Prop} {env : Env} {me configName : Str} {id : Nat}
  {num : UInt32}
  {m : MetaSnapper} {d d' : Daemon}

/-- Configs whose counts and times change only: lists, disks, names and addresses are the old
ones. -/
theorem Daemon.Coherent.recount {g : MetaSnapper → MetaSnapper} (h : d.Coherent seen held)
    (hbase : d'.Base) (hmetas : d'.metaSnappers = d.metaSnappers.map g)
    (hg : ∀ m, (g m).id = m.id ∧ (g m).configName = m.configName ∧ (g m).snapper = m.snapper ∧
      (g m).disk = m.disk) :
    d'.Coherent seen held where
  base := hbase
  coherent := by
    intro m' hm'
    rw [hmetas] at hm'
    obtain ⟨m, hm, rfl⟩ := List.mem_map.mp hm'
    obtain ⟨hid, hname, hsnapper, hdisk⟩ := hg m
    exact (h.coherent m hm).of_same hid hname hsnapper hdisk
  legible := by
    intro m' hm'
    rw [hmetas] at hm'
    obtain ⟨m, hm, rfl⟩ := List.mem_map.mp hm'
    obtain ⟨hid, hname, -, hdisk⟩ := hg m
    rw [hid, hname, hdisk]
    exact h.legible m hm
  held := by
    intro id kept hkept
    obtain ⟨m, hfind, rfl, hstored⟩ := h.held id kept hkept
    have hfound : d'.find kept.configName = (d.find kept.configName).map g := by
      rw [Daemon.find, hmetas]
      exact lookup_map fun m => (hg m).2.1
    obtain ⟨hid, -, -, hdisk⟩ := hg m
    refine ⟨g m, hfound.trans (congrArg _ hfind), hid, ?_⟩
    rw [hdisk]
    exact hstored

/-- What a client holds is no matter of lists and disks. -/
theorem Daemon.Coherent.modClient {g : Client → Client} (h : d.Coherent seen held)
    (hname : ∀ c, (g c).name = c.name) : (d.modClient me g).Coherent seen held :=
  h.of_same (h.base.modClient hname) rfl

/-- A message is no matter of lists and disks. -/
theorem Daemon.Coherent.send (h : d.Coherent seen held) (msg : Sent) :
    (d.send msg).Coherent seen held :=
  h.of_same (h.base.of_same rfl le_rfl h.base.addresses.names) rfl

/-- The count of a config is no matter of its list. -/
theorem Daemon.Coherent.incUseCount (h : d.Coherent seen held) :
    (incUseCount id d).Coherent seen held :=
  h.count (by intro; rfl) h.base.incUseCount (fun _ => rfl) (fun _ => rfl) fun _ => rfl

/-- The count of a config is no matter of its list. -/
theorem Daemon.Coherent.decUseCount {snapper : Nat} (h : d.Coherent seen held) :
    (decUseCount env snapper d).Coherent seen held := by
  refine h.recount h.base.decUseCount rfl ?_
  intro m
  split
  · exact ⟨rfl, rfl, rfl, rfl⟩
  · exact ⟨rfl, rfl, rfl, rfl⟩

theorem checkMounted_coherent {s : Snapshot} :
    KeepsCoherent seen held (checkMounted env id configName s) := by
  have hsee : KeepsCoherent seen held (Act.modify (Daemon.modSnapshot id s.num
      (Snapshot.checkMounted (env.isSnapshotMounted s.num)))) :=
    KeepsCoherent.modify fun _ h => h.modSnapshot checkMounted_marks
  apply KeepsCoherent.ite KeepsCoherent.throw
  apply KeepsCoherent.ite hsee
  exact call_coherent.bind fun _ => hsee

/-- Mounting marks and counts in memory only: the mount is nothing that `info.xml` has. -/
theorem mountFilesystemSnapshot_coherent {s : Snapshot} {userRequest : Bool} :
    KeepsCoherent seen held (mountFilesystemSnapshot env id configName s userRequest) :=
  checkMounted_coherent.bind fun _ =>
    (KeepsCoherent.modify fun _ h => h.modSnapshot countMount_marks).bind fun _ => call_coherent

/-- Unmounting marks and counts in memory only. -/
theorem umountFilesystemSnapshot_coherent {s : Snapshot} {userRequest : Bool} :
    KeepsCoherent seen held (umountFilesystemSnapshot env id configName s userRequest) := by
  apply checkMounted_coherent.bind
  intro _
  apply KeepsCoherent.bind (KeepsCoherent.modify fun _ h => h.modSnapshot countUmount_marks)
  intro _
  apply findSnapshot_coherent.bind
  intro found
  cases found with
  | none => exact KeepsCoherent.pure
  | some s => exact KeepsCoherent.ite call_coherent KeepsCoherent.pure

/-- Only the counters of the snapshot and the mounts of the client change. -/
theorem mountSnapshot_coherent {userRequest : Bool} :
    KeepsCoherent seen held (mountSnapshot env me configName num userRequest) := by
  apply openConfig_coherent.bind
  intro m
  apply getSnapshot_coherent.bind
  intro s
  apply mountFilesystemSnapshot_coherent.bind
  intro _
  cases userRequest with
  | true => exact sendReply_coherent
  | false =>
    apply KeepsCoherent.bind (KeepsCoherent.modify fun _ h => h.modClient (by intro; rfl))
    exact fun _ => sendReply_coherent

theorem umountSnapshot_coherent {userRequest : Bool} :
    KeepsCoherent seen held (umountSnapshot env me configName num userRequest) := by
  apply openConfig_coherent.bind
  intro m
  apply getSnapshot_coherent.bind
  intro s
  apply umountFilesystemSnapshot_coherent.bind
  intro _
  cases userRequest with
  | true => exact sendReply_coherent
  | false =>
    apply KeepsCoherent.bind
      (KeepsCoherent.modify fun _ h => h.modClient fun _ => congrArg Desk.name desk_removeMount)
    exact fun _ => sendReply_coherent

theorem findComparison_coherent {num1 num2 : UInt32} :
    KeepsCoherent seen held (findComparison me id num1 num2) := by
  apply KeepsCoherent.bind KeepsCoherent.read
  intro snapper
  apply findSnapshot_coherent.bind
  intro s1
  apply findSnapshot_coherent.bind
  intro s2
  apply KeepsCoherent.bind KeepsCoherent.read
  intro client
  split
  · exact KeepsCoherent.throw
  · exact KeepsCoherent.pure

/-- The comparison is only queued by the worker; its constructor is a step of its own. -/
theorem createComparison_coherent {num1 num2 : UInt32} :
    KeepsCoherent seen held (createComparison env me configName num1 num2) := by
  apply openConfig_coherent.bind
  intro m
  apply KeepsCoherent.bind KeepsCoherent.read
  intro snapper
  apply findSnapshot_coherent.bind
  intro s1
  apply findSnapshot_coherent.bind
  intro s2
  apply KeepsCoherent.bind (KeepsCoherent.modify fun _ h => h.incUseCount)
  exact fun _ => KeepsCoherent.modify fun _ h => h.modClient (by intro; rfl)

theorem deleteComparison_coherent {num1 num2 : UInt32} :
    KeepsCoherent seen held (deleteComparison env me configName num1 num2) := by
  apply openConfig_coherent.bind
  intro m
  apply findComparison_coherent.bind
  intro comparison
  apply KeepsCoherent.bind (KeepsCoherent.modify fun _ h => h.decUseCount)
  intro _
  apply KeepsCoherent.bind (KeepsCoherent.modify fun _ h => h.modClient (by intro; rfl))
  exact fun _ => sendReply_coherent

theorem addTask_coherent {task : Task} : KeepsCoherent seen held (addTask task) := by
  apply KeepsCoherent.bind
  · exact KeepsCoherent.modify fun _ h =>
      h.of_same (h.base.of_same rfl le_rfl h.base.addresses.names) rfl
  · exact fun _ => KeepsCoherent.modify fun _ h => h.incUseCount

/-- A snapshot goes that is not one of those.  Its info is lost first and its entry is erased
last, so that in between the list has a snapshot that is not on disk, which is allowed. -/
theorem deleteSnapshot_coherent {s : Option Snapshot}
    (hnot : ∀ s', s = some s' → ∀ kept, held id kept → kept.core.num ≠ s'.num) :
    KeepsCoherent seen held (deleteSnapshot env id s) := by
  cases s with
  | none => exact KeepsCoherent.throw
  | some s =>
    apply KeepsCoherent.ite KeepsCoherent.throw
    apply call_coherent.bind
    intro _
    apply Spec.bind (Q := fun _ d => d.Coherent seen held ∧
      ∀ m, d.metaSnapper id = some m → ∀ s' ∈ m.disk.infos, s'.num ≠ s.num)
    · apply Spec.modify
      intro d h
      refine ⟨h.loseInfo (hnot s rfl), ?_⟩
      intro m hm s' hs'
      rw [Daemon.loseInfo, Daemon.modDisk, metaSnapper_modMeta (by intro; rfl)] at hm
      obtain ⟨m', hm', rfl⟩ := Option.map_eq_some_iff.mp hm
      simpa using (List.mem_filter.mp hs').2
    · intro _
      apply Spec.bind (Q := fun _ d => d.Coherent seen held ∧
        ∀ m, d.metaSnapper id = some m → ∀ s' ∈ m.disk.infos, s'.num ≠ s.num)
      · rw [call]
        split
        · exact Spec.pure fun _ h => h
        · exact Spec.throw fun _ h => h.1
      · intro _
        apply Spec.modify
        rintro d ⟨h, hinfos⟩
        cases hm : d.metaSnapper id with
        | some m => exact h.erase hm (hinfos m hm)
        | none =>
          -- there is no such config, and nothing changes
          have hsame : (d.erase id s.num (env.stays s.num)).metaSnappers = d.metaSnappers :=
            update_of_not_mem (lookup_eq_none_iff.mp hm)
          exact h.of_same (h.base.of_same hsame le_rfl h.base.addresses.names) hsame

/-- The loop over the numbers: none of them is that of a snapshot that is to stay. -/
theorem deleteAll_coherent {nums : List UInt32}
    (hnot : ∀ kept, held m.id kept → kept.core.num ∉ nums) :
    KeepsCoherent seen held (deleteAll env m nums) := by
  induction nums with
  | nil => exact KeepsCoherent.pure
  | cons num nums ih =>
    apply KeepsCoherent.bind
    · exact KeepsCoherent.read.bind fun _ => KeepsCoherent.throwIf
    intro _
    apply Spec.bind (Q := fun found d => d.Coherent seen held ∧ d.snapshot m.id num = found)
    · exact Spec.read fun _ h => ⟨h, rfl⟩
    intro found
    apply Spec.of_fact (p := ∀ s, found = some s → s.num = num)
    · rintro d ⟨-, hfound⟩ s rfl
      exact key_of_lookup hfound
    intro hnum
    apply Spec.bind (Q := fun _ => Daemon.Coherent seen held)
    -- what is found under a number has this number
    · have hspares : ∀ s, found = some s → ∀ kept, held m.id kept → kept.core.num ≠ s.num := by
        intro s hs kept hkept hsame
        apply hnot kept hkept
        rw [hsame, hnum s hs]
        exact List.mem_cons_self
      exact (deleteSnapshot_coherent hspares).conseq (fun _ h => h.1) (fun _ _ h => h)
        fun _ _ h => h
    · exact fun _ => ih fun kept hkept hmem => hnot kept hkept (List.mem_cons_of_mem num hmem)

/-- What is to stay in the config of a name is not removed by the request. -/
theorem Daemon.Coherent.of_find {request : Request} (h : d.Coherent seen held)
    (hspares : ∀ id kept, held id kept → ¬ request.Removes kept)
    (hfind : d.find configName = some m) :
    ∀ kept, held m.id kept → kept.configName = configName ∧ ¬ request.Removes kept := by
  intro kept hkept
  refine ⟨?_, hspares m.id kept hkept⟩
  obtain ⟨m', hfind', hid, -⟩ := h.held m.id kept hkept
  have hm' := h.base.addresses.metaSnapper_of_find hfind'
  obtain rfl := eq_of_find h.base hfind hm' hid.symm
  exact (configName_of_find hfind').symm.trans (configName_of_find hfind)

/-- `DeleteSnapshots` deletes in the config that it has found under the name, so that what has to
stay there is none of the numbers of the request. -/
theorem deleteSnapshots_coherent {nums : List UInt32}
    (hspares : ∀ id kept, held id kept →
      ¬ (Request.deleteSnapshots configName nums).Removes kept) :
    KeepsCoherent seen held (deleteSnapshots env me configName nums) := by
  apply Spec.bind (Q := fun m d => d.Coherent seen held ∧
    ∀ kept, held m.id kept → kept.core.num ∉ nums)
  · apply Spec.bind (Q := fun m d => d.Coherent seen held ∧ d.find configName = m)
    · exact Spec.read fun _ h => ⟨h, rfl⟩
    intro m
    cases m with
    | none => exact Spec.throw fun _ h => h.1
    | some m =>
      apply Spec.pure
      rintro d ⟨h, hfind⟩
      refine ⟨h, fun kept hkept hmem => ?_⟩
      obtain ⟨hname, hnot⟩ := h.of_find hspares hfind kept hkept
      exact hnot ⟨hname.symm, hmem⟩
  intro m
  apply Spec.of_fact (fun _ h => h.2)
  intro hnot
  -- from here on only the loop over the numbers deletes anything
  have hrest : KeepsCoherent seen held (do
      checkPermission env m
      checkLock me configName
      checkConfigInUse m
      getSnapper env m.id
      deleteAll env m nums
      sendReply me .done
      signal (.snapshotsDeleted configName nums)) := by
    apply checkPermission_coherent.bind
    intro _
    apply KeepsCoherent.bind (KeepsCoherent.read.bind fun _ => KeepsCoherent.throwIf)
    intro _
    apply KeepsCoherent.bind KeepsCoherent.throwIf
    intro _
    apply getSnapper_coherent.bind
    intro _
    apply (deleteAll_coherent hnot).bind
    exact fun _ => sendReply_coherent.bind fun _ => signal_coherent
  exact hrest.conseq (fun _ h => h.1) (fun _ _ h => h) fun _ _ h => h

/-- A config may go when nothing in it has to stay. -/
theorem Daemon.Coherent.removeConfig {terminated : Bool} (h : d.Coherent seen held)
    (hnot : ∀ kept, ¬ held m.id kept) :
    ({ d with metaSnappers := d.metaSnappers.filter (·.id ≠ m.id)
              terminated := terminated } : Daemon).Coherent seen held where
  base := h.base.filter _ _
  coherent m' hm' := h.coherent m' (List.mem_filter.mp hm').1
  legible m' hm' := h.legible m' (List.mem_filter.mp hm').1
  held := by
    intro id kept hkept
    obtain ⟨m', hfind, hid, hdisk⟩ := h.held id kept hkept
    refine ⟨m', lookup_filter hfind ?_, hid, hdisk⟩
    have hne : m'.id ≠ m.id := by
      intro hsame
      rw [hid] at hsame
      subst hsame
      exact hnot kept hkept
    simpa using hne

/-- A config goes with all of its snapshots.  Where the file system fails the infos may be lost
before that, and the config stays. -/
theorem deleteConfig_coherent
    (hspares : ∀ id kept, held id kept → ¬ (Request.deleteConfig configName).Removes kept) :
    KeepsCoherent seen held (deleteConfig env me configName) := by
  apply Spec.bind (Q := fun m d => d.Coherent seen held ∧ ∀ kept, ¬ held m.id kept)
  · apply Spec.bind (Q := fun m d => d.Coherent seen held ∧ d.find configName = m)
    · exact Spec.read fun _ h => ⟨h, rfl⟩
    intro m
    cases m with
    | none => exact Spec.throw fun _ h => h.1
    | some m =>
      apply Spec.pure
      rintro d ⟨h, hfind⟩
      refine ⟨h, fun kept hkept => ?_⟩
      obtain ⟨hname, hnot⟩ := h.of_find hspares hfind kept hkept
      exact hnot hname.symm
  intro m
  apply Spec.of_fact (fun _ h => h.2)
  intro hnot
  -- with the exception the infos are gone and the config is still there
  have hdelete : KeepsCoherent seen held (deleteConfigOf env m) := by
    rw [deleteConfigOf]
    split
    · apply KeepsCoherent.bind _ fun _ => KeepsCoherent.throw
      apply KeepsCoherent.modify
      intro d h
      refine h.modDisk (h.base.filter_infos _) (fun _ s hs => (List.mem_filter.mp hs).1)
        (by intro; rfl) ?_
      intro m' kept hm' hkept _
      exact absurd hkept (hnot kept)
    · exact KeepsCoherent.modify fun _ h => h.removeConfig hnot
  have hrest : KeepsCoherent seen held (do
      checkRoot env
      checkLock me configName
      checkConfigInUse m
      deleteConfigOf env m
      sendReply me .done
      signal (.configDeleted configName)) := by
    apply checkRoot_coherent.bind
    intro _
    apply KeepsCoherent.bind (KeepsCoherent.read.bind fun _ => KeepsCoherent.throwIf)
    intro _
    apply KeepsCoherent.bind KeepsCoherent.throwIf
    intro _
    apply hdelete.bind
    exact fun _ => sendReply_coherent.bind fun _ => signal_coherent
  exact hrest.conseq (fun _ h => h.1) (fun _ _ h => h) fun _ _ h => h

/-- What is found of a new config can be read if it is among what is to be read. -/
theorem createConfig_coherent
    (hreads : ∀ id num, seen id configName num → num ∉ env.createdDisk.unreadable) :
    KeepsCoherent seen held (createConfig env me configName) := by
  -- the checks and the file system come first and change nothing that counts
  apply checkRoot_coherent.bind
  intro _
  apply KeepsCoherent.bind KeepsCoherent.read
  intro known
  apply KeepsCoherent.bind KeepsCoherent.throwIf
  intro _
  apply call_coherent.bind
  intro _
  apply KeepsCoherent.bind (KeepsCoherent.modify ?_)
  · exact fun _ => sendReply_coherent.bind fun _ => signal_coherent
  · intro d h
    -- the new config is not loaded, and behind those there are
    refine ⟨h.base.createConfig, ?_, ?_, ?_⟩
    · intro m hm
      rcases List.mem_append.mp hm with hold | hnew
      · exact h.coherent m hold
      · rw [List.mem_singleton.mp hnew]
        exact coherent_unloaded rfl
    · intro m hm
      rcases List.mem_append.mp hm with hold | hnew
      · exact h.legible m hold
      · rw [List.mem_singleton.mp hnew]
        exact hreads _
    · intro id kept hkept
      obtain ⟨m, hfind, hdisk⟩ := h.held id kept hkept
      exact ⟨m, lookup_append hfind _, hdisk⟩

/-! ## Creation -/

/-- Less may be asked of what stays. -/
theorem Daemon.Coherent.mono {held' : Nat → Deposit → Prop} (h : d.Coherent seen held)
    (hless : ∀ id kept, held' id kept → held id kept) : d.Coherent seen held' :=
  ⟨h.base, h.coherent, h.legible, fun id kept hkept => h.held id kept (hless id kept hkept)⟩

/-- Nothing is asked of what can be read. -/
theorem Daemon.Coherent.unseen (h : d.Coherent seen held) :
    d.Coherent (fun _ _ _ => False) held where
  base := h.base
  coherent m hm := ⟨(h.coherent m hm).same, fun _ _ _ h => h.elim⟩
  legible _ _ _ h := h.elim
  held := h.held

/-- A snapshot more that stays is no less asked of the others. -/
theorem more_mono {kept : Deposit} (h : d.Coherent seen (More held id kept)) :
    d.Coherent seen held :=
  h.mono fun _ _ hkept => Or.inl hkept

/-- The answer with the number of a snapshot that was created and is on disk.  The snapshot is one
of those that have to stay from then on. -/
def Created (seen : Entries) (held : Nat → Deposit → Prop) (env : Env) (me configName : Str)
    (type : SnapshotType)
    (preNum : UInt32) (d : Daemon) : Prop :=
  ∃ num id msgs, d.Coherent seen (More held id ⟨configName, newCore env type preNum num⟩) ∧
    d.sent = msgs ++ [.reply me (.number num), .snapshotCreated configName num]

/-- What comes after the creation keeps the snapshot; where it throws, nothing is promised of it.
-/
theorem KeepsCoherent.created {α : Type} {c : Handler α} {kept : Deposit}
    (h : KeepsCoherent seen (More held id kept) c) :
    Spec (Daemon.Coherent seen (More held id kept)) c (fun _ =>
      Daemon.Coherent seen (More held id kept))
      fun _ => Daemon.Coherent seen held :=
  Spec.conseq h (fun _ h => h) (fun _ _ h => h) fun _ _ h => more_mono h

/-- The two messages at the end of a create request are the reply and the signal. -/
theorem answer_created {type : SnapshotType} {preNum : UInt32} :
    Spec (Daemon.Coherent seen (More held id ⟨configName, newCore env type preNum num⟩))
      (sendReply me (.number num) >>= fun _ => signal (.snapshotCreated configName num))
      (fun _ => Created seen held env me configName type preNum) fun _ =>
        Daemon.Coherent seen held := by
  intro d h
  refine ⟨num, id, d.sent, (h.send _).send _, ?_⟩
  exact List.append_assoc _ _ _

/-- The single and the pre snapshot: its info is on disk when the number is sent, for a creation
whose info cannot be written is an exception. -/
theorem create_created {type : SnapshotType} {description cleanup : Str} {userdata : StrMap} :
    Spec (Daemon.Coherent seen held)
      (do
        let m ← openConfig env configName
        let num ← createSnapshot env m.id type 0 description
        finishCreate env m.id num cleanup userdata
        sendReply me (.number num)
        signal (.snapshotCreated configName num))
      (fun _ => Created seen held env me configName type 0) fun _ => Daemon.Coherent seen held := by
  apply Spec.bind openConfig_serves
  intro m
  apply Spec.bind createSnapshot_coherent
  intro num
  exact Spec.bind finishCreate_coherent.created fun _ => answer_created

/-- The post snapshot, with the number of its pre snapshot.  A comparison of the two may be put
into the queue of the background before the answer. -/
theorem createPost_created {preNum : UInt32} {description cleanup : Str} {userdata : StrMap} :
    Spec (Daemon.Coherent seen held)
      (handleCreatePostSnapshot env me configName preNum description cleanup userdata)
      (fun _ => Created seen held env me configName .POST preNum) fun _ =>
        Daemon.Coherent seen held := by
  apply Spec.bind openConfig_serves
  intro m
  apply Spec.bind (Q := fun pre d => (d.Coherent seen held ∧ d.Serves configName m) ∧
    d.snapshot m.id preNum = pre)
  · exact Spec.read fun _ h => ⟨h, rfl⟩
  intro pre
  apply Spec.bind (Q := fun num =>
    Daemon.Coherent seen (More held m.id ⟨configName, newCore env .POST preNum num⟩))
  · apply Spec.bind (Q := fun _ d => (d.Coherent seen held ∧ d.Serves configName m) ∧
      d.snapshot m.id preNum = pre)
    · exact Spec.read fun _ h => h
    intro snapshots
    cases pre with
    | none => exact Spec.throw fun _ h => h.1.1
    | some pre =>
      -- the iterator points to the snapshot of this number
      apply Spec.of_fact (p := pre.num = preNum) fun _ h => key_of_lookup h.2
      rintro rfl
      apply Spec.ite
      · exact fun _ => Spec.throw fun _ h => h.1.1
      · exact fun _ => createSnapshot_coherent.conseq (fun _ h => h.1) (fun _ _ h => h)
          fun _ _ h => h
  intro num
  apply Spec.bind finishCreate_coherent.created
  intro _
  split
  · exact Spec.bind addTask_coherent.created fun _ => answer_created
  · exact answer_created

/-! ## All of them -/

/-- The handler sets fields of a snapshot that is in the list and writes its file again. -/
theorem setSnapshot_coherent {description cleanup : Str} {userdata : StrMap} :
    KeepsCoherent seen held (setSnapshot env me configName num description cleanup userdata) := by
  apply openConfig_coherent.bind
  intro m
  apply getSnapshot_coherent.bind
  intro s
  apply (setField_coherent setDescription_marks).bind
  intro _
  apply (setField_coherent setCleanup_marks).bind
  intro _
  apply setUserdata_coherent.bind
  intro _
  apply flushInfo_coherent.bind
  exact fun _ => sendReply_coherent.bind fun _ => signal_coherent

/-- A create request keeps what it found, whatever it has created. -/
theorem created_coherent {c : Handler PUnit} {type : SnapshotType} {preNum : UInt32}
    (h : Spec (Daemon.Coherent seen held) c
      (fun _ => Created seen held env me configName type preNum)
      fun _ => Daemon.Coherent seen held) : KeepsCoherent seen held c := by
  refine Spec.conseq h (fun _ h => h) ?_ fun _ _ h => h
  rintro _ d ⟨num, id, msgs, hmore, -⟩
  exact more_mono hmore

/-- Every handler keeps list and disk together, and on disk what it does not delete. -/
theorem handle_coherent {request : Request}
    (hspares : ∀ id kept, held id kept → ¬ request.Removes kept)
    (hreads : ∀ id configName num, seen id configName num → request.Reads env configName num) :
    KeepsCoherent seen held (handle env me request) := by
  -- handler by handler, as the text of each goes
  cases request with
  | listConfigs => exact KeepsCoherent.read.bind fun _ => sendReply_coherent
  | createConfig => exact createConfig_coherent fun id num hseen => hreads id _ num hseen rfl
  | getConfig =>
    exact findConfig_coherent.bind fun _ => checkPermission_coherent.bind fun _ =>
      sendReply_coherent
  | deleteConfig => exact deleteConfig_coherent hspares
  | lockConfig =>
    exact findConfig_coherent.bind fun _ => checkPermission_coherent.bind fun _ =>
      (KeepsCoherent.modify fun _ h => h.modClient (by intro; rfl)).bind fun _ => sendReply_coherent
  | unlockConfig =>
    exact findConfig_coherent.bind fun _ => checkPermission_coherent.bind fun _ =>
      (KeepsCoherent.modify fun _ h => h.modClient (by intro; rfl)).bind fun _ => sendReply_coherent
  | listSnapshots =>
    exact openConfig_coherent.bind fun _ => KeepsCoherent.read.bind fun _ =>
      sendReply_coherent
  | listSnapshotsAtTime =>
    exact openConfig_coherent.bind fun _ => KeepsCoherent.read.bind fun _ =>
      sendReply_coherent
  | getSnapshot =>
    exact openConfig_coherent.bind fun _ => getSnapshot_coherent.bind fun _ =>
      sendReply_coherent
  | setSnapshot => exact setSnapshot_coherent
  | createSingleSnapshot => exact created_coherent create_created
  | createPreSnapshot => exact created_coherent create_created
  | createPostSnapshot => exact created_coherent createPost_created
  | deleteSnapshots => exact deleteSnapshots_coherent hspares
  | mountSnapshot => exact mountSnapshot_coherent
  | umountSnapshot => exact umountSnapshot_coherent
  | getMountPoint =>
    exact openConfig_coherent.bind fun _ => getSnapshot_coherent.bind fun _ =>
      sendReply_coherent
  | createComparison => exact createComparison_coherent
  | deleteComparison => exact deleteComparison_coherent
  | getFiles =>
    exact openConfig_coherent.bind fun _ => findComparison_coherent.bind fun _ =>
      sendReply_coherent
  | debug => exact checkRoot_coherent.bind fun _ => sendReply_coherent

/-- A request with its answer. -/
theorem dispatch_coherent {request : Request} (h : d.Coherent seen held)
    (hspares : ∀ id kept, held id kept → ¬ request.Removes kept)
    (hreads : ∀ id configName num, seen id configName num → request.Reads env configName num) :
    (dispatch env me request d).Coherent seen held := by
  have hend : ((handle env me request).run d).2.Coherent seen held :=
    Spec.final (handle_coherent hspares hreads) h
  rw [dispatch]
  cases hrun : (handle env me request).run d with
  | mk r d' =>
    rw [hrun] at hend
    cases r with
    | ok _ => exact hend
    | error e => exact hend.send _

end Handlers

/-! ## Steps -/

section Steps

variable {seen : Entries} {held : Nat → Deposit → Prop} {env : Env} {name : Str} {id : Nat}
  {d d' : Daemon}
  {making : Making}

/-- A config that is released has its list and its disk. -/
theorem Daemon.Coherent.release (h : d.Coherent seen held) :
    (d.release env id).Coherent seen held := by
  have hdec : (d.modMeta id (MetaSnapper.dec env)).Coherent seen held := by
    refine h.count (by intro; rfl) ?_ (fun _ => rfl) (fun _ => rfl) fun _ => rfl
    exact h.base.release.of_same rfl le_rfl h.base.addresses.names
  exact hdec.of_same h.base.release rfl

theorem Daemon.Coherent.setWorker {worker : Worker} (h : d.Coherent seen held) :
    (d.setWorker name worker).Coherent seen held := h.modClient (by intro; rfl)

/-- A comparison that fails ends with a message. -/
theorem Daemon.Coherent.failed {e : Exception} (h : d.Coherent seen held) :
    (d.failed env name making e).Coherent seen held := h.setWorker.release.send _

/-- A comparison that is finished becomes one of the client. -/
theorem Daemon.Coherent.finished {comparison : Comparison} (h : d.Coherent seen held) :
    (d.finished env name making comparison).Coherent seen held := by
  have hclient : (d.modClient name fun c =>
      { c with comparisons := c.comparisons ++ [comparison], worker := .waiting }).Coherent seen
        held :=
    h.modClient (by intro; rfl)
  exact (hclient.incUseCount.send _).release

/-- The end of the daemon is a mark only; list and disk stay as they are for the restart. -/
theorem Daemon.Coherent.terminate (h : d.Coherent seen held) : d.terminate.Coherent seen held :=
  h.of_same h.base.terminate rfl

/-- The tasks of the background are no matter of lists and disks. -/
theorem Daemon.Coherent.background {background : Background} {tasks : List Task}
    (h : d.Coherent seen held) :
    ({ d with background := background, tasks := tasks } : Daemon).Coherent seen held :=
  h.of_same (h.base.of_same rfl le_rfl h.base.addresses.names) rfl

/-- One snapshot of a comparison, which is mounted or unmounted unless it is the current system.
-/
theorem mountOf_coherent {num : UInt32} {f : Env → Nat → Str → Snapshot → Bool → Handler PUnit}
    (hf : ∀ configName s, KeepsCoherent seen held (f env id configName s false)) :
    KeepsCoherent seen held (mountOf env id num f) := by
  apply KeepsCoherent.ite KeepsCoherent.pure
  apply KeepsCoherent.bind KeepsCoherent.read
  intro m
  apply findSnapshot_coherent.bind
  intro s
  split
  · exact hf _ _
  · exact KeepsCoherent.pure

theorem mountBoth_coherent {num1 num2 : UInt32} :
    KeepsCoherent seen held (mountBoth env id num1 num2) :=
  (mountOf_coherent fun _ _ => mountFilesystemSnapshot_coherent).bind fun _ =>
    mountOf_coherent fun _ _ => mountFilesystemSnapshot_coherent

theorem umountBoth_coherent {num1 num2 : UInt32} :
    KeepsCoherent seen held (umountBoth env id num1 num2) :=
  (mountOf_coherent fun _ _ => umountFilesystemSnapshot_coherent).bind fun _ =>
    mountOf_coherent fun _ _ => umountFilesystemSnapshot_coherent

/-- The mounts of a client that goes, one after the other. -/
theorem umountAll_coherent {l : List (MountKey × UInt32)} :
    KeepsCoherent seen held (umountAll env l) := by
  have htimes : ∀ {id configName num} n,
    KeepsCoherent seen held (umountTimes env id configName num n) := by
    intro id configName num n
    induction n with
    | zero => exact KeepsCoherent.pure
    | succ n ih =>
      exact getSnapshot_coherent.bind fun _ => umountFilesystemSnapshot_coherent.bind fun _ => ih
  induction l with
  | nil => exact KeepsCoherent.pure
  | cons entry rest ih =>
    exact findConfig_coherent.bind fun _ => getSnapper_coherent.bind fun _ =>
      getSnapshot_coherent.bind fun _ => (htimes _).bind fun _ => ih

/-- From what a handler keeps to the state it ends in. -/
theorem KeepsCoherent.of_run {α : Type} {c : Handler α} {r : Except Exception α}
    (hc : KeepsCoherent seen held c) (h : d.Coherent seen held) (hrun : c.run d = (r, d')) :
    d'.Coherent seen held := by
  have hend : (c.run d).2.Coherent seen held := Spec.final hc h
  rwa [hrun] at hend

theorem decAll_coherent {comparisons : List Comparison} (h : d.Coherent seen held) :
    (decAll env comparisons d).Coherent seen held := by
  induction comparisons generalizing d with
  | nil => exact h
  | cons comparison comparisons ih => exact ih h.decUseCount

theorem Daemon.Coherent.receive {request : Request} (h : d.Coherent seen held) :
    (d.receive name request).Coherent seen held := by
  refine h.of_same h.base.receive ?_
  rw [Daemon.receive]
  split <;> rfl

/-- The queue of the worker gets shorter, and the request is served.  What must stay is not
deleted by it, and what must be readable is not made unreadable by it. -/
theorem Daemon.Coherent.work (hrunning : ¬ (d.aborted ∨ d.terminated)) (h : d.Coherent seen held)
    (hspares : ∀ request, d.next name = some request →
      ∀ id kept, held id kept → ¬ request.Removes kept)
    (hreads : ∀ request, d.next name = some request →
      ∀ id configName num, seen id configName num → request.Reads env configName num) :
    (d.work name env).Coherent seen held := by
  have hwork : d.step (.work name env) = d.work name env := by
    rw [Daemon.step.eq_def, if_neg hrunning]
  rw [← hwork]
  cases hnext : d.next name with
  | none =>
    rw [step_work_none hnext]
    exact h
  | some request =>
    have htaken : (d.take name).Coherent seen held := h.modClient (by intro; rfl)
    rw [step_work hnext]
    exact dispatch_coherent htaken (hspares request hnext) (hreads request hnext)

/-- The thread that ends touches no config. -/
theorem Daemon.Coherent.endWorker (h : d.Coherent seen held) :
    (d.endWorker name).Coherent seen held := by
  have hcases : d.endWorker name = d ∨ _ := endWorker_cases
  rcases hcases with hsame | ⟨client, -, -, -, hend⟩
  · rw [hsame]
    exact h
  · rw [hend]
    exact h.modClient (by intro; rfl)

/-- The first part of a comparison mounts and counts only. -/
theorem Daemon.Coherent.mountComparison (h : d.Coherent seen held) :
    (d.mountComparison name env).Coherent seen held := by
  have hcases : d.mountComparison name env = d ∨ _ := mountComparison_cases
  rcases hcases with hsame |
    ⟨making, num1, num2, d₁, -, -, -, -, ⟨hrun, hmount⟩ | ⟨e, hrun, hfail⟩⟩
  · rw [hsame]
    exact h
  · rw [hmount]
    exact (mountBoth_coherent.of_run h hrun).setWorker
  · rw [hfail]
    exact (mountBoth_coherent.of_run h hrun).failed

/-- The last part of a comparison unmounts and counts only. -/
theorem Daemon.Coherent.finishComparison {files : List DBus.SentFile} (h : d.Coherent seen held) :
    (d.finishComparison name env files).Coherent seen held := by
  have hcases : d.finishComparison name env files = d ∨ _ := finishComparison_cases
  rcases hcases with hsame |
    ⟨making, num1, num2, d₁, -, -, -, ⟨hrun, hfinish⟩ | ⟨e, -, hrun, hfail⟩⟩
  · rw [hsame]
    exact h
  · rw [hfinish]
    split at hrun
    · exact (umountBoth_coherent.of_run h hrun).finished
    · subst hrun
      exact h.finished
  · rw [hfail]
    exact (umountBoth_coherent.of_run h hrun).failed

theorem Daemon.Coherent.failComparison {failure : Failure} (h : d.Coherent seen held) :
    (d.failComparison name env failure).Coherent seen held := by
  have hcases : d.failComparison name env failure = d ∨ _ := failComparison_cases
  rcases hcases with hsame | ⟨making, -, ⟨e, hfail⟩ | ⟨-, hend⟩⟩
  · rw [hsame]
    exact h
  · rw [hfail]
    exact h.failed
  · rw [hend]
    exact h.setWorker.release

theorem Daemon.Coherent.startTask (h : d.Coherent seen held) :
    (d.startTask env).Coherent seen held := by
  have hcases : d.startTask env = d ∨ d.startTask env = d.terminate ∨ _ := startTask_cases
  rcases hcases with hsame | hend | ⟨task, rest, -, -, hstart⟩
  · rw [hsame]
    exact h
  · rw [hend]
    exact h.terminate
  · rw [hstart]
    exact Daemon.Coherent.background h.openedAt

/-- The comparisons of the background mount as those of the clients do. -/
theorem Daemon.Coherent.mountTask (h : d.Coherent seen held) :
    (d.mountTask env).Coherent seen held := by
  rw [Daemon.mountTask]
  split
  · next making hbackground =>
    split
    · next num1 num2 hmounted hsnapshots =>
      split
      · next d₁ hrun => exact (mountBoth_coherent.of_run h hrun).background
      · next e d₁ hrun => exact (mountBoth_coherent.of_run h hrun).terminate
    · exact h
  · exact h

/-- The comparisons of the background unmount as those of the clients do. -/
theorem Daemon.Coherent.finishTask (h : d.Coherent seen held) :
    (d.finishTask env).Coherent seen held := by
  rw [Daemon.finishTask]
  split
  · next making hbackground =>
    split
    · next num1 num2 hmounted hsnapshots =>
      split
      · next d₁ hrun =>
        exact Daemon.Coherent.background (umountBoth_coherent.of_run h hrun).release
      · next e d₁ hrun => exact (umountBoth_coherent.of_run h hrun).terminate
    · exact Daemon.Coherent.background h.release
    · exact h.terminate
  · exact h

theorem Daemon.Coherent.popTask (h : d.Coherent seen held) : d.popTask.Coherent seen held := by
  rcases popTask_cases with hsame | ⟨-, hpop⟩
  · rw [hsame]
    exact h
  · rw [hpop]
    exact h.background

/-- A client that goes unmounts and gives back only. -/
theorem Daemon.Coherent.reap (h : d.Coherent seen held) : (d.reap name env).Coherent seen held := by
  have hcases : d.reap name env = d ∨ _ := reap_cases
  rcases hcases with hsame | ⟨client, d₁, -, -, -, ⟨hrun, hreap⟩ | ⟨e, hrun, hend⟩⟩
  · rw [hsame]
    exact h
  · have hbase : (d.reap name env).Base := h.base.reap
    rw [hreap] at hbase ⊢
    exact (umountAll_coherent.of_run (decAll_coherent h) hrun).of_same hbase rfl
  · rw [hend]
    exact (umountAll_coherent.of_run (decAll_coherent h) hrun).terminate

/-- What is pending is written when the config is unloaded.  The list may have what is not on
disk; it is gone after that, and what the disk has is kept. -/
theorem Daemon.Coherent.unload (h : d.Coherent seen held) :
    (d.unload id env).Coherent seen held := by
  have hcases : d.unload id env = d ∨ _ := unload_cases
  have hbase : (d.unload id env).Base := h.base.unload
  rcases hcases with hsame | ⟨m, written, hm, -, hwritten, hend⟩ | ⟨m, hm, -, -, -, hunload⟩
  · rw [hsame]
    exact h
  · -- an exception leaves the list, and some of what is pending is written
    have hmem : ∀ s ∈ written, s ∈ m.snapshots := fun s hs => (hwritten s hs).1
    have hwrites := h.base.writeInfos hm hwritten
    rw [hend]
    refine Daemon.Coherent.terminate (h.modMeta (by intro; rfl) hwrites (by intro; rfl) ?_
      (fun _ => unreadable_writes) ?_)
    · intro m' hm' hcoherent
      obtain rfl := Option.some.inj (hm.symm.trans hm')
      exact (coherent_writes (h.base.of_metaSnapper hm).nodup hmem hcoherent).1
    · intro m' kept hm' _ hkept
      obtain rfl := Option.some.inj (hm.symm.trans hm')
      exact (coherent_writes (h.base.of_metaSnapper hm).nodup hmem
        (h.coherent m (mem_of_metaSnapper hm))).2 _ hkept
  -- all that is pending is written before the list goes
  · rw [hunload] at hbase ⊢
    refine h.modMeta (by intro; rfl) hbase (by intro; rfl) ?_ (fun _ => unreadable_writes) ?_
    · exact fun m' _ _ => coherent_unloaded rfl
    · intro m' kept hm' _ hkept
      obtain rfl := Option.some.inj (hm.symm.trans hm')
      exact (coherent_writes (h.base.of_metaSnapper hm).nodup
        (fun s hs => (List.mem_filter.mp hs).1) (h.coherent m (mem_of_metaSnapper hm))).2 _ hkept

/-- The count of a snapshot is no matter of the disk. -/
theorem raced_marks {userRequest : Bool} {useCount : UInt32} :
    Marks (Snapshot.raced userRequest useCount) := by
  constructor
  · intro s
    rw [Snapshot.raced]
    split <;> rfl
  · intro s h
    rw [Snapshot.raced] at h ⊢
    split at h
    · next hcurrent =>
      rw [if_pos hcurrent]
      exact ⟨h, rfl⟩
    · next hcurrent =>
      rw [if_neg hcurrent]
      exact ⟨h, rfl⟩

/-- Other entries cannot be read, but for those that are to be read.  The infos are still on disk:
they are only passed over by the next load. -/
theorem Daemon.Coherent.spoil {nums : List UInt32} (h : d.Coherent seen held)
    (hreads : ∀ m, d.metaSnapper id = some m → ∀ num, seen m.id m.configName num → num ∉ nums) :
    (d.spoil id nums).Coherent seen held where
  base := h.base.spoil
  coherent := by
    intro m' hm'
    obtain ⟨m, hm, ⟨-, rfl⟩ | ⟨-, rfl⟩⟩ := mem_update hm'
    · exact coherent_lose (h.coherent m hm) fun _ hs => hs
    · exact h.coherent m' hm
  legible := by
    intro m' hm'
    obtain ⟨m, hm, ⟨rfl, rfl⟩ | ⟨-, rfl⟩⟩ := mem_update hm'
    · exact hreads m (h.base.addresses.metaSnapper_of_mem hm)
    · exact h.legible m' hm
  held := by
    intro id' kept hkept
    apply finds_modMeta (h.held id' kept hkept) (by intro; rfl)
    rintro m - rfl ⟨rfl, hdisk⟩
    exact ⟨rfl, hdisk⟩

/-- The step leaves the entry of this number readable. -/
def Action.Reads (configName : Str) (num : UInt32) (d : Daemon) : Action → Prop
  | .work name env => ∀ request, d.next name = some request → request.Reads env configName num
  | .spoil id nums => ∀ m, d.metaSnapper id = some m → m.configName = configName → num ∉ nums
  | _ => True

/-- A step keeps lists and disks together, and on disk what it is not asked to delete.  Only a
request deletes, and what can be read changes only by a new config or by `spoil`. -/
theorem step_coherent {a : Action} (h : d.Coherent seen held)
    (hspares : ∀ name env, a = .work name env → ∀ request, d.next name = some request →
      ∀ id kept, held id kept → ¬ request.Removes kept)
    (hreads : ∀ id configName num, seen id configName num → a.Reads configName num d) :
    (d.step a).Coherent seen held := by
  rw [Daemon.step.eq_def]
  split
  · exact h
  · next hrunning =>
    -- only a request, a reaped client, an unload and the surroundings come to a list or a disk
    cases a with
    | receive name request => exact h.receive
    | disconnect name => exact h.modClient (by intro; rfl)
    | work name env =>
      exact h.work hrunning (hspares name env rfl) fun request hnext id configName num hseen =>
        hreads id configName num hseen request hnext
    | endWorker name => exact h.endWorker
    | mountComparison name env => exact h.mountComparison
    | finishComparison name env files => exact h.finishComparison
    | failComparison name env failure => exact h.failComparison
    | startTask env => exact h.startTask
    | mountTask env => exact h.mountTask
    | finishTask env => exact h.finishTask
    | popTask => exact h.popTask
    | reap name env => exact h.reap
    | unload id env => exact h.unload
    | race id num userRequest useCount => exact h.modSnapshot raced_marks
    | spoil id nums =>
      exact h.spoil fun m hm num hseen => hreads m.id m.configName num hseen m hm rfl

end Steps

end Snapper.Server
