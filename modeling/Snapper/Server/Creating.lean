import Snapper.Server.SetSnapshot
import Snapper.Server.Unheard

/-!
# What a create request tells a listener

`create_single_snapshot` and its two siblings put the snapshot into the list in the middle and
signal it at the end.  An exception in between leaves a snapshot that no listener hears of.

## Main results

* `create_tells`: a create request tells a listener what it did, unless it fails in between.
-/

namespace Snapper.Server

open General Act

/-! ## What a listener is told -/

/-- What is sent makes the numbers before those after, exactly when nothing is done by half.
`half` says what the step has done without telling anybody. -/
def Sends (configName : Str) (half : Prop) (d d' : Daemon) : Prop :=
  ∃ msgs, d'.sent = d.sent ++ msgs ∧
    (listen configName msgs (d.numbers configName) = d'.numbers configName ↔ ¬ half)

/-- So does a handler, and an exception has changed no number unless something is done by half. -/
structure Tells (configName : Str) (half : Prop) (d : Daemon)
    (outcome : Except Exception PUnit × Daemon) : Prop where
  sends : Sends configName half d outcome.2
  keeps : ∀ e, outcome.1 = .error e → ¬ half →
    outcome.2.numbers configName = d.numbers configName

/-- The config of this name is loaded. -/
structure Daemon.Lists (configName : Str) (m : MetaSnapper) (d : Daemon) : Prop where
  base : d.Base
  find : d.find configName = some m
  loaded : m.isLoaded = true

section Tells

variable {configName : Str} {half half' : Prop} {d d' d'' : Daemon} {m : MetaSnapper}
  {id : Nat} {f : MetaSnapper → MetaSnapper} {outcome : Except Exception PUnit × Daemon}

theorem Unheard.sends (h : Unheard configName d d') (hhalf : ¬ half) :
    Sends configName half d d' := by
  obtain ⟨msgs, hsent, hnothing⟩ := h.sent
  refine ⟨msgs, hsent, iff_of_true ?_ hhalf⟩
  rw [hnothing, h.numbers]

/-- What goes unheard before does not matter. -/
theorem Unheard.trans_sends (h : Unheard configName d d') (h' : Sends configName half d' d'') :
    Sends configName half d d'' := by
  obtain ⟨msgs, hsent, hnothing⟩ := h.sent
  obtain ⟨msgs', hsent', hiff⟩ := h'
  refine ⟨msgs ++ msgs', ?_, ?_⟩
  · rw [hsent', hsent, List.append_assoc]
  · rw [listen_append, hnothing, ← h.numbers]
    exact hiff

/-- What goes unheard afterwards does not matter. -/
theorem Sends.trans_unheard (h : Sends configName half d d') (h' : Unheard configName d' d'') :
    Sends configName half d d'' := by
  obtain ⟨msgs, hsent, hiff⟩ := h
  obtain ⟨msgs', hsent', hnothing⟩ := h'.sent
  refine ⟨msgs ++ msgs', ?_, ?_⟩
  · rw [hsent', hsent, List.append_assoc]
  · rw [listen_append, hnothing, h'.numbers]
    exact hiff

/-- A change of the list that nobody hears of. -/
theorem sends_of_silence (hsent : d'.sent = d.sent)
    (hnumbers : d'.numbers configName ≠ d.numbers configName) (hhalf : half) :
    Sends configName half d d' := by
  refine ⟨[], by rw [hsent, List.append_nil], iff_of_false ?_ (not_not_intro hhalf)⟩
  exact fun h => hnumbers h.symm

/-- A handler that goes unheard, with a reply or with an error. -/
theorem Unheard.tells (h : Unheard configName d outcome.2) (hhalf : ¬ half) :
    Tells configName half d outcome := ⟨h.sends hhalf, fun _ _ _ => h.numbers⟩

/-- The request is refused. -/
theorem tells_refused {e : Exception} (hhalf : ¬ half) :
    Tells configName half d (.error e, d) :=
  ⟨Unheard.refl.sends hhalf, fun _ _ _ => rfl⟩

theorem Unheard.trans_tells (h : Unheard configName d d') (h' : Tells configName half d' outcome) :
    Tells configName half d outcome :=
  ⟨h.trans_sends h'.sends, fun e he hhalf => (h'.keeps e he hhalf).trans h.numbers⟩

/-- The same thing may be said to be done by half in other words. -/
theorem Tells.congr (h : Tells configName half d outcome) (hiff : half ↔ half') :
    Tells configName half' d outcome := by
  obtain ⟨msgs, hsent, hmirrors⟩ := h.sends
  refine ⟨⟨msgs, hsent, hmirrors.trans (not_congr hiff)⟩, ?_⟩
  intro e he hhalf
  exact h.keeps e he fun hhalf' => hhalf (hiff.mp hhalf')

/-! ## The list of a loaded config -/

theorem Daemon.Lists.metaSnapper (h : d.Lists configName m) : d.metaSnapper m.id = some m :=
  h.base.addresses.metaSnapper_of_find h.find

/-- The numbers of a loaded config are those in its list. -/
theorem Daemon.Lists.numbers (h : d.Lists configName m) :
    d.numbers configName = (m.snapshots.map Snapshot.num).toFinset := by
  obtain ⟨loaded, hsnapper⟩ := Option.isSome_iff_exists.mp h.loaded
  simp [Daemon.numbers, h.find, MetaSnapper.shown, MetaSnapper.snapshots, hsnapper]

theorem Daemon.Lists.serves (h : d.Lists configName m) : d.Serves configName m :=
  ⟨h.base, m, h.find, rfl, rfl, h.loaded⟩

/-- What is found after a change of the config. -/
theorem find_modMeta_self (hname : ∀ m, (f m).configName = m.configName)
    (hfind : d.find configName = some m) (hid : m.id = id) :
    (d.modMeta id f).find configName = some (f m) := by
  rw [find_modMeta hname, hfind]
  exact congrArg some (if_pos hid)

/-- A change of the config. -/
theorem Daemon.Lists.modMeta (h : d.Lists configName m)
    (hname : ∀ m, (f m).configName = m.configName)
    (hloaded : (f m).isLoaded = true) (hbase : (d.modMeta m.id f).Base) :
    (d.modMeta m.id f).Lists configName (f m) :=
  ⟨hbase, find_modMeta_self hname h.find rfl, hloaded⟩

/-- The opened config lists what it showed, whether it was loaded before or is loaded for this
request. -/
theorem lists_opened {env : Env} (hd : d.Base) (h : Opens env configName d m) :
    ∃ m', (d.opened env m).Lists configName m' ∧ m'.id = m.id ∧ m'.configName = m.configName ∧
      m'.shown = m.shown ∧ m'.snapshots = m.shown ∧ m'.disk = m.disk := by
  have haddress := hd.addresses.metaSnapper_of_find h.find
  obtain ⟨loaded, hopened, hsnapshots⟩ : ∃ loaded, (d.opened env m).metaSnapper m.id = _ ∧ _ :=
    metaSnapper_opened haddress
  have hrun := openConfig_run hd.addresses h
  have hserves : (d.opened env m).Serves configName m := by
    have hthrough : Through Edit Daemon.Base (openConfig env configName)
        fun m d => d.Serves configName m := openConfig_through
    have hpost := (hthrough d hd).2
    rw [hrun] at hpost
    exact hpost m rfl
  obtain ⟨hbase, m', hfind, hid, -, hloaded⟩ := hserves
  have hm' := hbase.addresses.metaSnapper_of_find hfind
  rw [hid, hopened] at hm'
  obtain rfl := Option.some.inj hm'
  exact ⟨_, ⟨hbase, hfind, hloaded⟩, rfl, rfl, hsnapshots, hsnapshots, rfl⟩

/-- Opening a config shows nobody anything new. -/
theorem unheard_opened {env : Env} (hd : d.Base) (hfind : d.find configName = some m) :
    Unheard configName d (d.opened env m) := by
  have hopened : Unheard configName d (d.openedAt env m.id) := unheard_openedAt hd
  rwa [Daemon.openedAt, hd.addresses.metaSnapper_of_find hfind] at hopened

end Tells

/-! ## Creating -/

/-- The number that `nextNumber` takes: the first one without a directory. -/
def freeNumber (snapshots : List Snapshot) (dirs : List UInt32) : Option UInt32 :=
  (candidates ((snapshots.getLast?.map Snapshot.num).getD 0) (dirs.length + 1)).find? (· ∉ dirs)

/-- A snapshot of this number comes into the list: it is the first number without a directory, and
none of the three calls fails. -/
structure Makes (env : Env) (m : MetaSnapper) (num : UInt32) : Prop where
  free : freeNumber m.shown m.disk.dirs = some num
  nonzero : num ≠ 0
  mkdir : env.fault .mkdir = none
  filesystem : env.fault .createFilesystemSnapshot = none
  info : env.fault (.writeInfo num false) = none

/-- What follows in the handler succeeds: the user is found, the userdata have allowed keys and
the info is written once more. -/
structure Finishes (env : Env) (num : UInt32) (userdata : StrMap) : Prop where
  uid : env.fault (.getUnixUserid true) = none
  userdata : validUserdata userdata = true
  info : env.fault (.writeInfo num true) = none

/-- A new number is in the list, and nothing is said of it until the end of the handler. -/
structure Made (configName : Str) (id : Nat) (num : UInt32) (d d' : Daemon) : Prop where
  sent : d'.sent = d.sent
  numbers : d'.numbers configName = Insert.insert num (d.numbers configName)
  fresh : num ∉ d.numbers configName
  lists : ∃ m s, d'.Lists configName m ∧ m.id = id ∧ s ∈ m.snapshots ∧ s.num = num
  nonzero : num ≠ 0

section Creating

variable {env : Env} {me configName : Str} {d d' : Daemon} {m : MetaSnapper} {id : Nat}
  {num : UInt32} {type : SnapshotType} {preNum : UInt32} {description cleanup : Str}
  {userdata : StrMap} {e : Exception}

theorem unheard_dirs (dirs : List UInt32 → List UInt32) :
    Unheard configName d (d.modDisk id fun disk => { disk with dirs := dirs disk.dirs }) := by
  apply unheard_modMeta (by intro; rfl)
  intro m _ _
  cases hsnapper : m.snapper with
  | none => simp [MetaSnapper.shown, hsnapper, Disk.read, Disk.readable]
  | some loaded => simp [MetaSnapper.shown, hsnapper]

/-- What fails on the way to the list has changed directories only, for the list gets the snapshot
in the last branch and that one does not fail. -/
theorem createSnapshot_error (hrun : (createSnapshot env id type preNum description).run d =
    (.error e, d')) : Unheard configName d d' := by
  -- the directory of the next number may be made, which no client sees
  have hnext : Spec (Unheard configName d) (nextNumber env id) (fun _ => Unheard configName d)
      fun _ => Unheard configName d := by
    apply Spec.bind (Q := fun _ => Unheard configName d) (Spec.read fun _ h => h)
    intro snapshots
    apply Spec.bind (Q := fun _ => Unheard configName d) (Spec.read fun _ h => h)
    intro found
    dsimp only
    split
    · exact Spec.throw fun _ h => h
    · apply Spec.bind (Q := fun _ => Unheard configName d)
      · rw [call]
        split
        · exact Spec.pure fun _ h => h
        · exact Spec.throw fun _ h => h
      · intro _
        apply Spec.bind (Q := fun _ => Unheard configName d)
        · exact Spec.modify fun _ h => h.trans (unheard_dirs (· ++ [_]))
        · intro _
          exact Spec.pure fun _ h => h
  have hremove : ∀ num, Spec (Unheard configName d) (removeDir env id num)
      (fun _ => Unheard configName d) fun _ => Unheard configName d := by
    intro num
    exact Spec.modify fun _ h =>
      h.trans (unheard_dirs fun dirs => if env.stays num then dirs else dirs.filter (· ≠ num))
  -- only the last branch lists the snapshot, and that one does not fail
  have hhelper : ∀ s, Spec (Unheard configName d) (createHelper env id s) (fun _ _ => True)
      fun _ => Unheard configName d := by
    intro s
    apply Spec.bind (Q := fun _ => Unheard configName d)
    · exact Spec.throwIf (fun _ _ h => h) fun _ _ h => h
    · intro _
      split
      · apply Spec.bind (hremove s.num)
        intro _
        exact Spec.throw fun _ h => h
      · exact Spec.throw fun _ h => h
      · split
        · apply Spec.bind (Q := fun _ => Unheard configName d)
          · rw [call]
            split
            · exact Spec.pure fun _ h => h
            · exact Spec.throw fun _ h => h
          · intro _
            apply Spec.bind (hremove s.num)
            intro _
            exact Spec.throw fun _ h => h
        · exact Spec.throw fun _ h => h
        · exact Spec.modify fun _ _ => trivial
  have hcreate : Spec (Unheard configName d) (createSnapshot env id type preNum description)
      (fun _ _ => True) fun _ => Unheard configName d := by
    apply Spec.bind hnext
    intro num
    apply Spec.bind (hhelper _)
    intro _
    exact Spec.pure fun _ _ => trivial
  exact hcreate.error Unheard.refl hrun

/-- The state with the new snapshot. -/
def Daemon.made (env : Env) (id : Nat) (type : SnapshotType) (preNum : UInt32) (description : Str)
    (num : UInt32) (d : Daemon) : Daemon :=
  (d.modDisk id fun disk => { disk with dirs := disk.dirs ++ [num] }).insert id
    { Snapshot.new type num env.time with
      preNum := preNum, description := description, infoModified := true }

/-- What `nextNumber` does on any config: it takes the first number without a directory and makes
one, and fails where there is no such number or the directory cannot be made. -/
theorem nextNumber_at (hm : d.metaSnapper id = some m) : (nextNumber env id).run d =
    match freeNumber m.snapshots m.disk.dirs with
    | none => (.error (.fault .IOErrorException), d)
    | some num =>
      match env.fault .mkdir with
      | some fault => (.error (.fault fault), d)
      | none => (.ok num, d.modDisk id fun disk => { disk with dirs := disk.dirs ++ [num] }) := by
  have hlook : (nextNumber env id).run d =
      (match freeNumber (d.snapshots id)
          (((d.metaSnapper id).map fun m => m.disk.dirs).getD []) with
        | none => throw (.fault .IOErrorException)
        | some num => do
          call env .mkdir
          Act.modify (Daemon.modDisk id fun disk => { disk with dirs := disk.dirs ++ [num] })
          pure num : Handler UInt32).run d := rfl
  rw [hlook, snapshots_of_metaSnapper hm, hm]
  show (match freeNumber m.snapshots m.disk.dirs with
    | none => throw (.fault .IOErrorException)
    | some num => do
      call env .mkdir
      Act.modify (Daemon.modDisk id fun disk => { disk with dirs := disk.dirs ++ [num] })
      pure num : Handler UInt32).run d = _
  cases freeNumber m.snapshots m.disk.dirs with
  | none => rfl
  | some num =>
    dsimp only
    -- the number is free in the list and on disk; only `mkdir` can fail now
    cases hmkdir : env.fault .mkdir with
    | none => simp [Act.run_bind, call, hmkdir]
    | some fault => simp [Act.run_bind, call, hmkdir]

/-- The same for a config whose list is in memory. -/
theorem nextNumber_outcome (h : d.Lists configName m) : (nextNumber env m.id).run d =
    match freeNumber m.shown m.disk.dirs with
    | none => (.error (.fault .IOErrorException), d)
    | some num =>
      match env.fault .mkdir with
      | some fault => (.error (.fault fault), d)
      | none => (.ok num, d.modDisk m.id fun disk => { disk with dirs := disk.dirs ++ [num] }) := by
  rw [shown_of_loaded h.loaded]
  exact nextNumber_at h.metaSnapper

/-- Where neither call fails the snapshot is put into the list. -/
theorem createHelper_run {s : Snapshot} (hnonzero : s.num ≠ 0)
    (hfilesystem : env.fault .createFilesystemSnapshot = none)
    (hinfo : env.fault (.writeInfo s.num false) = none) :
    (createHelper env id s).run d = (.ok ⟨⟩, d.insert id s) := by
  have hcurrent : s.isCurrent = false := by simpa [Snapshot.isCurrent] using hnonzero
  simp [createHelper, Act.run_bind, Act.throwIf, hcurrent, hfilesystem, hinfo]

/-- An action that never returns throws. -/
theorem throws_of_spec {c : Handler PUnit}
    (h : Spec (fun _ => True) c (fun _ _ => False) fun _ _ => True) :
    ∃ e d', c.run d = (.error e, d') := by
  have hspec := h d trivial
  cases hrun : c.run d with
  | mk r d' =>
    rw [hrun] at hspec
    cases r with
    | ok _ => exact hspec.elim
    | error e => exact ⟨e, d', rfl⟩

/-- Where one of them fails the helper throws. -/
theorem createHelper_run_not {s : Snapshot}
    (h : ¬ (s.num ≠ 0 ∧ env.fault .createFilesystemSnapshot = none ∧
      env.fault (.writeInfo s.num false) = none)) :
    ∃ e d', (createHelper env id s).run d = (.error e, d') := by
  have hremove : Spec (fun _ => True) (removeDir env id s.num) (fun _ _ => True) fun _ _ => True :=
    Spec.modify fun _ _ => trivial
  apply throws_of_spec
  apply Spec.bind (Q := fun _ _ => s.num ≠ 0)
  · apply Spec.throwIf
    · exact fun _ _ _ => trivial
    · intro hcurrent _ _
      simpa [Snapshot.isCurrent] using hcurrent
  · intro _
    split
    · apply Spec.bind (hremove.conseq (fun _ _ => trivial) (fun _ _ h => h) fun _ _ h => h)
      intro _
      exact Spec.throw fun _ _ => trivial
    · exact Spec.throw fun _ _ => trivial
    · next hfilesystem =>
      split
      · apply Spec.bind (Q := fun _ _ => True)
        · rw [call]
          split
          · exact Spec.pure fun _ _ => trivial
          · exact Spec.throw fun _ _ => trivial
        · intro _
          apply Spec.bind hremove
          intro _
          exact Spec.throw fun _ _ => trivial
      · exact Spec.throw fun _ _ => trivial
      -- all three conditions would hold in the branch that succeeds
      · next hinfo => exact Spec.modify fun _ hnonzero => h ⟨hnonzero, hfilesystem, hinfo⟩

/-- Whether a snapshot is created is seen before: it is exactly when some number fulfils `Makes`.
-/
theorem createSnapshot_outcome (h : d.Lists configName m) :
    (∃ num, Makes env m num ∧ (createSnapshot env m.id type preNum description).run d =
      (.ok num, d.made env m.id type preNum description num)) ∨
    ((∀ num, ¬ Makes env m num) ∧ ∃ e d',
      (createSnapshot env m.id type preNum description).run d = (.error e, d')) := by
  have hnext : (nextNumber env m.id).run d = _ := nextNumber_outcome h
  cases hfree : freeNumber m.shown m.disk.dirs with
  | none =>
    rw [hfree] at hnext
    refine Or.inr ⟨fun num hmakes => ?_, _, _, Act.run_bind_error hnext⟩
    rw [hmakes.free] at hfree
    cases hfree
  | some num =>
    -- there is only one number that the snapshot can get
    have hnum : ∀ num', Makes env m num' → num' = num := by
      intro num' hmakes
      exact Option.some.inj (hmakes.free.symm.trans hfree)
    rw [hfree] at hnext
    dsimp only at hnext
    cases hmkdir : env.fault .mkdir with
    | some fault =>
      rw [hmkdir] at hnext
      refine Or.inr ⟨fun num' hmakes => ?_, _, _, Act.run_bind_error hnext⟩
      rw [hmakes.mkdir] at hmkdir
      cases hmkdir
    | none =>
      rw [hmkdir] at hnext
      rw [createSnapshot, Act.run_bind_ok hnext]
      -- the conditions of `Makes` in the order in which the source meets them
      by_cases hgoes : num ≠ 0 ∧ env.fault .createFilesystemSnapshot = none ∧
          env.fault (.writeInfo num false) = none
      · obtain ⟨hnonzero, hfilesystem, hinfo⟩ := hgoes
        exact Or.inl ⟨num, ⟨hfree, hnonzero, hmkdir, hfilesystem, hinfo⟩,
          Act.run_bind_ok (createHelper_run hnonzero hfilesystem hinfo)⟩
      · obtain ⟨e, d', hrun⟩ : ∃ e d', (createHelper env m.id { Snapshot.new type num env.time with
            preNum := preNum, description := description, infoModified := true }).run _ =
              (.error e, d') := createHelper_run_not hgoes
        refine Or.inr ⟨fun num' hmakes => ?_, e, d', Act.run_bind_error hrun⟩
        obtain rfl := hnum num' hmakes
        exact hgoes ⟨hmakes.nonzero, hmakes.filesystem, hmakes.info⟩

/-- The number that is taken is new to the list, as every snapshot in it has a directory. -/
theorem fresh_of_makes (h : d.Lists configName m) (hmakes : Makes env m num) :
    num ∉ m.snapshots.map Snapshot.num := by
  intro hlisted
  obtain ⟨s, hs, rfl⟩ := List.mem_map.mp hlisted
  have hdir : s.num ∉ m.disk.dirs := by
    have hnot := List.find?_some hmakes.free
    simpa using hnot
  rcases (h.base.numbered m (mem_of_find h.find)).dirs s hs with hzero | hmem
  · exact hmakes.nonzero hzero
  · exact hdir hmem

/-- The new snapshot is at the end of the list. -/
theorem lists_insert {s : Snapshot} (hfind : d.find configName = some m) (hid : m.id = id)
    (hloaded : m.isLoaded = true) (hbase : (d.insert id s).Base) :
    ∃ m' s', (d.insert id s).Lists configName m' ∧ m'.id = id ∧
      m'.snapshots = m.snapshots ++ [s'] ∧ s'.num = s.num := by
  have hfind' : (d.insert id s).find configName = some _ :=
    find_modMeta_self (by intro; rfl) hfind hid
  refine ⟨_, s.flushed, ⟨hbase, hfind', ?_⟩, hid, ?_, rfl⟩
  · have hlist : (m.setSnapshots (· ++ [s.flushed])).isLoaded = true :=
      setSnapshots_isLoaded.trans hloaded
    exact hlist
  · have hlist : (m.setSnapshots (· ++ [s.flushed])).snapshots = m.snapshots ++ [s.flushed] :=
      setSnapshots_snapshots hloaded
    exact hlist

/-- A creation that succeeds adds the number to the list and says nothing yet. -/
theorem made_of_makes (h : d.Lists configName m) (hmakes : Makes env m num)
    (hrun : (createSnapshot env m.id type preNum description).run d =
      (.ok num, d.made env m.id type preNum description num)) :
    Made configName m.id num d (d.made env m.id type preNum description num) := by
  have hcreate : Through Create (Daemon.Serves configName m)
      (createSnapshot env m.id type preNum description)
      fun num d => d.Serves configName m ∧ d.Has m.id num := createSnapshot_through
  have hpost := (hcreate d h.serves).2
  rw [hrun] at hpost
  have hbase := (hpost num rfl).1.1
  have hdirs : (d.modDisk m.id fun disk => { disk with dirs := disk.dirs ++ [num] }).find
      configName = some { m with disk := { m.disk with dirs := m.disk.dirs ++ [num] } } :=
    find_modMeta_self (by intro; rfl) h.find rfl
  -- the info is appended to the list that was shown before
  obtain ⟨m', s, hlists, hid, hlist, hnum⟩ := lists_insert hdirs rfl h.loaded hbase
  have hsnapshots : m'.snapshots = m.snapshots ++ [s] := hlist
  have hnum : s.num = num := hnum
  refine ⟨rfl, ?_, ?_, ⟨m', s, hlists, hid, ?_, hnum⟩, hmakes.nonzero⟩
  · have hnumbers : (d.made env m.id type preNum description num).numbers configName =
        (m'.snapshots.map Snapshot.num).toFinset := hlists.numbers
    have hnums : m'.snapshots.map Snapshot.num = m.snapshots.map Snapshot.num ++ [num] := by
      rw [hsnapshots, List.map_append, ← hnum]
      rfl
    rw [hnumbers, h.numbers, hnums]
    ext n
    simp only [List.mem_toFinset, List.mem_append, List.mem_singleton, Finset.mem_insert]
    exact or_comm
  · rw [h.numbers, List.mem_toFinset]
    exact fresh_of_makes h hmakes
  · rw [hsnapshots]
    exact List.mem_append_right _ List.mem_cons_self

/-- What is on the disk of a loaded config does not change its list. -/
theorem unheard_modDisk {f : Disk → Disk} (h : d.Lists configName m) :
    Unheard configName d (d.modDisk id f) := by
  apply unheard_modMeta (by intro; rfl)
  intro m' hfind _
  obtain rfl := Option.some.inj (h.find.symm.trans hfind)
  obtain ⟨loaded, hsnapper⟩ := Option.isSome_iff_exists.mp h.loaded
  simp [MetaSnapper.shown, hsnapper]

/-- The fields of the new snapshot are set before its info is written again. -/
def setMade (env : Env) (cleanup : Str) (s : Snapshot) : Snapshot :=
  (s.setUid env.uid).setCleanup cleanup

/-- The rest of the handler sets uid and cleanup first and then comes to the userdata. -/
theorem finishCreate_run_uid (huid : env.fault (.getUnixUserid true) = none) (hnonzero : num ≠ 0) :
    (finishCreate env id num cleanup userdata).run d =
      (setUserdata id num userdata >>= fun _ => flushInfo env id num true).run
        (d.modSnapshot id num (setMade env cleanup)) := by
  have hbus : (getUnixUserid env true).run d = (.ok env.uid, d) := by
    simp [getUnixUserid, Act.run_bind, call, huid]
  rw [finishCreate, Act.run_bind_ok hbus, setUid, Act.run_bind_ok (setField_run hnonzero _),
    setCleanup,
    Act.run_bind_ok (setField_run hnonzero _), modSnapshot_modSnapshot (by intro; rfl)]
  rfl

/-- The rest of the handler does not change the list, whether it succeeds or not.  It succeeds
exactly when the user is found, the userdata are valid and the info can be written again. -/
theorem finishCreate_run {s : Snapshot} (h : d.Lists configName m) (hs : s ∈ m.snapshots)
    (hnum : s.num = num) (hnonzero : num ≠ 0) :
    (Finishes env num userdata ∧ ∃ d', (finishCreate env m.id num cleanup userdata).run d =
      (.ok ⟨⟩, d') ∧ Unheard configName d d') ∨
    (¬ Finishes env num userdata ∧ ∃ e d', (finishCreate env m.id num cleanup userdata).run d =
      (.error e, d') ∧ Unheard configName d d') := by
  cases huid : env.fault (.getUnixUserid true) with
  | some fault =>
    refine Or.inr ⟨fun hfinishes => ?_, .fault fault, d, ?_, Unheard.refl⟩
    · rw [hfinishes.uid] at huid
      cases huid
    · simp [finishCreate, getUnixUserid, Act.run_bind, call, huid]
  | none =>
    have hset : Unheard configName d (d.modSnapshot m.id num (setMade env cleanup)) :=
      unheard_modSnapshot (by intro; rfl)
    rw [finishCreate_run_uid huid hnonzero]
    cases hvalid : validUserdata userdata with
    | false =>
      refine Or.inr ⟨fun hfinishes => ?_, .InvalidUserdataException, _, ?_, hset⟩
      · rw [hfinishes.userdata] at hvalid
        cases hvalid
      · apply Act.run_bind_error
        simp [setUserdata, hnonzero, hvalid]
    | true =>
      have huserdata : (setUserdata m.id num userdata).run
          (d.modSnapshot m.id num (setMade env cleanup)) = (.ok ⟨⟩, d.modSnapshot m.id num
            (Snapshot.setUserdata userdata ∘ setMade env cleanup)) := by
        rw [← modSnapshot_modSnapshot (by intro; rfl)]
        simp [setUserdata, hvalid, setField_run hnonzero]
      -- the snapshot that is written is the one that was set
      have hlookup : (d.modSnapshot m.id num
          (Snapshot.setUserdata userdata ∘ setMade env cleanup)).snapshot m.id num =
            some ((setMade env cleanup s).setUserdata userdata) := by
        have hnodup := (h.base.numbered m (mem_of_find h.find)).nodup
        rw [Daemon.snapshot, snapshots_modSnapshot h.metaSnapper,
          lookup_update_self (by intro; rfl),
          snapshots_of_metaSnapper h.metaSnapper, ← hnum, lookup_of_mem hnodup hs]
        rfl
      have hflush : (flushInfo env m.id num true).run _ = _ := flushInfo_run hlookup rfl hnonzero
      have hset' : Unheard configName d (d.modSnapshot m.id num
          (Snapshot.setUserdata userdata ∘ setMade env cleanup)) :=
        unheard_modSnapshot (by intro; rfl)
      rw [Act.run_bind_ok huserdata, hflush]
      cases hinfo : env.fault (.writeInfo num true) with
      | some fault =>
        refine Or.inr ⟨fun hfinishes => ?_, _, _, rfl, hset'⟩
        rw [hfinishes.info] at hinfo
        cases hinfo
      | none =>
        refine Or.inl ⟨⟨huid, hvalid, hinfo⟩, _, rfl, ?_⟩
        have hlists : (d.modSnapshot m.id num
            (Snapshot.setUserdata userdata ∘ setMade env cleanup)).Lists configName _ :=
          h.modMeta (by intro; rfl) (setSnapshots_isLoaded.trans h.loaded)
            (h.base.modSnapshot (by intro; rfl))
        exact (hset'.trans (unheard_modDisk hlists)).trans (unheard_modSnapshot (by intro; rfl))

/-- The action puts a snapshot into the list or changes no number of it; which of them is seen
before. -/
def Creates (env : Env) (configName : Str) (allowed : Prop) (m : MetaSnapper) (c : Handler UInt32)
    (d : Daemon) : Prop :=
  (∃ num, (allowed ∧ Makes env m num) ∧ ∃ d', c.run d = (.ok num, d') ∧
    Made configName m.id num d d') ∨
  ((¬ ∃ num, allowed ∧ Makes env m num) ∧ ∃ e d', c.run d = (.error e, d') ∧
    Unheard configName d d')

/-- The new snapshot comes into the list when a number can be made for it, and else the numbers
stay as they are. -/
theorem createSnapshot_creates {allowed : Prop} (h : d.Lists configName m) (hallowed : allowed) :
    Creates env configName allowed m (createSnapshot env m.id type preNum description) d := by
  have hcases : (∃ num, Makes env m num ∧
      (createSnapshot env m.id type preNum description).run d = _) ∨ _ := createSnapshot_outcome h
  rcases hcases with ⟨num, hmakes, hrun⟩ | ⟨hnot, e, d', hrun⟩
  · exact Or.inl ⟨num, ⟨hallowed, hmakes⟩, _, hrun, made_of_makes h hmakes hrun⟩
  · refine Or.inr ⟨?_, e, d', hrun, createSnapshot_error hrun⟩
    rintro ⟨num, -, hmakes⟩
    exact hnot num hmakes

/-- A post snapshot is for a pre snapshot without one. -/
def AllowsPost (preNum : UInt32) (m : MetaSnapper) : Prop :=
  ∃ pre, lookup Snapshot.num preNum m.shown = some pre ∧ preNum ≠ 0 ∧ pre.type = .PRE ∧
    hasPost m.shown pre = false

/-- The checks of the pre snapshot come before the creation, against the list that is shown. -/
theorem createPostSnapshot_creates (h : d.Lists configName m) :
    Creates env configName (AllowsPost preNum m) m
      (findSnapshot m.id preNum >>= fun pre => createPostSnapshot env m.id description pre) d := by
  have hshown : d.snapshots m.id = m.shown := by
    rw [snapshots_of_metaSnapper h.metaSnapper, ← shown_of_loaded h.loaded]
  have hrun : (findSnapshot m.id preNum >>= fun pre =>
    createPostSnapshot env m.id description pre).run d =
      (createPostSnapshot env m.id description (lookup Snapshot.num preNum m.shown)).run d := by
    rw [← hshown]
    rfl
  cases hpre : lookup Snapshot.num preNum m.shown with
  | none =>
    refine Or.inr ⟨?_, .IllegalSnapshotException, d, ?_, Unheard.refl⟩
    · rintro ⟨num, ⟨pre, hfound, -⟩, -⟩
      rw [hpre] at hfound
      cases hfound
    · rw [hrun, hpre]
      rfl
  | some pre =>
    have hnum : pre.num = preNum := key_of_lookup hpre
    -- the guards of `createPostSnapshot` are the negations of what `AllowsPost` asks
    by_cases hrefused : pre.isCurrent = true ∨ pre.type ≠ .PRE ∨ hasPost m.shown pre = true
    · refine Or.inr ⟨?_, .IllegalSnapshotException, d, ?_, Unheard.refl⟩
      · rintro ⟨num, ⟨pre', hfound, hnonzero, htype, hpost⟩, -⟩
        obtain rfl := Option.some.inj (hpre.symm.trans hfound)
        rcases hrefused with hcurrent | hother | hhas
        · exact hnonzero (hnum ▸ by simpa [Snapshot.isCurrent] using hcurrent)
        · exact hother htype
        · rw [hpost] at hhas
          cases hhas
      · rw [hrun, hpre]
        simp [createPostSnapshot, Act.run_bind, hshown, hrefused]
    · obtain ⟨hcurrent, htype, hpost⟩ : pre.isCurrent = false ∧ pre.type = .PRE ∧
          hasPost m.shown pre = false := by simpa using hrefused
      have hallowed : AllowsPost preNum m := by
        refine ⟨pre, hpre, ?_, htype, hpost⟩
        rw [← hnum]
        simpa [Snapshot.isCurrent] using hcurrent
      have hrun' : (findSnapshot m.id preNum >>= fun pre =>
          createPostSnapshot env m.id description pre).run d =
            (createSnapshot env m.id .POST pre.num description).run d := by
        rw [hrun, hpre]
        simp [createPostSnapshot, Act.run_bind, hshown, hcurrent, htype, hpost]
      rw [Creates, hrun']
      exact createSnapshot_creates h hallowed

/-- What comes after the new snapshot is finished: an answer and the signal. -/
def Signals (configName : Str) (num : UInt32) (tail : Handler PUnit) : Prop :=
  ∀ d, ∃ d' msgs, tail.run d = (.ok ⟨⟩, d') ∧ d'.sent = d.sent ++ msgs ∧
    d'.numbers configName = d.numbers configName ∧
    ∀ numbers, listen configName msgs numbers = Insert.insert num numbers

/-- After the creation the listener is behind by one number, which the signal at the end tells;
without the signal it stays behind. -/
theorem finish_tells {tail : Handler PUnit} (hmade : Made configName id num d d')
    (htail : Signals configName num tail) :
    Tells configName (¬ Finishes env num userdata) d
      ((finishCreate env id num cleanup userdata >>= fun _ => tail).run d') := by
  obtain ⟨m, s, hlists, rfl, hs, hnum⟩ := hmade.lists
  have hcases : (Finishes env num userdata ∧ ∃ d₁,
      (finishCreate env m.id num cleanup userdata).run d' = (.ok ⟨⟩, d₁) ∧ _) ∨ _ :=
    finishCreate_run hlists hs hnum hmade.nonzero
  -- either everything up to the signal goes well, or an error stops it
  rcases hcases with ⟨hfinishes, d₁, hrun, hunheard⟩ | ⟨hnot, e, d₁, hrun, hunheard⟩
  · rw [Act.run_bind_ok hrun]
    obtain ⟨d₂, msgs, hrun', hsent, hnumbers, hlisten⟩ := htail d₁
    obtain ⟨msgs', hsent', hnothing⟩ := hunheard.sent
    rw [hrun']
    refine ⟨⟨msgs' ++ msgs, ?_, iff_of_true ?_ (not_not_intro hfinishes)⟩, fun e he => nomatch he⟩
    · rw [hsent, hsent', hmade.sent, List.append_assoc]
    · rw [listen_append, hnothing, hlisten, hnumbers, hunheard.numbers, hmade.numbers]
  · rw [Act.run_bind_error hrun]
    refine ⟨?_, fun _ _ hhalf => absurd hnot hhalf⟩
    apply Sends.trans_unheard _ hunheard
    apply sends_of_silence hmade.sent _ hnot
    rw [hmade.numbers]
    intro hsame
    exact hmade.fresh (hsame ▸ Finset.mem_insert_self num _)

/-- The request puts a snapshot into the list and fails afterwards. -/
def HalfCreates (env : Env) (configName : Str) (allowed : MetaSnapper → Prop) (userdata : StrMap)
    (d : Daemon) : Prop :=
  ∃ m num, Opens env configName d m ∧ allowed m ∧ Makes env m num ∧ ¬ Finishes env num userdata

/-- The numbers and the directories decide which number is made. -/
theorem makes_congr {m' : MetaSnapper} (hshown : m'.shown = m.shown) (hdisk : m'.disk = m.disk) :
    Makes env m' num ↔ Makes env m num := by
  constructor
  · intro h
    exact ⟨hshown ▸ hdisk ▸ h.free, h.nonzero, h.mkdir, h.filesystem, h.info⟩
  · intro h
    exact ⟨hshown.symm ▸ hdisk.symm ▸ h.free, h.nonzero, h.mkdir, h.filesystem, h.info⟩

/-- A handler that opens the config, creates a snapshot, finishes it and signals. -/
theorem create_tells {allowed : MetaSnapper → Prop} (create : Nat → Handler UInt32)
    (tail : MetaSnapper → UInt32 → Handler PUnit) (hd : d.Base)
    (hallowed : ∀ m m', m'.shown = m.shown → (allowed m' ↔ allowed m))
    (hcreate : ∀ m d, d.Lists configName m → Creates env configName (allowed m) m (create m.id) d)
    (htail : ∀ m num, Signals configName num (tail m num)) :
    Tells configName (HalfCreates env configName allowed userdata d) d
      ((do
        let m ← openConfig env configName
        let num ← create m.id
        finishCreate env m.id num cleanup userdata
        tail m num : Handler PUnit).run d) := by
  by_cases hopen : ∃ m, Opens env configName d m
  · obtain ⟨m, hopens⟩ := hopen
    have hunique : ∀ m', Opens env configName d m' → m' = m := by
      intro m' hopens'
      exact Option.some.inj (hopens'.find.symm.trans hopens.find)
    obtain ⟨m', hlists, hid, -, hshown, -, hdisk⟩ := lists_opened hd hopens
    -- opening the config may load it, and this sends nothing
    have hopened : Unheard configName d (d.opened env m) := unheard_opened hd hopens.find
    rw [Act.run_bind_ok (openConfig_run hd.addresses hopens)]
    apply hopened.trans_tells
    rcases hcreate m' _ hlists with ⟨num, ⟨hallow, hmakes⟩, d', hrun, hmade⟩ |
      ⟨hnot, e, d', hrun, hunheard⟩
    -- made: what is left is the edit of the cleanup and userdata, which may fail
    · rw [hid] at hrun hmade
      rw [Act.run_bind_ok hrun]
      apply (finish_tells hmade (htail m num)).congr
      constructor
      · intro hnot
        exact ⟨m, num, hopens, (hallowed m m' hshown).mp hallow,
          (makes_congr hshown hdisk).mp hmakes,
          hnot⟩
      · rintro ⟨m₁, num₁, hopens₁, -, hmakes₁, hnot⟩
        obtain rfl := hunique m₁ hopens₁
        have hfree := ((makes_congr hshown hdisk).mp hmakes).free
        obtain rfl := Option.some.inj (hmakes₁.free.symm.trans hfree)
        exact hnot
    · rw [hid] at hrun
      -- refused: nobody hears of it
      rw [Act.run_bind_error hrun]
      apply hunheard.tells
      rintro ⟨m₁, num, hopens₁, hallow, hmakes, -⟩
      obtain rfl := hunique m₁ hopens₁
      exact hnot ⟨num, (hallowed m₁ m' hshown).mpr hallow, (makes_congr hshown hdisk).mpr hmakes⟩
  · have hno : ∀ m, ¬ Opens env configName d m := fun m hm => hopen ⟨m, hm⟩
    obtain ⟨e, hrun⟩ := openConfig_run_not hd.addresses hno
    rw [Act.run_bind_error hrun]
    apply tells_refused
    rintro ⟨m, num, hopens, -⟩
    exact hno m hopens

/-- The answer and the signal follow the creation; a listener learns the number from the signal.
-/
theorem reply_signals :
    Signals configName num (sendReply me (.number num) >>= fun _ =>
      signal (.snapshotCreated configName num)) := by
  intro d
  refine ⟨_, [.reply me (.number num), .snapshotCreated configName num], rfl, ?_, rfl, ?_⟩
  · show (d.sent ++ [_]) ++ [_] = _
    rw [List.append_assoc]
    rfl
  · intro numbers
    exact if_pos rfl

/-- A task for the background is not heard. -/
theorem task_signals {task : Task} {tail : Handler PUnit} {b : Bool}
    (htail : Signals configName num tail) :
    Signals configName num (if b then addTask task >>= fun _ => tail else tail) := by
  intro d
  cases b with
  | false => exact htail d
  | true =>
    have hrun : (if true then addTask task >>= fun _ => tail else tail).run d =
        tail.run (incUseCount task.metaSnapper { d with tasks := d.tasks ++ [task] }) := rfl
    obtain ⟨d', msgs, hrun', hsent, hnumbers, hlisten⟩ :=
      htail (incUseCount task.metaSnapper { d with tasks := d.tasks ++ [task] })
    have hcounted : Unheard configName { d with tasks := d.tasks ++ [task] }
        (incUseCount task.metaSnapper { d with tasks := d.tasks ++ [task] }) := unheard_incUseCount
    refine ⟨d', msgs, hrun.trans hrun', hsent, ?_, hlisten⟩
    rw [hnumbers, hcounted.numbers]
    rfl

theorem handleCreateSingleSnapshot_tells (hd : d.Base) :
    Tells configName (HalfCreates env configName (fun _ => True) userdata d) d
      ((handleCreateSingleSnapshot env me configName description cleanup userdata).run d) :=
  create_tells (fun id => createSingleSnapshot env id description)
    (fun _ num => sendReply me (.number num) >>= fun _ =>
      signal (.snapshotCreated configName num)) hd
    (fun _ _ _ => Iff.rfl) (fun _ _ h => createSnapshot_creates h trivial) fun _ _ => reply_signals

theorem handleCreatePreSnapshot_tells (hd : d.Base) :
    Tells configName (HalfCreates env configName (fun _ => True) userdata d) d
      ((handleCreatePreSnapshot env me configName description cleanup userdata).run d) :=
  create_tells (fun id => createPreSnapshot env id description)
    (fun _ num => sendReply me (.number num) >>= fun _ =>
      signal (.snapshotCreated configName num)) hd
    (fun _ _ _ => Iff.rfl) (fun _ _ h => createSnapshot_creates h trivial) fun _ _ => reply_signals

/-- The handler for post snapshots is of the same form as the other two, but for the task at its
end. -/
theorem handleCreatePostSnapshot_tells (hd : d.Base) :
    Tells configName (HalfCreates env configName (AllowsPost preNum) userdata d) d
      ((handleCreatePostSnapshot env me configName preNum description cleanup userdata).run d) := by
  have hallowed : ∀ m m' : MetaSnapper, m'.shown = m.shown →
      (AllowsPost preNum m' ↔ AllowsPost preNum m) := by
    intro m m' hshown
    rw [AllowsPost, AllowsPost, hshown]
  let create : Nat → Handler UInt32 := fun id =>
    findSnapshot id preNum >>= fun pre => createPostSnapshot env id description pre
  let tail : MetaSnapper → UInt32 → Handler PUnit := fun m num =>
    let answer := sendReply me (.number num) >>= fun _ => signal (.snapshotCreated configName num)
    if wantsComparison m then addTask ⟨m.id, preNum, num⟩ >>= fun _ => answer else answer
  have hsame : handleCreatePostSnapshot env me configName preNum description cleanup userdata =
      (openConfig env configName >>= fun m => create m.id >>= fun num =>
        finishCreate env m.id num cleanup userdata >>= fun _ => tail m num) := by
    simp only [create, bind_bind]
    rfl
  rw [hsame]
  exact create_tells create tail hd hallowed (fun _ _ h => createPostSnapshot_creates h)
    fun _ _ => task_signals reply_signals

end Creating

end Snapper.Server
