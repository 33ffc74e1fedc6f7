import Snapper.Server.Access

/-!
# Changing a snapshot

`Client::set_snapshot` sets the description and the cleanup algorithm before it checks the
userdata, and all three before it writes the info.  An exception of the last two steps leaves
what was set, with `info_modified` for a later write.
-/

namespace Snapper.Server

open General

section SetSnapshot

variable {env : Env} {me : Str} {d : Daemon} {configName description cleanup : Str}
  {num : UInt32} {userdata : StrMap} {m : MetaSnapper} {id : Nat}

/-- The snapshot once the description and the cleanup algorithm are set. -/
def setTexts (description cleanup : Str) (s : Snapshot) : Snapshot :=
  (s.setDescription description).setCleanup cleanup

/-- The request comes to a snapshot, changes it and then fails: at the check of the userdata,
or when the info is written. -/
def HalfSets (env : Env) (configName : Str) (num : UInt32) (description cleanup : Str)
    (userdata : StrMap) (d : Daemon) : Prop :=
  ∃ m, Opens env configName d m ∧ num ≠ 0 ∧ ∃ s ∈ m.shown, s.num = num ∧
    ((validUserdata userdata = false ∧ setTexts description cleanup s ≠ s) ∨
      (validUserdata userdata = true ∧ (env.fault (.writeInfo num true)).isSome ∧
        (setTexts description cleanup s).setUserdata userdata ≠ s))

theorem setField_run (h : num ≠ 0) (f : Snapshot → Snapshot) :
    (setField id num f).run d = (.ok ⟨⟩, d.modSnapshot id num f) := by
  simp [setField, h]

theorem setField_run_current (f : Snapshot → Snapshot) :
    (setField id 0 f).run d = (.error .IllegalSnapshotException, d) := by
  simp [setField]

/-- Two changes in a row. -/
theorem modSnapshot_modSnapshot {f g : Snapshot → Snapshot} (hf : ∀ s, (f s).num = s.num) :
    (d.modSnapshot id num f).modSnapshot id num g = d.modSnapshot id num (g ∘ f) := by
  rw [Daemon.modSnapshot, Daemon.modSnapshot, Daemon.modSnapshot, Daemon.modMeta, Daemon.modMeta,
    Daemon.modMeta]
  congr 1
  show update MetaSnapper.id id _ (update MetaSnapper.id id _ _) = _
  rw [update_update (by intro; rfl)]
  congr 1
  funext m
  show MetaSnapper.setSnapshots _ (MetaSnapper.setSnapshots _ m) = _
  cases hsnapper : m.snapper with
  | none => simp [MetaSnapper.setSnapshots, hsnapper]
  | some loaded => simp [MetaSnapper.setSnapshots, hsnapper, update_update hf]

/-- The rest of the handler, from the setters on. -/
def setFields (env : Env) (me configName : Str) (id : Nat) (num : UInt32)
    (description cleanup : Str) (userdata : StrMap) : Handler PUnit := do
  setDescription id num description
  setCleanup id num cleanup
  setUserdata id num userdata
  flushInfo env id num true
  sendReply me .done
  signal (.snapshotModified configName num)

/-- Bad userdata: the texts are set. -/
theorem setFields_run_invalid (hnum : num ≠ 0) (hvalid : validUserdata userdata = false) :
    (setFields env me configName id num description cleanup userdata).run d =
      (.error .InvalidUserdataException, d.modSnapshot id num (setTexts description cleanup)) := by
  have huserdata : ∀ d : Daemon, (setUserdata id num userdata).run d =
      (.error .InvalidUserdataException, d) := by
    intro d
    simp [setUserdata, hnum, hvalid]
  rw [setFields, setDescription, Act.run_bind_ok (setField_run hnum _), setCleanup,
    Act.run_bind_ok (setField_run hnum _), modSnapshot_modSnapshot (by intro; rfl),
    Act.run_bind_error (huserdata _)]
  rfl

/-- Good userdata: everything is set when the info is to be written. -/
theorem setFields_run_valid (hnum : num ≠ 0) (hvalid : validUserdata userdata = true) :
    (setFields env me configName id num description cleanup userdata).run d =
      (flushInfo env id num true >>= fun _ => do
        sendReply me .done
        signal (.snapshotModified configName num)).run
        (d.modSnapshot id num fun s => (setTexts description cleanup s).setUserdata userdata) := by
  have huserdata : ∀ d : Daemon, (setUserdata id num userdata).run d =
      (.ok ⟨⟩, d.modSnapshot id num (Snapshot.setUserdata userdata)) := by
    intro d
    simp [setUserdata, hvalid, setField_run hnum]
  rw [setFields, setDescription, Act.run_bind_ok (setField_run hnum _), setCleanup,
    Act.run_bind_ok (setField_run hnum _), modSnapshot_modSnapshot (by intro; rfl),
    Act.run_bind_ok (huserdata _), modSnapshot_modSnapshot (by intro; rfl)]
  rfl

/-- Writing a snapshot that is marked as modified. -/
theorem flushInfo_run {s : Snapshot} {again : Bool} (hs : d.snapshot id num = some s)
    (hmodified : s.infoModified = true) (hnum : num ≠ 0) :
    (flushInfo env id num again).run d =
      match env.fault (.writeInfo num again) with
      | some fault => (.error (.fault fault), d)
      | none => (.ok ⟨⟩, (d.modDisk id (Disk.write s)).modSnapshot id num Snapshot.flushed) := by
  have hcurrent : s.isCurrent = false := by
    simpa [Snapshot.isCurrent, key_of_lookup hs] using hnum
  cases hfault : env.fault (.writeInfo num again) with
  | some fault =>
    simp [flushInfo, findSnapshot, Act.run_bind, hs, hmodified, hcurrent, Act.throwIf, call, hfault]
  | none =>
    simp [flushInfo, findSnapshot, Act.run_bind, hs, hmodified, hcurrent, Act.throwIf, call, hfault]

/-- What is shown after a change of the snapshots of a number. -/
theorem shown_eq_iff {f : Snapshot → Snapshot} {loaded : Loaded}
    (hm : d.metaSnapper id = some m) (hloaded : m.snapper = some loaded) :
    (∀ id', (d.modSnapshot id num f).shown id' = d.shown id') ↔
      ∀ s ∈ d.shown id, s.num = num → f s = s := by
  rw [← update_eq_self_iff, ← shown_modSnapshot hm hloaded]
  constructor
  · intro h
    exact h id
  · intro h id'
    by_cases hid : id' = id
    · rw [hid, h]
    · exact shown_modSnapshot_other hid

/-- An error after a change of the snapshots of a number. -/
theorem answered_eq_iff {f : Snapshot → Snapshot} {loaded : Loaded} {e₀ : Exc}
    (hm : d.metaSnapper id = some m) (hloaded : m.snapper = some loaded) :
    (∀ e d', ((.error e₀ : Except Exc Unit), d.modSnapshot id num f) = (.error e, d') →
        ∀ id', d'.shown id' = d.shown id') ↔
      ¬∃ s ∈ d.shown id, s.num = num ∧ f s ≠ s := by
  have hiff : (∀ id', (d.modSnapshot id num f).shown id' = d.shown id') ↔ _ :=
    shown_eq_iff hm hloaded
  simp only [Prod.mk.injEq, and_imp]
  constructor
  · rintro h ⟨s, hs, hsnum, hchange⟩
    exact hchange (hiff.mp (h _ _ rfl rfl) s hs hsnum)
  · rintro h e d' - rfl
    refine hiff.mpr fun s hs hsnum => ?_
    by_contra hchange
    exact h ⟨s, hs, hsnum, hchange⟩

/-- The setters, on a snapshot that exists. -/
private theorem setFields_all_or_nothing_iff {s : Snapshot} {loaded : Loaded}
    (hm : d.metaSnapper id = some m) (hloaded : m.snapper = some loaded)
    (hs : d.snapshot id num = some s) :
    (∀ e d', (setFields env me configName id num description cleanup userdata).run d =
        (.error e, d') → ∀ id', d'.shown id' = d.shown id') ↔
      ¬ (num ≠ 0 ∧ ∃ s ∈ d.shown id, s.num = num ∧
        ((validUserdata userdata = false ∧ setTexts description cleanup s ≠ s) ∨
          (validUserdata userdata = true ∧ (env.fault (.writeInfo num true)).isSome ∧
            (setTexts description cleanup s).setUserdata userdata ≠ s))) := by
  by_cases hnum : num = 0
  · -- the current snapshot has no setters
    have hrun : (setFields env me configName id num description cleanup userdata).run d =
        (.error .IllegalSnapshotException, d) := by
      rw [hnum]
      exact Act.run_bind_error (setField_run_current _)
    refine iff_of_true ?_ (fun h => h.1 hnum)
    intro e d' h
    rw [hrun] at h
    cases h
    exact fun _ => rfl
  · cases hvalid : validUserdata userdata with
    | false =>
      have hrun : (setFields env me configName id num description cleanup userdata).run d = _ :=
        setFields_run_invalid hnum hvalid
      rw [hrun, answered_eq_iff hm hloaded]
      simp [hnum]
    | true =>
      have hrun : (setFields env me configName id num description cleanup userdata).run d = _ :=
        setFields_run_valid hnum hvalid
      -- the snapshot that is written is the one that was set
      have hset : (d.modSnapshot id num fun s =>
          (setTexts description cleanup s).setUserdata userdata).snapshot id num =
            some ((setTexts description cleanup s).setUserdata userdata) := by
        rw [Daemon.snapshot, snapshots_modSnapshot hm, lookup_update_self (by intro; rfl)]
        rw [Daemon.snapshot] at hs
        rw [hs]
        rfl
      have hflush : (flushInfo env id num true).run _ = _ := flushInfo_run hset rfl hnum
      cases hfault : env.fault (.writeInfo num true) with
      | none =>
        rw [hfault] at hflush
        rw [Act.run_bind_ok hflush] at hrun
        refine iff_of_true ?_ ?_
        · intro e d' h
          rw [hrun] at h
          cases h
        · rintro ⟨-, s, -, -, hchange⟩
          simp at hchange
      | some fault =>
        rw [hfault] at hflush
        rw [Act.run_bind_error hflush] at hrun
        rw [hrun, answered_eq_iff hm hloaded]
        simp [hnum]

/-- A request that is answered with an error changes nothing that is shown, exactly when it
does not change a snapshot before it fails. -/
theorem setSnapshot_all_or_nothing_iff (hd : d.Addresses) :
    (∀ e d', (setSnapshot env me configName num description cleanup userdata).run d =
        (.error e, d') → ∀ id, d'.shown id = d.shown id) ↔
      ¬ HalfSets env configName num description cleanup userdata d := by
  by_cases hopen : ∃ m, Opens env configName d m
  · obtain ⟨m, hm⟩ := hopen
    have hunique : ∀ m', Opens env configName d m' → m' = m := by
      intro m' hm'
      exact Option.some.inj (hm'.find.symm.trans hm.find)
    have haddress := hd.metaSnapper_of_find hm.find
    obtain ⟨loaded, hopened, hsnapshots⟩ : ∃ loaded, (d.opened env m).metaSnapper m.id = _ ∧ _ :=
      metaSnapper_opened haddress
    have hlist : (d.opened env m).snapshots m.id = m.shown := by
      rw [snapshots_of_metaSnapper hopened, ← hsnapshots]
      rfl
    have hshown : ∀ id, (d.opened env m).shown id = d.shown id := fun id => shown_opened haddress
    have hshownm : (d.opened env m).shown m.id = m.shown := by
      rw [shown_eq_snapshots hopened rfl, hlist]
    cases hs : lookup Snapshot.num num m.shown with
    | none =>
      -- there is no such snapshot
      have hrun : (setSnapshot env me configName num description cleanup userdata).run d =
          (.error .IllegalSnapshotException, d.opened env m) := by
        rw [setSnapshot, Act.run_bind_ok (openConfig_run hd hm), Act.run_bind_error]
        simp [getSnapshot, findSnapshot, Act.run_bind, Daemon.snapshot, hlist, hs]
      refine iff_of_true ?_ ?_
      · intro e d' hrun' id
        rw [hrun] at hrun'
        cases hrun'
        exact hshown id
      · rintro ⟨m', hm', -, s, hmem, hnum, -⟩
        rw [hunique m' hm'] at hmem
        exact lookup_eq_none_iff.mp hs s hmem hnum
    | some s =>
      have hrest : (setSnapshot env me configName num description cleanup userdata).run d =
          (setFields env me configName m.id num description cleanup userdata).run
            (d.opened env m) := by
        have hget : (getSnapshot m.id num).run (d.opened env m) = (.ok s, d.opened env m) := by
          simp [getSnapshot, findSnapshot, Act.run_bind, Daemon.snapshot, hlist, hs]
        rw [setSnapshot, Act.run_bind_ok (openConfig_run hd hm), Act.run_bind_ok hget,
          key_of_lookup hs]
        rfl
      have hsnapshot : (d.opened env m).snapshot m.id num = some s := by
        rw [Daemon.snapshot, hlist]
        exact hs
      have hsetters : (∀ e d', (setFields env me configName m.id num description cleanup
          userdata).run (d.opened env m) = (.error e, d') → _) ↔ _ :=
        setFields_all_or_nothing_iff hopened rfl hsnapshot
      simp only [hrest, hshown] at hsetters ⊢
      rw [hsetters]
      have hshownm' : d.shown m.id = m.shown := by rw [← hshown, hshownm]
      rw [hshownm']
      constructor
      · rintro h ⟨m', hm', hhalf⟩
        rw [hunique m' hm'] at hhalf
        exact h hhalf
      · rintro h hhalf
        exact h ⟨m, hm, hhalf⟩
  · -- the request is refused before it comes to a snapshot
    have hno : ∀ m, ¬ Opens env configName d m := fun m hm => hopen ⟨m, hm⟩
    obtain ⟨e, hrun⟩ := openConfig_run_not hd hno
    have hrun' : (setSnapshot env me configName num description cleanup userdata).run d =
        (.error e, d) := Act.run_bind_error hrun
    refine iff_of_true ?_ ?_
    · intro e' d' h
      rw [hrun'] at h
      cases h
      exact fun _ => rfl
    · rintro ⟨m, hm, -⟩
      exact hno m hm

end SetSnapshot

/-- Userdata with a separator in a key. -/
def badUserdata : StrMap := SortedMap.empty.set (str "a=b") []

/-- The request sets description and userdata of the one snapshot, and the key of the userdata has
a separator in it. -/
theorem setSnapshot_all_or_nothing_root :
    (∀ e d', (setSnapshot Env.quiet (str "client") (str "root") 1 (str "new") [] badUserdata).run
        Daemon.rootOnly = (.error e, d') → ∀ id, d'.shown id = Daemon.rootOnly.shown id) ↔
      ¬ HalfSets Env.quiet (str "root") 1 (str "new") [] badUserdata Daemon.rootOnly :=
  setSnapshot_all_or_nothing_iff rootOnly_addresses

/-- The userdata is refused, and the description is changed. -/
theorem setSnapshot_half : ∃ e d',
    (setSnapshot Env.quiet (str "client") (str "root") 1 (str "new") [] badUserdata).run
        Daemon.rootOnly = (.error e, d') ∧
      d'.shown 0 ≠ Daemon.rootOnly.shown 0 :=
  ⟨_, _, rfl, by decide⟩

end Snapper.Server
