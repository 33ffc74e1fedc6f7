import Mathlib.Algebra.Order.BigOperators.Group.List
import Mathlib.Algebra.Order.Group.Nat
import Mathlib.Algebra.Ring.Nat
import Snapper.Server.Moves

/-!
# The use count of a config

The count of a config is the number of things that refer to it: comparisons that clients hold,
comparisons that are being made for clients, and tasks of the background that are not counted
down.  While it is not zero the config stays loaded and keeps its snapshots, so what refers to
it stays valid; and as what refers to it is counted, the count is not zero when it goes down.

## Main results

* `Change.counted`: a change by a request keeps the counts equal to the numbers of uses.
* `Change.not_aborted`: no request counts down at zero.
-/

namespace Snapper.Server

open General

/-! ## Uses -/

/-- The comparisons of the client that refer to this `Snapper`. -/
def Client.held (snapper : Nat) (c : Client) : Nat := c.comparisons.countP (·.snapper = snapper)

/-- The comparison that the worker of the client makes, if it is for this config. -/
def Client.comparing (id : Nat) (c : Client) : Nat :=
  match c.worker with
  | .comparing making => if making.metaSnapper = id then 1 else 0
  | _ => 0

namespace Daemon

/-- The tasks that are not counted down. -/
def pending (d : Daemon) : List Task :=
  match d.background with
  | .counted => d.tasks.tail
  | _ => d.tasks

/-- The comparisons of listed clients that refer to this `Snapper`. -/
def heldBy (snapper : Nat) (d : Daemon) : Nat := (d.clients.map (Client.held snapper)).sum

/-- The calls of `CreateComparison` in progress. -/
def comparing (id : Nat) (d : Daemon) : Nat := (d.clients.map (Client.comparing id)).sum

/-- The tasks of the config that are not counted down. -/
def queued (id : Nat) (d : Daemon) : Nat := d.pending.countP (·.metaSnapper = id)

/-- What the use count of a config should be. -/
def uses (m : MetaSnapper) (d : Daemon) : Nat :=
  (match m.snapperId with
    | none => 0
    | some snapper => d.heldBy snapper) + d.comparing m.id + d.queued m.id

end Daemon

/-- The comparison is of a loaded config and of snapshots in its list. -/
def Comparison.Sound (d : Daemon) (comparison : Comparison) : Prop :=
  ∃ m ∈ d.metaSnappers, m.snapperId = some comparison.snapper ∧ m.Has comparison.num1 ∧
    m.Has comparison.num2

/-- The counts are right and what refers to a config is valid. -/
structure Counted (d : Daemon) : Prop where
  counts : ∀ m ∈ d.metaSnappers, m.counter = d.uses m
  comparisons : ∀ c ∈ d.clients, ∀ comparison ∈ c.comparisons, comparison.Sound d
  makings : ∀ c ∈ d.clients, ∀ making, c.worker = .comparing making → making.Sound d
  tasks : ∀ task ∈ d.pending, task.Sound d
  background : ∀ making, d.background = .comparing making →
    ∃ task rest, d.tasks = task :: rest ∧ making.metaSnapper = task.metaSnapper ∧ making.Sound d
  head : d.background = .counted → d.tasks ≠ []

/-- Configs that are in use stay, with their `Snapper` and their snapshots. -/
def Kept (d d' : Daemon) : Prop :=
  ∀ m ∈ d.metaSnappers, m.counter ≠ 0 → ∃ m' ∈ d'.metaSnappers, m'.id = m.id ∧
    m'.snapperId = m.snapperId ∧ ∀ num, m.Has num → m'.Has num

section References

variable {d d' : Daemon} {m : MetaSnapper}

theorem le_sum_of_mem {α : Type} {w : α → ℕ} {l : List α} {a : α} (ha : a ∈ l) :
    w a ≤ (l.map w).sum := List.le_sum_of_mem (List.mem_map_of_mem ha)

/-- A config that a comparison refers to is in use. -/
theorem Counted.pos_of_comparison (h : Counted d) {c : Client} {comparison : Comparison}
    (hc : c ∈ d.clients) (hcomparison : comparison ∈ c.comparisons) (hm : m ∈ d.metaSnappers)
    (hsnapper : m.snapperId = some comparison.snapper) : m.counter ≠ 0 := by
  have hheld : 0 < c.held comparison.snapper :=
    List.countP_pos_iff.mpr ⟨comparison, hcomparison, by simp⟩
  have hsum : c.held comparison.snapper ≤ d.heldBy comparison.snapper := le_sum_of_mem hc
  rw [h.counts m hm, Daemon.uses, hsnapper]
  show d.heldBy comparison.snapper + d.comparing m.id + d.queued m.id ≠ 0
  omega

theorem Counted.pos_of_making (h : Counted d) {c : Client} {making : Making}
    (hc : c ∈ d.clients) (hworker : c.worker = .comparing making) (hm : m ∈ d.metaSnappers)
    (hid : m.id = making.metaSnapper) : m.counter ≠ 0 := by
  have hone : c.comparing m.id = 1 := by simp [Client.comparing, hworker, hid]
  have hsum : c.comparing m.id ≤ d.comparing m.id := le_sum_of_mem hc
  rw [h.counts m hm, Daemon.uses]
  omega

theorem Counted.pos_of_task (h : Counted d) {task : Task} (htask : task ∈ d.pending)
    (hm : m ∈ d.metaSnappers) (hid : m.id = task.metaSnapper) : m.counter ≠ 0 := by
  have hqueued : 0 < d.queued m.id :=
    List.countP_pos_iff.mpr ⟨task, htask, by simp [hid]⟩
  rw [h.counts m hm, Daemon.uses]
  omega

/-- The task that the background works at is not counted down. -/
theorem pending_of_comparing {making : Making} (h : d.background = .comparing making) :
    d.pending = d.tasks := by
  rw [Daemon.pending, h]

/-- A snapshot of a config that is in use stays in its list. -/
theorem Has.kept {id : Nat} {num : UInt32} (hbase : d'.Base) (hkept : Kept d d')
    (hpos : ∀ m ∈ d.metaSnappers, m.id = id → m.counter ≠ 0) (h : d.Has id num) :
    d'.Has id num := by
  obtain ⟨m, hm, hhas⟩ := h
  have hid := id_of_metaSnapper hm
  obtain ⟨m', hm', hid', -, hhas'⟩ := hkept m (mem_of_metaSnapper hm)
    (hpos m (mem_of_metaSnapper hm) hid)
  have hlookup := hbase.metaSnapper_of_mem hm'
  rw [hid', hid] at hlookup
  exact ⟨m', hlookup, hhas' num hhas⟩

/-- A comparison that is being made keeps its config in use, so its snapshots stay. -/
theorem Making.Sound.kept {making : Making} (hbase : d'.Base) (hkept : Kept d d')
    (hpos : ∀ m ∈ d.metaSnappers, m.id = making.metaSnapper → m.counter ≠ 0)
    (h : making.Sound d) : making.Sound d' := by
  obtain ⟨⟨m, hm, hsnapper⟩, h1, h2⟩ := h
  refine ⟨?_, fun num hnum => Has.kept hbase hkept hpos (h1 num hnum),
    fun num hnum => Has.kept hbase hkept hpos (h2 num hnum)⟩
  have hid := id_of_metaSnapper hm
  obtain ⟨m', hm', hid', hsnapper', -⟩ := hkept m (mem_of_metaSnapper hm)
    (hpos m (mem_of_metaSnapper hm) hid)
  have hlookup := hbase.metaSnapper_of_mem hm'
  rw [hid', hid] at hlookup
  exact ⟨m', hlookup, hsnapper'.trans hsnapper⟩

/-- The uses are counted over the clients and the tasks, nothing else. -/
theorem uses_congr (hclients : d'.clients = d.clients) (hpending : d'.pending = d.pending) :
    d'.uses m = d.uses m := by
  have hheld : ∀ snapper, d'.heldBy snapper = d.heldBy snapper := by
    intro snapper
    rw [Daemon.heldBy, hclients]
    rfl
  have hcomparing : d'.comparing m.id = d.comparing m.id := by
    rw [Daemon.comparing, hclients]
    rfl
  have hqueued : d'.queued m.id = d.queued m.id := by
    rw [Daemon.queued, hpending]
    rfl
  rw [Daemon.uses, Daemon.uses, hcomparing, hqueued]
  cases m.snapperId with
  | none => rfl
  | some snapper =>
    dsimp only
    rw [hheld]

/-- A config that is not loaded is not in use. -/
theorem Counted.of_unloaded (h : Counted d) (hbase : d.Base) (hm : m ∈ d.metaSnappers)
    (hunloaded : m.snapper = none) : m.counter = 0 := by
  have hsnapper : m.snapperId = none := by simp [MetaSnapper.snapperId, hunloaded]
  have hlookup := hbase.metaSnapper_of_mem hm
  -- no snapshot is listed, so that no comparison and no task can refer to one
  have hhas : ∀ num, ¬ d.Has m.id num := by
    rintro num ⟨m', hm', s, hs, -⟩
    obtain rfl := Option.some.inj (hlookup.symm.trans hm')
    simp [MetaSnapper.snapshots, hunloaded] at hs
  have hcomparing : d.comparing m.id = 0 := by
    apply List.sum_eq_zero
    intro n hn
    obtain ⟨c, hc, rfl⟩ := List.mem_map.mp hn
    rw [Client.comparing]
    split
    · next making hworker =>
      rw [if_neg]
      rintro hid
      obtain ⟨⟨m', hm', hsnapper'⟩, -⟩ := h.makings c hc making hworker
      rw [hid] at hm'
      obtain rfl := Option.some.inj (hlookup.symm.trans hm')
      rw [hsnapper] at hsnapper'
      cases hsnapper'
    · rfl
  have hqueued : d.queued m.id = 0 := by
    apply List.countP_eq_zero.mpr
    intro task htask hid
    have hid : task.metaSnapper = m.id := by simpa using hid
    exact hhas task.snapshot1 (hid ▸ (h.tasks task htask).1)
  rw [h.counts m hm, Daemon.uses, hsnapper, hcomparing, hqueued]

/-- What refers to a config stays valid where configs in use are kept. -/
theorem Counted.of_kept (h : Counted d) (hbase : d'.Base) (hkept : Kept d d')
    (hclients : d'.clients = d.clients) (htasks : d'.tasks = d.tasks)
    (hbackground : d'.background = d.background)
    (hcounts : ∀ m ∈ d'.metaSnappers, m.counter = d'.uses m) : Counted d' := by
  have hpending : d'.pending = d.pending := by
    rw [Daemon.pending, Daemon.pending, htasks, hbackground]
  refine ⟨hcounts, ?_, ?_, ?_, ?_, by rw [hbackground, htasks]; exact h.head⟩
  · rw [hclients]
    intro c hc comparison hcomparison
    obtain ⟨m, hm, hsnapper, h1, h2⟩ := h.comparisons c hc comparison hcomparison
    -- a config that something refers to has a positive counter, and so is kept
    obtain ⟨m', hm', -, hsnapper', hhas⟩ :=
      hkept m hm (h.pos_of_comparison hc hcomparison hm hsnapper)
    exact ⟨m', hm', hsnapper'.trans hsnapper, hhas _ h1, hhas _ h2⟩
  · rw [hclients]
    intro c hc making hworker
    apply (h.makings c hc making hworker).kept hbase hkept
    intro m hm hid
    exact h.pos_of_making hc hworker hm hid
  · rw [hpending]
    intro task htask
    have hpos : ∀ m ∈ d.metaSnappers, m.id = task.metaSnapper → m.counter ≠ 0 :=
      fun m hm hid => h.pos_of_task htask hm hid
    obtain ⟨h1, h2⟩ := h.tasks task htask
    exact ⟨Has.kept hbase hkept hpos h1, Has.kept hbase hkept hpos h2⟩
  · rw [hbackground, htasks]
    intro making hmaking
    obtain ⟨task, rest, htasks', hid, hsound⟩ := h.background making hmaking
    refine ⟨task, rest, htasks', hid, hsound.kept hbase hkept ?_⟩
    intro m hm hid'
    have htask : task ∈ d.pending := by
      rw [pending_of_comparing hmaking, htasks']
      exact List.mem_cons_self
    exact h.pos_of_task htask hm (hid'.trans hid)

end References

/-! ## Changes of the configs -/

section Configs

variable {d d' : Daemon} {id : Nat} {f : MetaSnapper → MetaSnapper} {m : MetaSnapper}

/-- Nothing is asked of what was sent and of free addresses. -/
theorem Counted.of_same (h : Counted d) (hbase : d'.Base)
    (hmetas : d'.metaSnappers = d.metaSnappers)
    (hclients : d'.clients = d.clients) (htasks : d'.tasks = d.tasks)
    (hbackground : d'.background = d.background) : Counted d' := by
  have hpending : d'.pending = d.pending := by
    rw [Daemon.pending, Daemon.pending, htasks, hbackground]
  apply h.of_kept hbase _ hclients htasks hbackground
  · intro m hm
    rw [hmetas] at hm
    rw [h.counts m hm, uses_congr hclients hpending]
  · intro m hm _
    rw [hmetas]
    exact ⟨m, hm, rfl, rfl, fun _ hhas => hhas⟩

/-- A `Snapper` that is not there yet has no comparisons. -/
theorem Counted.heldBy_fresh (h : Counted d) (hbase : d.Base) {i : Nat} (hi : d.nextId ≤ i) :
    d.heldBy i = 0 := by
  apply List.sum_eq_zero
  intro n hn
  obtain ⟨c, hc, rfl⟩ := List.mem_map.mp hn
  apply List.countP_eq_zero.mpr
  intro comparison hcomparison heq
  obtain ⟨m, hm, hsnapper, -, -⟩ := h.comparisons c hc comparison hcomparison
  obtain ⟨loaded, hloaded, hid⟩ : ∃ loaded, m.snapper = some loaded ∧
      loaded.id = comparison.snapper := by
    simpa [MetaSnapper.snapperId] using hsnapper
  have hlt := hbase.addresses.snappers m hm loaded hloaded
  have heq : comparison.snapper = i := by simpa using heq
  omega

/-- A change of one config that keeps its count: it keeps the `Snapper` and the snapshots, or
the config is not in use. -/
theorem Counted.update (h : Counted d) (hbase : d.Base) (hbase' : d'.Base)
    (hmetas : d'.metaSnappers = General.update MetaSnapper.id id f d.metaSnappers)
    (hclients : d'.clients = d.clients) (htasks : d'.tasks = d.tasks)
    (hbackground : d'.background = d.background)
    (hid : ∀ m, (f m).id = m.id) (hcounter : ∀ m, (f m).counter = m.counter)
    (hcase : ∀ m, d.metaSnapper id = some m →
      ((f m).snapperId = m.snapperId ∧ ∀ num, m.Has num → (f m).Has num) ∨
      (m.counter = 0 ∧ ∀ i, (f m).snapperId = some i → m.snapperId = some i ∨ d.nextId ≤ i)) :
    Counted d' := by
  have hpending : d'.pending = d.pending := by
    rw [Daemon.pending, Daemon.pending, htasks, hbackground]
  apply h.of_kept hbase' _ hclients htasks hbackground
  · intro m' hm'
    rw [uses_congr hclients hpending]
    rw [hmetas] at hm'
    obtain ⟨m, hm, ⟨hmid, rfl⟩ | ⟨-, rfl⟩⟩ := mem_update hm'
    · have hlookup := hbase.metaSnapper_of_mem hm
      rw [hmid] at hlookup
      have hcounts := h.counts m hm
      rw [hcounter]
      -- either the `Snapper` stays, or the config has no uses
      rcases hcase m hlookup with ⟨hsnapper, -⟩ | ⟨hzero, hsnapper⟩
      · rw [hcounts, Daemon.uses, Daemon.uses, hid, hsnapper]
      · -- nothing refers to the config, whatever `Snapper` it gets
        rw [hzero]
        rw [hzero, Daemon.uses] at hcounts
        rw [Daemon.uses, hid]
        cases hnew : (f m).snapperId with
        | none =>
          dsimp only
          omega
        | some i =>
          dsimp only
          rcases hsnapper i hnew with hsame | hfresh
          · rw [hsame] at hcounts
            exact hcounts
          · rw [h.heldBy_fresh hbase hfresh]
            omega
    · exact h.counts m' hm
  · intro m hm hpos
    by_cases hmid : m.id = id
    · have hlookup := hbase.metaSnapper_of_mem hm
      rw [hmid] at hlookup
      rcases hcase m hlookup with ⟨hsnapper, hhas⟩ | ⟨hzero, -⟩
      · refine ⟨f m, ?_, hid m, hsnapper, hhas⟩
        rw [hmetas]
        exact mem_update_self hm hmid
      · exact absurd hzero hpos
    · refine ⟨m, ?_, rfl, rfl, fun _ hhas => hhas⟩
      rw [hmetas]
      exact mem_update_other hm hmid

/-- A config may change as long as its id and counter stay, and its `Snapper` object only while it
is not in use. -/
theorem Counted.modMeta (h : Counted d) (hbase : d.Base) (hbase' : (d.modMeta id f).Base)
    (hid : ∀ m, (f m).id = m.id) (hcounter : ∀ m, (f m).counter = m.counter)
    (hcase : ∀ m, d.metaSnapper id = some m →
      ((f m).snapperId = m.snapperId ∧ ∀ num, m.Has num → (f m).Has num) ∨
      (m.counter = 0 ∧ ∀ i, (f m).snapperId = some i → m.snapperId = some i)) :
    Counted (d.modMeta id f) := by
  apply h.update hbase hbase' rfl rfl rfl rfl hid hcounter
  intro m hm
  refine (hcase m hm).imp_right fun hunused => ⟨hunused.1, fun i hi => ?_⟩
  exact Or.inl (hunused.2 i hi)

/-- Nothing is lost where every snapshot keeps its number. -/
theorem Counted.update_snapshots {num : UInt32} {g : Snapshot → Snapshot} (h : Counted d)
    (hbase : d.Base) (hbase' : (d.modSnapshot id num g).Base) (hnum : ∀ s, (g s).num = s.num) :
    Counted (d.modSnapshot id num g) := by
  apply h.modMeta hbase hbase' (by intro; rfl) (by intro; rfl)
  intro m _
  refine Or.inl ⟨setSnapshots_snapperId, ?_⟩
  intro num' hhas
  rw [has_iff, setSnapshots_update, map_update hnum, ← has_iff]
  exact hhas

/-- Loading, using, editing and writing leave the uses as they are. -/
theorem Edit.counted (h : Edit d d') (hbase : d.Base) (hd : Counted d) : Counted d' := by
  have hbase' : d'.Base := h.base hbase
  cases h with
  | send msg => exact hd.of_same hbase' rfl rfl rfl rfl
  | @load id m hm hunloaded hfind =>
    -- a config that is not loaded has no use, and the new address is one that nobody refers to
    have hzero : m.counter = 0 := hd.of_unloaded hbase (mem_of_metaSnapper hm) hunloaded
    apply hd.update hbase hbase' rfl rfl rfl rfl (by intro; rfl) (by intro; rfl)
    intro m' hm'
    obtain rfl := Option.some.inj (hm.symm.trans hm')
    refine Or.inr ⟨hzero, ?_⟩
    intro i hi
    obtain rfl : d.nextId = i := by simpa [MetaSnapper.snapperId] using hi
    exact Or.inr le_rfl
  | use id now =>
    apply hd.modMeta hbase hbase' (by intro; rfl) (by intro; rfl)
    intro m _
    exact Or.inl ⟨rfl, fun _ hhas => hhas⟩
  | edit id num hnum hcount =>
    exact hd.update_snapshots hbase hbase' hnum
  | write hm hs hnum =>
    apply hd.modMeta hbase hbase' (by intro; rfl) (by intro; rfl)
    intro m _
    exact Or.inl ⟨rfl, fun _ hhas => hhas⟩

theorem Recount.counted (h : Recount d d') (hbase : d.Base) (hd : Counted d) : Counted d' := by
  have hbase' : d'.Base := h.base hbase
  cases h with
  | edit h => exact h.counted hbase hd
  | recount id num hnum =>
    exact hd.update_snapshots hbase hbase' hnum

/-- So does what is done while a snapshot is created; the list gets longer only. -/
theorem Create.counted (h : Create d d') (hbase : d.Base) (hd : Counted d) : Counted d' := by
  have hbase' : d'.Base := h.base hbase
  cases h with
  | edit h => exact h.counted hbase hd
  | makeDir hm hnum =>
    apply hd.modMeta hbase hbase' (by intro; rfl) (by intro; rfl)
    intro m _
    exact Or.inl ⟨rfl, fun _ hhas => hhas⟩
  | removeDir hm hlist hinfos =>
    apply hd.modMeta hbase hbase' (by intro; rfl) (by intro; rfl)
    intro m _
    exact Or.inl ⟨rfl, fun _ hhas => hhas⟩
  | @insert id m s hm hlist hdir hnum hcount =>
    apply hd.modMeta hbase hbase' (by intro; rfl) (by intro; rfl)
    intro m' _
    refine Or.inl ⟨setSnapshots_snapperId (f := (· ++ [s.flushed])), ?_⟩
    rintro num ⟨s', hs', hnum'⟩
    have hlist' : (m'.setSnapshots (· ++ [s.flushed])).snapshots = m'.snapshots ++ [s.flushed] :=
      setSnapshots_snapshots (isLoaded_of_mem hs')
    refine ⟨s', ?_, hnum'⟩
    show s' ∈ (m'.setSnapshots (· ++ [s.flushed])).snapshots
    rw [hlist']
    exact List.mem_append_left _ hs'

end Configs

/-! ## Changes of the uses -/

section Uses

variable {d d' : Daemon} {env : Env} {id : Nat} {name : Str} {g : Client → Client} {c : Client}
  {making : Making} {f : MetaSnapper → MetaSnapper}

/-- A change of counts and references, where counts are right and references valid after it. -/
theorem Counted.recount (hf : ∀ m, (f m).id = m.id ∧ (f m).snapper = m.snapper)
    (hmetas : d'.metaSnappers = d.metaSnappers.map f)
    (hcounts : ∀ m ∈ d.metaSnappers, (f m).counter = d'.uses m)
    (hcomparisons : ∀ c ∈ d'.clients, ∀ comparison ∈ c.comparisons, comparison.Sound d)
    (hmakings : ∀ c ∈ d'.clients, ∀ making, c.worker = .comparing making → making.Sound d)
    (htasks : ∀ task ∈ d'.pending, task.Sound d)
    (hbackground : ∀ making, d'.background = .comparing making →
      ∃ task rest, d'.tasks = task :: rest ∧ making.metaSnapper = task.metaSnapper ∧
        making.Sound d) (hhead : d'.background = .counted → d'.tasks ≠ []) : Counted d' := by
  -- `f` changes no `Snapper`, so that all the records stay sound
  have hsnapper : ∀ m, (f m).snapperId = m.snapperId := by
    intro m
    rw [MetaSnapper.snapperId, (hf m).2]
    rfl
  have hhas : ∀ {m num}, m.Has num → (f m).Has num := by
    intro m num hhas
    rw [MetaSnapper.Has, MetaSnapper.snapshots, (hf m).2]
    exact hhas
  have hlookup : ∀ {id m}, d.metaSnapper id = some m → d'.metaSnapper id = some (f m) := by
    intro id m hm
    show lookup MetaSnapper.id id d'.metaSnappers = _
    rw [hmetas, lookup_map fun m => (hf m).1]
    exact congrArg _ hm
  have hdhas : ∀ {id num}, d.Has id num → d'.Has id num := by
    rintro id num ⟨m, hm, hnum⟩
    exact ⟨f m, hlookup hm, hhas hnum⟩
  have hsound : ∀ {making : Making}, making.Sound d → making.Sound d' := by
    rintro making ⟨⟨m, hm, hsnap⟩, h1, h2⟩
    exact ⟨⟨f m, hlookup hm, (hsnapper m).trans hsnap⟩, fun num hnum => hdhas (h1 num hnum),
      fun num hnum => hdhas (h2 num hnum)⟩
  refine ⟨?_, ?_, ?_, ?_, ?_, hhead⟩
  · intro m' hm'
    rw [hmetas] at hm'
    obtain ⟨m, hm, rfl⟩ := List.mem_map.mp hm'
    rw [hcounts m hm, Daemon.uses, Daemon.uses, (hf m).1, hsnapper]
  · intro c hc comparison hcomparison
    obtain ⟨m, hm, hsnap, h1, h2⟩ := hcomparisons c hc comparison hcomparison
    refine ⟨f m, ?_, (hsnapper m).trans hsnap, hhas h1, hhas h2⟩
    rw [hmetas]
    exact List.mem_map_of_mem hm
  · intro c hc making hworker
    exact hsound (hmakings c hc making hworker)
  · intro task htask
    exact ⟨hdhas (htasks task htask).1, hdhas (htasks task htask).2⟩
  · intro making hmaking
    obtain ⟨task, rest, htasks', hid, hmaking'⟩ := hbackground making hmaking
    exact ⟨task, rest, htasks', hid, hsound hmaking'⟩

theorem heldBy_modClient {snapper : Nat} (hbase : d.Base) (hc : d.client name = some c) :
    (d.modClient name g).heldBy snapper + c.held snapper = d.heldBy snapper + (g c).held snapper :=
  sum_update hbase.addresses.names (mem_of_client hc) (name_of_client hc)

theorem comparing_modClient (hbase : d.Base) (hc : d.client name = some c) :
    (d.modClient name g).comparing id + c.comparing id = d.comparing id + (g c).comparing id :=
  sum_update hbase.addresses.names (mem_of_client hc) (name_of_client hc)

/-- The clients after a change of one of them. -/
theorem mem_modClient {c' : Client} (hc' : c' ∈ (d.modClient name g).clients) :
    (∃ c ∈ d.clients, c.name = name ∧ c' = g c) ∨ c' ∈ d.clients := by
  obtain ⟨c, hc, ⟨hname, rfl⟩ | ⟨-, rfl⟩⟩ := mem_update hc'
  · exact Or.inl ⟨c, hc, hname, rfl⟩
  · exact Or.inr hc

/-- A change of a client that keeps its comparisons, made and in the making. -/
theorem Counted.modClient (h : Counted d)
    (hg : ∀ c ∈ d.clients, c.name = name → (g c).comparisons = c.comparisons ∧
      (∀ id, (g c).comparing id = c.comparing id) ∧
      ∀ making, (g c).worker = .comparing making → making.Sound d) :
    Counted (d.modClient name g) := by
  refine Counted.recount (d := d) (f := id) (fun _ => ⟨rfl, rfl⟩) (List.map_id _).symm ?_ ?_ ?_
    h.tasks h.background h.head
  · intro m hm
    -- the sums over the clients have the same terms as before
    have hheld : ∀ snapper, (d.modClient name g).heldBy snapper = d.heldBy snapper := by
      intro snapper
      apply sum_update_same
      intro c hc hname
      rw [Client.held, (hg c hc hname).1]
      rfl
    have hcomparing : (d.modClient name g).comparing m.id = d.comparing m.id :=
      sum_update_same fun c hc hname => (hg c hc hname).2.1 m.id
    have hqueued : (d.modClient name g).queued m.id = d.queued m.id := rfl
    show m.counter = _
    rw [h.counts m hm, Daemon.uses, Daemon.uses, hcomparing, hqueued]
    cases m.snapperId with
    | none => rfl
    | some snapper =>
      dsimp only
      rw [hheld]
  · intro c' hc' comparison hcomparison
    rcases mem_modClient hc' with ⟨c, hc, hname, rfl⟩ | hc'
    · rw [(hg c hc hname).1] at hcomparison
      exact h.comparisons c hc comparison hcomparison
    · exact h.comparisons c' hc' comparison hcomparison
  · intro c' hc' making hworker
    rcases mem_modClient hc' with ⟨c, hc, hname, rfl⟩ | hc'
    · exact (hg c hc hname).2.2 making hworker
    · exact h.makings c' hc' making hworker

/-- What a client has besides comparisons and worker does not count. -/
theorem Counted.modClient_same (h : Counted d)
    (hcomparisons : ∀ c, (g c).comparisons = c.comparisons)
    (hworker : ∀ c, (g c).worker = c.worker) : Counted (d.modClient name g) := by
  apply h.modClient
  intro c hc _
  refine ⟨hcomparisons c, ?_, ?_⟩
  · intro id
    rw [Client.comparing, hworker]
    rfl
  · intro making hmaking
    rw [hworker] at hmaking
    exact h.makings c hc making hmaking

/-- The uses of a config by one client. -/
def Client.uses (m : MetaSnapper) (c : Client) : Nat :=
  (match m.snapperId with
    | none => 0
    | some snapper => c.held snapper) + c.comparing m.id

/-- The uses by a client are exchanged for those that it has afterwards. -/
theorem uses_modClient {m : MetaSnapper} (hbase : d.Base) (hc : d.client name = some c) :
    (d.modClient name g).uses m + c.uses m = d.uses m + (g c).uses m := by
  have hcomparing : (d.modClient name g).comparing m.id + c.comparing m.id = _ :=
    comparing_modClient hbase hc
  have hqueued : (d.modClient name g).queued m.id = d.queued m.id := rfl
  rw [Daemon.uses, Daemon.uses, Client.uses, Client.uses, hqueued]
  cases m.snapperId with
  | none =>
    dsimp only
    omega
  | some snapper =>
    have hheld : (d.modClient name g).heldBy snapper + c.held snapper = _ :=
      heldBy_modClient hbase hc
    dsimp only
    omega

/-- Counts change by what changes at one client. -/
theorem Counted.recount_client (h : Counted d) (hbase : d.Base) (hc : d.client name = some c)
    (hf : ∀ m, (f m).id = m.id ∧ (f m).snapper = m.snapper)
    (hmetas : d'.metaSnappers = d.metaSnappers.map f)
    (hclients : d'.clients = (d.modClient name g).clients) (htasks : d'.tasks = d.tasks)
    (hbackground : d'.background = d.background)
    (hcounts : ∀ m ∈ d.metaSnappers, (f m).counter + c.uses m = m.counter + (g c).uses m)
    (hcomparisons : ∀ comparison ∈ (g c).comparisons, comparison.Sound d)
    (hmaking : ∀ making, (g c).worker = .comparing making → making.Sound d) : Counted d' := by
  have hpending : d'.pending = d.pending := by
    rw [Daemon.pending, Daemon.pending, htasks, hbackground]
  have hclient : ∀ c' ∈ d'.clients, c' = g c ∨ c' ∈ d.clients := by
    intro c' hc'
    rw [hclients] at hc'
    rcases mem_modClient hc' with ⟨c₁, hc₁, hname, rfl⟩ | hc'
    · have hsame := hbase.addresses.client_of_mem hc₁
      rw [hname] at hsame
      obtain rfl := Option.some.inj (hc.symm.trans hsame)
      exact Or.inl rfl
    · exact Or.inr hc'
  apply Counted.recount hf hmetas
  · intro m hm
    -- the counter and the uses of the one client move by the same
    have huses : (d.modClient name g).uses m + c.uses m = _ := uses_modClient hbase hc
    rw [uses_congr (d := d.modClient name g) hclients hpending]
    have hcount := hcounts m hm
    have hbefore := h.counts m hm
    omega
  · intro c' hc' comparison hcomparison
    rcases hclient c' hc' with rfl | hc'
    · exact hcomparisons comparison hcomparison
    · exact h.comparisons c' hc' comparison hcomparison
  · intro c' hc' making hworker
    rcases hclient c' hc' with rfl | hc'
    · exact hmaking making hworker
    · exact h.makings c' hc' making hworker
  · rw [hpending]
    exact h.tasks
  · rw [hbackground, htasks]
    exact h.background
  · rw [hbackground, htasks]
    exact h.head

theorem counter_ite {b : Prop} [Decidable b] {m m' : MetaSnapper} :
    (if b then m' else m).counter = if b then m'.counter else m.counter := by
  split <;> rfl

theorem ite_same {b : Prop} [Decidable b] {m m' : MetaSnapper}
    (h : m'.id = m.id ∧ m'.snapper = m.snapper) :
    (if b then m' else m).id = m.id ∧ (if b then m' else m).snapper = m.snapper := by
  split
  · exact h
  · exact ⟨rfl, rfl⟩

/-- The worker has a comparison in the making, or none. -/
theorem comparing_eq (hworker : c.worker = .comparing making) :
    c.comparing id = if id = making.metaSnapper then 1 else 0 := by
  simp [Client.comparing, hworker, eq_comm]

/-- A comparison begins: the config counts up, and the worker refers to it. -/
theorem Counted.startComparison (h : Counted d) (hbase : d.Base) (hidle : d.Idle name)
    (hsound : making.Sound d) :
    Counted ((incUseCount making.metaSnapper d).modClient name fun c =>
      { c with worker := .comparing making }) := by
  obtain ⟨c, hc, hworker⟩ := hidle
  refine h.recount_client hbase hc
    (f := fun m => if m.id = making.metaSnapper then { m with counter := m.counter + 1 } else m)
    (g := fun c => { c with worker := .comparing making })
    (fun m => ite_same ⟨rfl, rfl⟩) rfl rfl rfl rfl ?_ (h.comparisons c (mem_of_client hc)) ?_
  · intro m hm
    -- the worker has not referred to a config before
    have hbefore : c.comparing m.id = 0 := by simp [Client.comparing, hworker]
    have hafter : ({ c with worker := .comparing making } : Client).comparing m.id = _ :=
      comparing_eq rfl
    have hheld : ∀ snapper, ({ c with worker := .comparing making } : Client).held snapper =
        c.held snapper := fun _ => rfl
    rw [counter_ite, Client.uses, Client.uses, hbefore, hafter]
    simp only [hheld]
    split
    · omega
    · omega
  · intro making' hmaking
    cases hmaking
    exact hsound

/-- A comparison fails: the config counts down, and the worker does something else. -/
theorem Counted.stopComparison {worker : Worker} (h : Counted d) (hbase : d.Base)
    (hc : d.client name = some c) (hworker : c.worker = .comparing making)
    (hstop : ∀ making, worker ≠ .comparing making) :
    Counted ((d.setWorker name worker).release env making.metaSnapper) := by
  refine h.recount_client hbase hc
    (f := fun m => if m.id = making.metaSnapper then MetaSnapper.dec env m else m)
    (g := fun c => { c with worker := worker })
    (fun m => ite_same ⟨rfl, rfl⟩) rfl rfl rfl rfl ?_ (h.comparisons c (mem_of_client hc)) ?_
  · intro m hm
    have hbefore : c.comparing m.id = _ := comparing_eq hworker
    have hafter : ({ c with worker := worker } : Client).comparing m.id = 0 := by
      rw [Client.comparing]
      split
      · next making' hmaking => exact absurd hmaking (hstop making')
      · rfl
    have hheld : ∀ snapper, ({ c with worker := worker } : Client).held snapper =
        c.held snapper := fun _ => rfl
    rw [counter_ite, Client.uses, Client.uses, hbefore, hafter]
    simp only [hheld]
    split
    · next hid =>
      -- the comparison was counted
      have hpos := h.pos_of_making (mem_of_client hc) hworker hm hid
      show m.counter - 1 + _ = _
      omega
    · omega
  · intro making' hmaking
    exact absurd hmaking (hstop making')

/-- A comparison is made: the client has it, and the worker no longer counts. -/
theorem Counted.finished {comparison : Comparison} (h : Counted d) (hbase : d.Base)
    (hc : d.client name = some c) (hworker : c.worker = .comparing making)
    (hsnapper : comparison.snapper = making.snapper)
    (hsnapshot1 : making.snapshot1 = some comparison.num1)
    (hsnapshot2 : making.snapshot2 = some comparison.num2) :
    Counted (d.finished env name making comparison) := by
  have hsound := h.makings c (mem_of_client hc) making hworker
  obtain ⟨⟨m₀, hm₀, hsnap₀⟩, h1, h2⟩ := hsound
  -- exactly this config has the `Snapper` of the comparison
  have honly : ∀ m ∈ d.metaSnappers, m.id = making.metaSnapper ↔
      m.snapperId = some comparison.snapper := by
    intro m hm
    constructor
    · intro hid
      have hlookup := hbase.metaSnapper_of_mem hm
      rw [hid] at hlookup
      obtain rfl := Option.some.inj (hlookup.symm.trans hm₀)
      rw [hsnapper]
      exact hsnap₀
    intro hsnap
    rw [hsnapper] at hsnap
    obtain ⟨l, hl, hlid⟩ : ∃ l, m.snapper = some l ∧ l.id = making.snapper := by
      simpa [MetaSnapper.snapperId] using hsnap
    obtain ⟨l₀, hl₀, hlid₀⟩ : ∃ l, m₀.snapper = some l ∧ l.id = making.snapper := by
      simpa [MetaSnapper.snapperId] using hsnap₀
    have hid := hbase.addresses.distinct m hm m₀ (mem_of_metaSnapper hm₀) l l₀ hl hl₀
      (hlid.trans hlid₀.symm)
    exact hid.trans (id_of_metaSnapper hm₀)
  refine h.recount_client hbase hc
    (f := fun m => if m.id = making.metaSnapper then
      MetaSnapper.dec env { m with counter := m.counter + 1 } else m)
    (g := fun c => { c with comparisons := c.comparisons ++ [comparison], worker := .waiting })
    (fun m => ite_same ⟨rfl, rfl⟩) ?_ rfl rfl rfl ?_ ?_ ?_
  · show General.update MetaSnapper.id _ _ (General.update MetaSnapper.id _ _ d.metaSnappers) = _
    rw [update_update (by intro; rfl)]
    rfl
  · intro m hm
    have hbefore : c.comparing m.id = _ := comparing_eq hworker
    have hafter : ({ c with comparisons := c.comparisons ++ [comparison], worker := .waiting } :
        Client).comparing m.id = 0 := rfl
    have hheld : ∀ snapper, ({ c with
        comparisons := c.comparisons ++ [comparison], worker := .waiting } : Client).held snapper =
          c.held snapper + if comparison.snapper = snapper then 1 else 0 := by
      intro snapper
      simp [Client.held, List.countP_append, List.countP_singleton]
    have hcounter : (if m.id = making.metaSnapper then
        MetaSnapper.dec env { m with counter := m.counter + 1 } else m).counter = m.counter := by
      rw [counter_ite]
      split
      · rfl
      · rfl
    rw [hcounter, Client.uses, Client.uses, hbefore, hafter]
    have hiff := honly m hm
    cases hsnap : m.snapperId with
    | none =>
      rw [hsnap] at hiff
      rw [if_neg (by simpa using hiff)]
    | some snapper =>
      rw [hsnap, Option.some.injEq] at hiff
      dsimp only
      rw [hheld]
      by_cases hid : m.id = making.metaSnapper
      · rw [if_pos hid, if_pos (hiff.mp hid).symm]
      · rw [if_neg hid, if_neg fun hsame => hid (hiff.mpr hsame.symm)]
  · intro comparison' hcomparison
    rcases List.mem_append.mp hcomparison with hold | hnew
    · exact h.comparisons c (mem_of_client hc) comparison' hold
    · obtain rfl := List.mem_singleton.mp hnew
      have hhas : ∀ {num}, d.Has making.metaSnapper num → m₀.Has num := by
        rintro num ⟨m, hm, hnum⟩
        obtain rfl := Option.some.inj (hm₀.symm.trans hm)
        exact hnum
      exact ⟨m₀, mem_of_metaSnapper hm₀, by rw [hsnapper]; exact hsnap₀, hhas (h1 _ hsnapshot1),
        hhas (h2 _ hsnapshot2)⟩
  · intro making' hmaking
    cases hmaking

theorem isEqual_iff {m : MetaSnapper} {snapper : Nat} :
    m.isEqual snapper = true ↔ m.snapperId = some snapper := by
  rw [MetaSnapper.isEqual, MetaSnapper.snapperId]
  cases m.snapper with
  | none => simp
  | some loaded => simp

/-- A client gives a comparison back. -/
theorem Counted.drop {comparison : Comparison} {l : List Comparison} (h : Counted d)
    (hbase : d.Base) (hc : d.client name = some c) (hperm : c.comparisons.Perm (comparison :: l))
    (hcomparisons : (g c).comparisons = l) (hworker : (g c).worker = c.worker) :
    Counted ((decUseCount env comparison.snapper d).modClient name g) := by
  have hmem : comparison ∈ c.comparisons := hperm.symm.subset List.mem_cons_self
  refine h.recount_client hbase hc
    (f := fun m => if m.isEqual comparison.snapper then MetaSnapper.dec env m else m)
    (fun m => ite_same ⟨rfl, rfl⟩) rfl rfl rfl rfl ?_ ?_ ?_
  · intro m hm
    have hcomparing : (g c).comparing m.id = c.comparing m.id := by
      rw [Client.comparing, hworker]
      rfl
    have hheld : ∀ snapper, c.held snapper =
        (g c).held snapper + if comparison.snapper = snapper then 1 else 0 := by
      intro snapper
      rw [Client.held, Client.held, hcomparisons, hperm.countP_eq, List.countP_cons]
      simp
    rw [counter_ite, Client.uses, Client.uses, hcomparing]
    cases hsnap : m.snapperId with
    | none =>
      have hequal : ¬ m.isEqual comparison.snapper = true := by
        rw [isEqual_iff, hsnap]
        simp
      rw [if_neg hequal]
    | some snapper =>
      dsimp only
      rw [hheld]
      by_cases hsame : comparison.snapper = snapper
      · -- the comparison was counted
        have hpos := h.pos_of_comparison (mem_of_client hc) hmem hm (by rw [hsnap, hsame])
        rw [if_pos (isEqual_iff.mpr (by rw [hsnap, hsame])), if_pos hsame]
        show m.counter - 1 + _ = _
        omega
      · have hequal : ¬ m.isEqual comparison.snapper = true := by
          rw [isEqual_iff, hsnap]
          simpa [eq_comm] using hsame
        rw [if_neg hequal, if_neg hsame]
        rfl
  · intro comparison' hcomparison
    rw [hcomparisons] at hcomparison
    exact h.comparisons c (mem_of_client hc) comparison'
      (hperm.symm.subset (List.mem_cons_of_mem _ hcomparison))
  · intro making hmaking
    rw [hworker] at hmaking
    exact h.makings c (mem_of_client hc) making hmaking

/-- No count goes down at zero. -/
theorem Counted.drop_aborted {comparison : Comparison} (h : Counted d)
    (hc : c ∈ d.clients) (hmem : comparison ∈ c.comparisons) :
    (decUseCount env comparison.snapper d).aborted = d.aborted := by
  have hnone : (d.metaSnappers.any fun m => m.isEqual comparison.snapper && m.counter = 0) =
      false := by
    apply List.any_eq_false.mpr
    intro m hm hzero
    obtain ⟨hequal, hcounter⟩ : m.isEqual comparison.snapper = true ∧ m.counter = 0 := by
      simpa using hzero
    exact h.pos_of_comparison hc hmem hm (isEqual_iff.mp hequal) hcounter
  show (d.aborted || _) = d.aborted
  rw [hnone, Bool.or_false]

/-- The assertion on the counter holds, since a comparison that is released was counted. -/
theorem Counted.release_aborted (hpos : ∀ m ∈ d.metaSnappers, m.id = id → m.counter ≠ 0) :
    (d.release env id).aborted = d.aborted := by
  have hnone : (d.metaSnappers.any fun m => m.id = id && m.counter = 0) = false := by
    apply List.any_eq_false.mpr
    intro m hm hzero
    obtain ⟨hid, hcounter⟩ : m.id = id ∧ m.counter = 0 := by simpa using hzero
    exact hpos m hm hid hcounter
  show (d.aborted || _) = d.aborted
  rw [hnone, Bool.or_false]

/-- The client with other comparisons. -/
def setComparisons (name : Str) (l : List Comparison) : Daemon → Daemon :=
  Daemon.modClient name fun c => { c with comparisons := l }

theorem client_setComparisons {l : List Comparison} (hc : d.client name = some c) :
    (setComparisons name l d).client name = some { c with comparisons := l } := by
  have hlookup : (setComparisons name l d).client name = (d.client name).map _ :=
    lookup_update_self (by intro; rfl)
  rw [hlookup, hc]
  rfl

theorem setComparisons_twice {l l' : List Comparison} :
    setComparisons name l' (setComparisons name l d) = setComparisons name l' d := by
  show ({ d with clients :=
      General.update Client.name name _ (General.update Client.name name _ d.clients) } : Daemon) = _
  rw [update_update (by intro; rfl)]
  rfl

/-- All comparisons of a client are counted down, one after the other. -/
theorem Counted.decAll {l : List Comparison} (h : Counted (setComparisons name l d))
    (hbase : d.Base) (hc : d.client name = some c) :
    (decAll env l d).aborted = d.aborted ∧ Counted (setComparisons name [] (decAll env l d)) := by
  -- comparison after comparison, each with the use that it stands for
  induction l generalizing d with
  | nil => exact ⟨rfl, h⟩
  | cons comparison l ih =>
    have hset : (setComparisons name (comparison :: l) d).Base := hbase.modClient (by intro; rfl)
    have hc' := client_setComparisons (l := comparison :: l) hc
    have hdrop : Counted (setComparisons name l (decUseCount env comparison.snapper
        (setComparisons name (comparison :: l) d))) := h.drop hset hc' (List.Perm.refl _) rfl rfl
    have hsame : setComparisons name l (decUseCount env comparison.snapper
        (setComparisons name (comparison :: l) d)) =
        setComparisons name l (decUseCount env comparison.snapper d) :=
      setComparisons_twice (d := decUseCount env comparison.snapper d)
    rw [hsame] at hdrop
    obtain ⟨haborted, hcounted⟩ := ih hdrop hbase.decUseCount hc
    have hfirst : (decUseCount env comparison.snapper
        (setComparisons name (comparison :: l) d)).aborted = d.aborted :=
      h.drop_aborted (mem_of_client hc') List.mem_cons_self
    exact ⟨haborted.trans hfirst, hcounted⟩

/-- A client that refers to nothing goes. -/
theorem Counted.remove (h : Counted d) (hbase : d.Base) (hc : d.client name = some c)
    (hcomparisons : c.comparisons = []) (hworker : c.worker = .ended) :
    Counted { d with clients := d.clients.filter (·.name ≠ name) } := by
  refine Counted.recount (d := d) (f := fun m => m) (fun _ => ⟨rfl, rfl⟩) (List.map_id _).symm
    ?_ ?_ ?_ h.tasks h.background h.head
  · intro m hm
    -- a client whose worker has ended adds nothing to the sums
    have hsum : ∀ w : Client → ℕ, w c = 0 →
        ((d.clients.filter (·.name ≠ name)).map w).sum = (d.clients.map w).sum := by
      intro w hw
      have hfilter : ((d.clients.filter (·.name ≠ name)).map w).sum + w c = _ :=
        sum_filter_ne hbase.addresses.names (mem_of_client hc) (name_of_client hc)
      rw [hw] at hfilter
      exact hfilter
    have hheld : ∀ snapper, Daemon.heldBy snapper
        { d with clients := d.clients.filter (·.name ≠ name) } = d.heldBy snapper := by
      intro snapper
      apply hsum
      simp [Client.held, hcomparisons]
    have hcomparing : Daemon.comparing m.id
        { d with clients := d.clients.filter (·.name ≠ name) } = d.comparing m.id := by
      apply hsum
      simp [Client.comparing, hworker]
    have hqueued : Daemon.queued m.id
        { d with clients := d.clients.filter (·.name ≠ name) } = d.queued m.id := rfl
    show m.counter = _
    rw [h.counts m hm, Daemon.uses, Daemon.uses, hcomparing, hqueued]
    cases m.snapperId with
    | none => rfl
    | some snapper =>
      dsimp only
      rw [hheld]
  · intro c' hc' comparison hcomparison
    exact h.comparisons c' (List.mem_filter.mp hc').1 comparison hcomparison
  · intro c' hc' making hmaking
    exact h.makings c' (List.mem_filter.mp hc').1 making hmaking

end Uses

/-! ## Tasks of the background -/

section Tasks

variable {d d₁ : Daemon} {env : Env} {task : Task} {making : Making}

/-- A task is added, and its config counts up. -/
theorem Counted.addTask (h : Counted d) (hsound : task.Sound d) :
    Counted (incUseCount task.metaSnapper { d with tasks := d.tasks ++ [task] }) := by
  have hpending : Daemon.pending { d with tasks := d.tasks ++ [task] } = d.pending ++ [task] := by
    rw [Daemon.pending, Daemon.pending]
    -- a first task that is counted already is not pending, and the new one goes behind it
    cases hbackground : d.background with
    | counted =>
      obtain ⟨first, rest, htasks⟩ := List.exists_cons_of_ne_nil (h.head hbackground)
      simp [htasks]
    | waiting => rfl
    | comparing making => rfl
  refine Counted.recount (d := d) (f := fun m => if m.id = task.metaSnapper then
    { m with counter := m.counter + 1 } else m) (fun m => ite_same ⟨rfl, rfl⟩) rfl ?_
    h.comparisons h.makings ?_ ?_ ?_
  · intro m hm
    have hqueued : Daemon.queued m.id { d with tasks := d.tasks ++ [task] } =
        d.queued m.id + if task.metaSnapper = m.id then 1 else 0 := by
      rw [Daemon.queued, hpending, Daemon.queued, List.countP_append, List.countP_singleton]
      simp
    have huses : Daemon.uses m { d with tasks := d.tasks ++ [task] } =
        d.uses m + if task.metaSnapper = m.id then 1 else 0 := by
      rw [Daemon.uses, hqueued, Daemon.uses, ← Nat.add_assoc]
      rfl
    show _ = Daemon.uses m { d with tasks := d.tasks ++ [task] }
    rw [huses, ← h.counts m hm, counter_ite]
    by_cases hid : m.id = task.metaSnapper
    · rw [if_pos hid, if_pos hid.symm]
    · rw [if_neg hid, if_neg fun hsame => hid hsame.symm]
      rfl
  · intro task' htask
    have htask : task' ∈ d.pending ++ [task] := by
      rw [← hpending]
      exact htask
    rcases List.mem_append.mp htask with hold | hnew
    · exact h.tasks task' hold
    · obtain rfl := List.mem_singleton.mp hnew
      exact hsound
  · intro making hmaking
    obtain ⟨first, rest, htasks, hid, hmaking'⟩ := h.background making hmaking
    refine ⟨first, rest ++ [task], ?_, hid, hmaking'⟩
    show d.tasks ++ [task] = _
    rw [htasks]
    rfl
  · intro _
    show d.tasks ++ [task] ≠ []
    simp

/-- The background changes what it does with the first task. -/
theorem Counted.setBackground {background : Background} (h : Counted d)
    (hpending : Daemon.pending { d with background := background } = d.pending)
    (hmaking : ∀ making, background = .comparing making →
      ∃ task rest, d.tasks = task :: rest ∧ making.metaSnapper = task.metaSnapper ∧ making.Sound d)
    (hhead : background = .counted → d.tasks ≠ []) :
    Counted { d with background := background } := by
  refine Counted.recount (d := d) (f := fun m => m) (fun _ => ⟨rfl, rfl⟩) (List.map_id _).symm ?_
    h.comparisons h.makings ?_ hmaking hhead
  · intro m hm
    have huses : Daemon.uses m { d with background := background } = d.uses m :=
      uses_congr rfl hpending
    rw [huses]
    exact h.counts m hm
  · rw [hpending]
    exact h.tasks

/-- The comparison of a task is made, and its config counts down. -/
theorem Counted.finishTask (h : Counted d) (hbackground : d.background = .comparing making) :
    Counted { d.release env making.metaSnapper with background := .counted } := by
  obtain ⟨task, rest, htasks, hid, -⟩ := h.background making hbackground
  have hbefore : d.pending = task :: rest := by rw [pending_of_comparing hbackground, htasks]
  -- the task is still the first of the list, but no longer pending
  have hafter : Daemon.pending { d with background := .counted } = rest := by
    show d.tasks.tail = rest
    rw [htasks]
    rfl
  refine Counted.recount (d := d) (f := fun m => if m.id = making.metaSnapper then
    MetaSnapper.dec env m else m) (fun m => ite_same ⟨rfl, rfl⟩) rfl ?_ h.comparisons h.makings
    ?_ ?_ ?_
  · intro m hm
    have hqueued : d.queued m.id = Daemon.queued m.id { d with background := .counted } +
        if m.id = making.metaSnapper then 1 else 0 := by
      rw [Daemon.queued, hbefore, Daemon.queued, hafter, List.countP_cons, hid]
      simp [eq_comm]
    have huses : d.uses m = Daemon.uses m { d with background := .counted } +
        if m.id = making.metaSnapper then 1 else 0 := by
      rw [Daemon.uses, hqueued, Daemon.uses, ← Nat.add_assoc]
      rfl
    have hcounts := h.counts m hm
    show _ = Daemon.uses m { d with background := .counted }
    rw [counter_ite]
    split
    · next hsame =>
      rw [if_pos hsame] at huses
      show m.counter - 1 = _
      omega
    · next hother =>
      rw [if_neg hother] at huses
      omega
  · intro task' htask
    have htask : task' ∈ rest := by
      rw [← hafter]
      exact htask
    apply h.tasks
    rw [hbefore]
    exact List.mem_cons_of_mem _ htask
  · intro making' hmaking
    cases hmaking
  · intro _
    show d.tasks ≠ []
    rw [htasks]
    simp

/-- The task whose use was counted down leaves the list. -/
theorem Counted.popTask (h : Counted d) : Counted d.popTask := by
  rcases popTask_cases with hsame | ⟨hbackground, hpop⟩
  · rw [hsame]
    exact h
  · rw [hpop]
    -- it was no longer among those that hold a use
    have hpending : Daemon.pending { d with tasks := d.tasks.tail, background := .waiting } =
        d.pending := by
      rw [Daemon.pending, Daemon.pending, hbackground]
    refine Counted.recount (d := d) (f := fun m => m) (fun _ => ⟨rfl, rfl⟩) (List.map_id _).symm ?_
      h.comparisons h.makings ?_ ?_ ?_
    · intro m hm
      have huses : Daemon.uses m { d with tasks := d.tasks.tail, background := .waiting } =
          d.uses m := uses_congr rfl hpending
      rw [huses]
      exact h.counts m hm
    · rw [hpending]
      exact h.tasks
    · intro making hmaking
      cases hmaking
    · intro hcounted
      cases hcounted

end Tasks

/-! ## Changes by requests -/

section Requests

variable {d d' : Daemon} {me : Str} {request : Request}

/-- A new config is not in use, and nothing refers to its address. -/
theorem Counted.createConfig {env : Env} {configName : Str} (h : Counted d) (hbase : d.Base) :
    Counted { d with
      metaSnappers := d.metaSnappers ++ [d.createdConfig env configName]
      nextId := d.nextId + 1 } := by
  apply h.of_kept hbase.createConfig _ rfl rfl rfl
  · intro m hm
    show m.counter = d.uses m
    rcases List.mem_append.mp hm with hm | hm
    · exact h.counts m hm
    · obtain rfl := List.mem_singleton.mp hm
      -- whatever is referred to has an id below the new one
      have hold : ∀ {id num}, d.Has id num → id < d.nextId := by
        rintro id num ⟨m, hm, -⟩
        rw [← id_of_metaSnapper hm]
        exact hbase.addresses.nextId m (mem_of_metaSnapper hm)
      have hcomparing : d.comparing d.nextId = 0 := by
        apply List.sum_eq_zero
        intro n hn
        obtain ⟨c, hc, rfl⟩ := List.mem_map.mp hn
        rw [Client.comparing]
        split
        · next making hworker =>
          rw [if_neg]
          obtain ⟨⟨m, hm, -⟩, -⟩ := h.makings c hc making hworker
          have hlt := hbase.addresses.nextId m (mem_of_metaSnapper hm)
          rw [id_of_metaSnapper hm] at hlt
          omega
        · rfl
      have hqueued : d.queued d.nextId = 0 := by
        apply List.countP_eq_zero.mpr
        intro task htask hid
        have hid : task.metaSnapper = d.nextId := by simpa using hid
        have hlt := hold (h.tasks task htask).1
        omega
      show 0 = 0 + d.comparing d.nextId + d.queued d.nextId
      rw [hcomparing, hqueued]
  · intro m hm _
    exact ⟨m, List.mem_append_left _ hm, rfl, rfl, fun _ hhas => hhas⟩

/-- A config that is not in use goes. -/
theorem Counted.removeConfig {m : MetaSnapper} {terminated : Bool} (h : Counted d) (hbase : d.Base)
    (hm : m ∈ d.metaSnappers) (hcounter : m.counter = 0) :
    Counted { d with
      metaSnappers := d.metaSnappers.filter (·.id ≠ m.id)
      terminated := terminated } := by
  apply h.of_kept (hbase.filter _ _) _ rfl rfl rfl
  · intro m' hm'
    exact h.counts m' (List.mem_filter.mp hm').1
  · intro m' hm' hpos
    refine ⟨m', List.mem_filter.mpr ⟨hm', ?_⟩, rfl, rfl, fun _ hhas => hhas⟩
    have hne : m'.id ≠ m.id := by
      intro hid
      have hsame := hbase.metaSnapper_of_mem hm'
      rw [hid, hbase.metaSnapper_of_mem hm] at hsame
      obtain rfl := Option.some.inj hsame
      exact hpos hcounter
    simpa using hne

/-- The comparison that is erased has the address of the one that was found. -/
theorem eraseComparison_perm {c : Client} {comparison : Comparison}
    (hcomparison : comparison ∈ c.comparisons) : ∃ erased ∈ c.comparisons,
      erased.snapper = comparison.snapper ∧
      c.comparisons.Perm (erased :: (c.eraseComparison comparison).comparisons) := by
  obtain ⟨erased, l₁, l₂, -, hsame, hbefore, hafter⟩ := List.exists_of_eraseP
    (p := fun c' : Comparison => c'.snapper = comparison.snapper ∧ c'.num1 = comparison.num1 ∧
      c'.num2 = comparison.num2) hcomparison (by simp)
  have hsnapper : erased.snapper = comparison.snapper := by
    have hsame : erased.snapper = comparison.snapper ∧ erased.num1 = comparison.num1 ∧
      erased.num2 = comparison.num2 := by simpa using hsame
    exact hsame.1
  have herased : (c.eraseComparison comparison).comparisons = l₁ ++ l₂ := hafter
  refine ⟨erased, ?_, hsnapper, ?_⟩
  · rw [hbefore]
    exact List.mem_append_right _ List.mem_cons_self
  · rw [herased, hbefore]
    exact List.perm_middle

/-- Each change by a request keeps the counts: it adds a comparison with its use, takes both away,
or touches neither. -/
theorem Change.counted (h : Change me request d d') (hbase : d.Base) (hd : Counted d) :
    Counted d' := by
  have hbase' : d'.Base := h.base hbase
  cases h with
  | create h => exact h.counted hbase hd
  | mount hrequest h => exact h.counted hbase hd
  | loseInfo hrequest h =>
    apply hd.modMeta hbase hbase' (by intro; rfl) (by intro; rfl)
    intro m _
    exact Or.inl ⟨rfl, fun _ hhas => hhas⟩
  | @erase m num stays hrequest h hinfos =>
    apply hd.modMeta hbase hbase' (by intro; rfl) (by intro; rfl)
    intro m' hm'
    obtain rfl := Option.some.inj (h.find.symm.trans hm')
    -- a config with a deletion has no uses
    refine Or.inr ⟨h.config, ?_⟩
    intro i hi
    exact (setSnapshots_snapperId (f := (·.eraseP (·.num = num)))).symm.trans hi
  | lock h => exact hd.modClient_same (by intro; rfl) (by intro; rfl)
  | unlock h => exact hd.modClient_same (by intro; rfl) (by intro; rfl)
  | addMount h hserves hhas hnum => exact hd.modClient_same (by intro; rfl) (by intro; rfl)
  | removeMount h =>
    have hremove : ∀ c : Client, ∀ key num, (c.removeMount key num).comparisons = c.comparisons ∧
        (c.removeMount key num).worker = c.worker := by
      intro c key num
      rw [Client.removeMount]
      split
      · exact ⟨rfl, rfl⟩
      · split
        · exact ⟨rfl, rfl⟩
        · exact ⟨rfl, rfl⟩
    exact hd.modClient_same (fun c => (hremove c _ _).1) (fun c => (hremove c _ _).2)
  | addTask h => exact hd.addTask h
  | createConfig hnew => exact hd.createConfig hbase
  | removeConfig h hm hcounter => exact hd.removeConfig hbase (mem_of_find hm) hcounter
  | loseInfos h hm hcounter =>
    apply hd.modMeta hbase hbase' (by intro; rfl) (by intro; rfl)
    intro m _
    exact Or.inl ⟨rfl, fun _ hhas => hhas⟩
  | startComparison hidle h hmounted => exact hd.startComparison hbase hidle h
  | endComparison env hrequest hc hcomparison =>
    obtain ⟨erased, -, hsnapper, hperm⟩ := eraseComparison_perm hcomparison
    rw [← hsnapper]
    exact hd.drop hbase hc hperm rfl rfl

/-- No request counts down at zero. -/
theorem Change.not_aborted (h : Change me request d d') (hd : Counted d)
    (haborted : d.aborted = false) : d'.aborted = false := by
  cases h with
  | create h =>
    cases h with
    | edit h => cases h <;> exact haborted
    | makeDir => exact haborted
    | removeDir => exact haborted
    | insert => exact haborted
  | mount hrequest h =>
    cases h with
    | edit h => cases h <;> exact haborted
    | recount => exact haborted
  | @endComparison c comparison env hrequest hc hcomparison =>
    have hsame : (decUseCount env comparison.snapper d).aborted = d.aborted :=
      hd.drop_aborted (mem_of_client hc) hcomparison
    exact hsame.trans haborted
  | _ => exact haborted

end Requests

end Snapper.Server
