import Snapper.Server.Counted

/-!
# Every step keeps the counts

The comparisons in progress, the background and the end of a client change counts at several
places.  A step of each keeps the counts equal to the numbers of uses; a client that goes is
followed one comparison at a time.

## Main results

* `Counting.step`: a step keeps the counts.
-/

namespace Snapper.Server

open General

/-! ## The invariant -/

/-- The invariant of all runs: no assertion fails, and while the daemon runs the counts are
right. -/
structure Counting (d : Daemon) : Prop where
  aborted : d.aborted = false
  counted : d.terminated = false → Counted d

section Steps

variable {d d' : Daemon} {env : Env} {name : Str} {id : Nat}

theorem Recount.aborted (h : Recount d d') : d'.aborted = d.aborted := by
  cases h with
  | edit h => cases h <;> rfl
  | recount => rfl

/-- Mounting and unmounting keeps what is known about counts. -/
theorem Recount.steps_counted (h : Relation.ReflTransGen Recount d d') (hbase : d.Base)
    (hd : Counted d) : d'.Base ∧ Counted d' :=
  Act.keeps_of_steps (I := fun d => d.Base ∧ Counted d)
    (fun _ _ h hd => ⟨h.base hd.1, h.counted hd.1 hd.2⟩) h ⟨hbase, hd⟩

theorem Recount.steps_aborted (h : Relation.ReflTransGen Recount d d') :
    d'.aborted = d.aborted := by
  induction h with
  | refl => rfl
  | tail _ hstep ih => exact hstep.aborted.trans ih

/-- Mounting and unmounting does not depend on the clients. -/
theorem Recount.withClients {clients : List Client} (h : Recount d d') :
    Recount { d with clients := clients } { d' with clients := clients } := by
  cases h with
  | edit h =>
    apply Recount.edit
    cases h with
    | send msg => exact Edit.send msg
    | load hm hunloaded hfind => exact Edit.load hm hunloaded hfind
    | use id now => exact Edit.use id now
    | edit id num hnum hcount => exact Edit.edit id num hnum hcount
    | write hm hs hnum => exact Edit.write hm hs hnum
  | recount id num hnum => exact Recount.recount id num hnum

theorem Recount.steps_withClients {clients : List Client}
    (h : Relation.ReflTransGen Recount d d') :
    Relation.ReflTransGen Recount { d with clients := clients } { d' with clients := clients } := by
  induction h with
  | refl => exact .refl
  | tail _ hstep ih => exact ih.tail hstep.withClients

/-- The end of the daemon. -/
theorem Counting.of_terminated (haborted : d.aborted = false) (h : d.terminated = true) :
    Counting d := by
  refine ⟨haborted, fun hrunning => ?_⟩
  rw [h] at hrunning
  cases hrunning

theorem Counting.of_counted (haborted : d.aborted = false) (h : Counted d) : Counting d :=
  ⟨haborted, fun _ => h⟩

theorem Counted.receive {request : Request} (h : Counted d) :
    Counted (d.receive name request) := by
  have hknown : Counted (if (d.client name).isNone then
      { d with clients := d.clients ++ [Client.new name] } else d) := by
    split
    · refine Counted.recount (d := d) (f := fun m => m) (fun _ => ⟨rfl, rfl⟩) (List.map_id _).symm
        ?_ ?_ ?_ h.tasks h.background h.head
      · intro m hm
        -- the new client refers to nothing
        have hsum : ∀ w : Client → ℕ, w (Client.new name) = 0 →
            ((d.clients ++ [Client.new name]).map w).sum = (d.clients.map w).sum := by
          intro w hw
          simp [hw]
        have hheld : ∀ snapper, Daemon.heldBy snapper
            { d with clients := d.clients ++ [Client.new name] } = d.heldBy snapper :=
          fun snapper => hsum _ rfl
        have hcomparing : Daemon.comparing m.id
            { d with clients := d.clients ++ [Client.new name] } = d.comparing m.id := hsum _ rfl
        have hqueued : Daemon.queued m.id
            { d with clients := d.clients ++ [Client.new name] } = d.queued m.id := rfl
        show m.counter = _
        rw [h.counts m hm, Daemon.uses, Daemon.uses, hcomparing, hqueued]
        cases m.snapperId with
        | none => rfl
        | some snapper =>
          dsimp only
          rw [hheld]
      · intro c hc comparison hcomparison
        rcases List.mem_append.mp hc with hold | hnew
        · exact h.comparisons c hold comparison hcomparison
        · obtain rfl := List.mem_singleton.mp hnew
          cases hcomparison
      · intro c hc making hmaking
        rcases List.mem_append.mp hc with hold | hnew
        · exact h.makings c hold making hmaking
        · obtain rfl := List.mem_singleton.mp hnew
          cases hmaking
    · exact h
  exact hknown.modClient_same (by intro; rfl) (by intro; rfl)

theorem Counting.work (hbase : d.Base) (haborted : d.aborted = false) (h : Counted d) :
    Counting (d.work name env) := by
  have hcases : d.work name env = d ∨ _ := work_cases
  rcases hcases with hsame | ⟨client, request, rest, hclient, hworker, -, hwork⟩
  · rw [hsame]
    exact Counting.of_counted haborted h
  · rw [hwork]
    have htaken : (d.modClient name fun c => { c with tasks := c.tasks.tail }).Base :=
      hbase.modClient (by intro; rfl)
    have hcounted : Counted (d.modClient name fun c => { c with tasks := c.tasks.tail }) :=
      h.modClient_same (by intro; rfl) (by intro; rfl)
    have hstep : ∀ d d', Change name request d d' → d.Base ∧ Counted d ∧ d.aborted = false →
        d'.Base ∧ Counted d' ∧ d'.aborted = false := fun d d' hchange hd =>
      ⟨hchange.base hd.1, hchange.counted hd.1 hd.2.1, hchange.not_aborted hd.2.1 hd.2.2⟩
    have hchanges : Relation.ReflTransGen (Change name request) _ (dispatch env name request _) :=
      dispatch_changes htaken (idle_of_taken hclient hworker)
    obtain ⟨-, hcounted', haborted'⟩ :=
      Act.keeps_of_steps hstep hchanges ⟨htaken, hcounted, haborted⟩
    exact Counting.of_counted haborted' hcounted'

/-- A worker that makes no comparison ends. -/
theorem Counted.endWorker (h : Counted d) (hbase : d.Base) : Counted (d.endWorker name) := by
  have hcases : d.endWorker name = d ∨ _ := endWorker_cases
  rcases hcases with hsame | ⟨client, hclient, hworker, -, hend⟩
  · rw [hsame]
    exact h
  · rw [hend]
    apply h.modClient
    intro c hc hname
    have hsame := hbase.addresses.client_of_mem hc
    rw [hname] at hsame
    obtain rfl := Option.some.inj (hclient.symm.trans hsame)
    refine ⟨rfl, ?_, ?_⟩
    · intro id
      simp [Client.comparing, hworker]
    · intro making hmaking
      cases hmaking

/-- The client whose worker makes a comparison. -/
theorem client_of_making {making : Making} (h : d.making name = some making) :
    ∃ c, d.client name = some c ∧ c.worker = .comparing making := by
  rw [Daemon.making] at h
  cases hclient : d.client name with
  | none =>
    rw [hclient] at h
    cases h
  | some c =>
    rw [hclient] at h
    dsimp only at h
    split at h
    · next making' hworker =>
      cases h
      exact ⟨c, rfl, hworker⟩
    · cases h

theorem client_of_clients (hsame : d'.clients = d.clients) : d'.client name = d.client name := by
  rw [Daemon.client, hsame]
  rfl

/-- The comparison of a client fails, after some mounting. -/
theorem Counting.failed {making : Making} {e : Exception} (hbase : d.Base)
    (haborted : d.aborted = false) (h : Counted d) (hmaking : d.making name = some making) :
    Counting (d.failed env name making e) := by
  obtain ⟨c, hc, hworker⟩ := client_of_making hmaking
  have hstop : Counted ((d.setWorker name .waiting).release env making.metaSnapper) :=
    h.stopComparison hbase hc hworker (by intro making' hsame; cases hsame)
  have hpos : ∀ m ∈ d.metaSnappers, m.id = making.metaSnapper → m.counter ≠ 0 :=
    fun m hm hid => h.pos_of_making (mem_of_client hc) hworker hm hid
  have hrelease : ((d.setWorker name .waiting).release env making.metaSnapper).aborted =
      (d.setWorker name .waiting).aborted := Counted.release_aborted hpos
  apply Counting.of_counted
  · exact hrelease.trans haborted
  · exact hstop.of_same hbase.failed rfl rfl rfl rfl

/-- The comparison is recorded, after some unmounting. -/
theorem Counting.finished {making : Making} {num1 num2 : UInt32} {files : List DBus.SentFile}
    (hbase : d.Base) (haborted : d.aborted = false) (h : Counted d)
    (hmaking : d.making name = some making) (hsnapshots : making.snapshots = some (num1, num2)) :
    Counting (d.finished env name making ⟨making.snapper, num1, num2, files⟩) := by
  obtain ⟨c, hc, hworker⟩ := client_of_making hmaking
  have hnums : making.snapshot1 = some num1 ∧ making.snapshot2 = some num2 := by
    rw [Making.snapshots] at hsnapshots
    split at hsnapshots
    · next n1 n2 h1 h2 =>
      split at hsnapshots
      · cases hsnapshots
      · cases hsnapshots
        exact ⟨h1, h2⟩
    · cases hsnapshots
  apply Counting.of_counted
  · -- the count went up just before
    have hpos : ∀ m ∈ (incUseCount making.metaSnapper (d.modClient name fun c =>
        { c with comparisons := c.comparisons ++ [⟨making.snapper, num1, num2, files⟩],
                 worker := .waiting })).metaSnappers, m.id = making.metaSnapper →
                   m.counter ≠ 0 := by
      intro m hm hid
      obtain ⟨m', -, ⟨-, rfl⟩ | ⟨hne, rfl⟩⟩ := mem_modMeta hm
      · exact Nat.succ_ne_zero _
      · exact absurd hid hne
    have hrelease : (d.finished env name making ⟨making.snapper, num1, num2, files⟩).aborted =
        d.aborted := Counted.release_aborted (d := Daemon.send _ (incUseCount _ _)) hpos
    exact hrelease.trans haborted
  · exact h.finished hbase hc hworker rfl hnums.1 hnums.2

/-- Mounting and unmounting leaves the comparison that a client waits for. -/
theorem Recount.steps_making (h : Relation.ReflTransGen Recount d d') :
    d'.making name = d.making name := by
  rw [Daemon.making, Daemon.making, client_of_clients (Recount.steps_clients h)]

/-- What the steps of a comparison keep. -/
theorem Recount.steps_comparing (hsteps : Relation.ReflTransGen Recount d d') (hbase : d.Base)
    (haborted : d.aborted = false) (h : Counted d) (hmaking : d.making name = some making) :
    d'.Base ∧ Counted d' ∧ d'.aborted = false ∧ d'.making name = some making := by
  obtain ⟨hbase', hcounted⟩ := Recount.steps_counted hsteps hbase h
  exact ⟨hbase', hcounted, (Recount.steps_aborted hsteps).trans haborted,
    (Recount.steps_making hsteps).trans hmaking⟩

/-- The constructor opens the config while its use is counted, so no unload comes between. -/
theorem Counting.mountComparison (hbase : d.Base) (haborted : d.aborted = false) (h : Counted d) :
    Counting (d.mountComparison name env) := by
  have hcases : d.mountComparison name env = d ∨ _ := mountComparison_cases
  rcases hcases with hsame | ⟨making, num1, num2, d₁, hmaking, -, -, hsteps, hrest⟩
  · rw [hsame]
    exact Counting.of_counted haborted h
  · obtain ⟨hbase₁, hcounted₁, haborted₁, hmaking₁⟩ :=
      Recount.steps_comparing hsteps hbase haborted h hmaking
    rcases hrest with ⟨-, hmounted⟩ | ⟨e, -, hfailed⟩
    · rw [hmounted]
      obtain ⟨c, hc, hworker⟩ := client_of_making hmaking₁
      refine Counting.of_counted haborted₁ ?_
      apply hcounted₁.modClient
      intro c' hc' hname
      have hsame := hbase₁.addresses.client_of_mem hc'
      rw [hname] at hsame
      obtain rfl := Option.some.inj (hc.symm.trans hsame)
      refine ⟨rfl, ?_, ?_⟩
      · intro id
        simp [Client.comparing, hworker]
      · -- the comparison is the same, but for the mark
        intro making' hmaking'
        cases hmaking'
        exact hcounted₁.makings c hc' making hworker
    · rw [hfailed]
      exact Counting.failed hbase₁ haborted₁ hcounted₁ hmaking₁

/-- The comparison that was being made is handed to the client, its use with it. -/
theorem Counting.finishComparison {files : List DBus.SentFile} (hbase : d.Base)
    (haborted : d.aborted = false) (h : Counted d) :
    Counting (d.finishComparison name env files) := by
  have hcases : d.finishComparison name env files = d ∨ _ := finishComparison_cases
  rcases hcases with hsame | ⟨making, num1, num2, d₁, hmaking, hsnapshots, hsteps, hrest⟩
  · rw [hsame]
    exact Counting.of_counted haborted h
  · obtain ⟨hbase₁, hcounted₁, haborted₁, hmaking₁⟩ :=
      Recount.steps_comparing hsteps hbase haborted h hmaking
    rcases hrest with ⟨-, hfinished⟩ | ⟨e, -, -, hfailed⟩
    · rw [hfinished]
      exact Counting.finished hbase₁ haborted₁ hcounted₁ hmaking₁ hsnapshots
    · rw [hfailed]
      exact Counting.failed hbase₁ haborted₁ hcounted₁ hmaking₁

/-- A constructor that fails gives its use back. -/
theorem Counting.failComparison {failure : Failure} (hbase : d.Base)
    (haborted : d.aborted = false) (h : Counted d) :
    Counting (d.failComparison name env failure) := by
  have hcases : d.failComparison name env failure = d ∨ _ := failComparison_cases
  rcases hcases with hsame | ⟨making, hmaking, ⟨e, hfailed⟩ | ⟨-, hreleased⟩⟩
  · rw [hsame]
    exact Counting.of_counted haborted h
  · rw [hfailed]
    exact Counting.failed hbase haborted h hmaking
  · rw [hreleased]
    obtain ⟨c, hc, hworker⟩ := client_of_making hmaking
    have hpos : ∀ m ∈ d.metaSnappers, m.id = making.metaSnapper → m.counter ≠ 0 :=
      fun m hm hid => h.pos_of_making (mem_of_client hc) hworker hm hid
    have hrelease : ((d.setWorker name .ended).release env making.metaSnapper).aborted =
        (d.setWorker name .ended).aborted := Counted.release_aborted hpos
    apply Counting.of_counted
    · exact hrelease.trans haborted
    · exact h.stopComparison hbase hc hworker (by intro making' hsame; cases hsame)

theorem Recount.steps_tasks (h : Relation.ReflTransGen Recount d d') :
    d'.tasks = d.tasks ∧ d'.background = d.background := by
  induction h with
  | refl => exact ⟨rfl, rfl⟩
  | tail _ hstep ih =>
    rw [← ih.1, ← ih.2]
    cases hstep with
    | edit h => cases h <;> exact ⟨rfl, rfl⟩
    | recount => exact ⟨rfl, rfl⟩

/-- The config of a task is loaded, so it is only used. -/
theorem openedAt_of_task {task : Task} (h : task.Sound d) :
    Edit d (d.openedAt env task.metaSnapper) ∧ ∀ m,
      (d.openedAt env task.metaSnapper).metaSnapper task.metaSnapper = some m →
        m.isLoaded = true := by
  obtain ⟨⟨m, hm, s, hs, -⟩, -⟩ := h
  have hloaded : m.isLoaded = true := isLoaded_of_mem hs
  have hopened : d.openedAt env task.metaSnapper =
      d.modMeta task.metaSnapper fun m => { m with lastUsed := env.now } := by
    rw [Daemon.openedAt, hm]
    dsimp only
    rw [Daemon.opened, if_pos hloaded, id_of_metaSnapper hm]
  rw [hopened]
  refine ⟨Edit.use _ _, ?_⟩
  intro m' hm'
  rw [metaSnapper_modMeta (by intro; rfl), hm] at hm'
  cases hm'
  exact hloaded

theorem Counting.startTask (hbase : d.Base) (haborted : d.aborted = false) (h : Counted d) :
    Counting (d.startTask env) := by
  have hcases : d.startTask env = d ∨ d.startTask env = d.terminate ∨ _ := startTask_cases
  rcases hcases with hsame | hend | ⟨task, rest, hbackground, htasks, hstart⟩
  · rw [hsame]
    exact Counting.of_counted haborted h
  · rw [hend]
    exact Counting.of_terminated haborted rfl
  · have hpending : ∀ {d : Daemon}, d.background = .waiting → d.pending = d.tasks := by
      intro d hwaiting
      rw [Daemon.pending, hwaiting]
    have htask : task ∈ d.pending := by
      rw [hpending hbackground, htasks]
      exact List.mem_cons_self
    -- the first task opens its config, which counts nothing
    obtain ⟨hedit, hloaded⟩ : Edit d (d.openedAt env task.metaSnapper) ∧ _ :=
      openedAt_of_task (h.tasks task htask)
    have hrecount := Recount.edit hedit
    have hcounted₁ := hedit.counted hbase h
    obtain ⟨htasks₁, hbackground₁⟩ := Recount.steps_tasks (.single hrecount)
    rw [hstart]
    refine Counting.of_counted (hrecount.aborted.trans haborted) ?_
    have hpending₁ := hpending (hbackground₁.trans hbackground)
    -- the task was counted when it was queued, and is still pending
    apply hcounted₁.setBackground
    · rw [hpending₁]
      rfl
    · intro making hmaking
      cases hmaking
      refine ⟨task, rest, htasks₁.trans htasks, rfl, ?_⟩
      have htask₁ : task ∈ (d.openedAt env task.metaSnapper).pending := by
        rw [hpending₁, htasks₁, htasks]
        exact List.mem_cons_self
      obtain ⟨h1, h2⟩ := hcounted₁.tasks task htask₁
      refine ⟨?_, ?_, ?_⟩
      · obtain ⟨m, hm, -⟩ := h1
        exact ⟨m, hm, snapperOf_eq hm (hloaded m hm)⟩
      · rintro num hnum
        cases hnum
        exact h1
      · rintro num hnum
        cases hnum
        exact h2
    · intro hcounted
      cases hcounted

/-- The background mounts the snapshots of its comparison; whether that succeeds or not, the uses
stay. -/
theorem Counting.mountTask (hbase : d.Base) (haborted : d.aborted = false) (h : Counted d) :
    Counting (d.mountTask env) := by
  have hcases : d.mountTask env = d ∨ _ := mountTask_cases
  rcases hcases with hsame | ⟨d₁, hsteps, hend⟩ |
    ⟨making, num1, num2, d₁, hbackground, -, -, hsteps, -, hmount⟩
  · rw [hsame]
    exact Counting.of_counted haborted h
  · rw [hend]
    exact Counting.of_terminated ((Recount.steps_aborted hsteps).trans haborted) rfl
  · obtain ⟨hbase₁, hcounted₁⟩ := Recount.steps_counted hsteps hbase h
    have hbackground₁ := (Recount.steps_tasks hsteps).2.trans hbackground
    rw [hmount]
    refine Counting.of_counted ((Recount.steps_aborted hsteps).trans haborted) ?_
    apply hcounted₁.setBackground
    · rw [pending_of_comparing hbackground₁]
      rfl
    · intro making' hmaking
      cases hmaking
      obtain ⟨task, rest, htasks, hid, hsound⟩ := hcounted₁.background making hbackground₁
      exact ⟨task, rest, htasks, hid, hsound⟩
    · intro hcounted
      cases hcounted

theorem Counting.finishTask (hbase : d.Base) (haborted : d.aborted = false) (h : Counted d) :
    Counting (d.finishTask env) := by
  have hcases : d.finishTask env = d ∨ _ := finishTask_cases
  rcases hcases with hsame | ⟨d₁, hsteps, hend⟩ |
    ⟨making, num1, num2, d₁, hbackground, -, hsteps, -, hfinish⟩
  · rw [hsame]
    exact Counting.of_counted haborted h
  · rw [hend]
    exact Counting.of_terminated ((Recount.steps_aborted hsteps).trans haborted) rfl
  · obtain ⟨-, hcounted₁⟩ := Recount.steps_counted hsteps hbase h
    have hbackground₁ := (Recount.steps_tasks hsteps).2.trans hbackground
    rw [hfinish]
    apply Counting.of_counted
    · -- the task is not counted down before
      have hpos : ∀ m ∈ d₁.metaSnappers, m.id = making.metaSnapper → m.counter ≠ 0 := by
        intro m hm hid
        obtain ⟨task, rest, htasks, hid', -⟩ := hcounted₁.background making hbackground₁
        have htask : task ∈ d₁.pending := by
          rw [pending_of_comparing hbackground₁, htasks]
          exact List.mem_cons_self
        exact hcounted₁.pos_of_task htask hm (hid.trans hid')
      have hrelease : (d₁.release env making.metaSnapper).aborted = d₁.aborted :=
        Counted.release_aborted hpos
      exact hrelease.trans ((Recount.steps_aborted hsteps).trans haborted)
    · exact hcounted₁.finishTask hbackground₁

/-- Putting back the comparisons that a client has changes nothing. -/
theorem setComparisons_self {c : Client} (hbase : d.Base) (hc : d.client name = some c) :
    (setComparisons name c.comparisons d).clients = d.clients := by
  apply update_eq_self_iff.mpr
  intro c' hc' hname
  have hsame := hbase.addresses.client_of_mem hc'
  rw [hname] at hsame
  obtain rfl := Option.some.inj (hc.symm.trans hsame)
  rfl

/-- A client goes: its comparisons are counted down, then its mounts go, then it is removed. -/
theorem Counting.reap (hbase : d.Base) (haborted : d.aborted = false) (h : Counted d) :
    Counting (d.reap name env) := by
  have hcases : d.reap name env = d ∨ _ := reap_cases
  rcases hcases with hsame | ⟨c, d₁, hc, hworker, -, hrest⟩
  · rw [hsame]
    exact Counting.of_counted haborted h
  · have hstart : Counted (setComparisons name c.comparisons d) :=
      h.of_same (hbase.modClient (by intro; rfl)) rfl (setComparisons_self hbase hc) rfl rfl
    obtain ⟨hsame, hcounted⟩ : (decAll env c.comparisons d).aborted = d.aborted ∧ _ :=
      hstart.decAll hbase hc
    have hdec : (decAll env c.comparisons d).Base := hbase.decAll
    have hsteps : ∀ {r},
        (umountAll env c.mounts.entries).run (decAll env c.comparisons d) = (r, d₁) →
        Relation.ReflTransGen Recount (decAll env c.comparisons d) d₁ :=
      fun hrun => umountAll_through.steps_of_run hdec hrun
    rcases hrest with ⟨hrun, hreap⟩ | ⟨e, hrun, hend⟩
    · rw [hreap]
      have hclients := Recount.steps_clients (hsteps hrun)
      refine Counting.of_counted
        ((Recount.steps_aborted (hsteps hrun)).trans (hsame.trans haborted)) ?_
      -- without the client, the state after the count down is right
      have hc' : (setComparisons name [] (decAll env c.comparisons d)).client name =
          some { c with comparisons := [] } := by
        apply client_setComparisons
        rw [client_of_clients decAll_clients]
        exact hc
      have hremove := hcounted.remove (hdec.modClient (by intro; rfl)) hc' rfl hworker
      have hfilter : (setComparisons name [] (decAll env c.comparisons d)).clients.filter
          (·.name ≠ name) = d₁.clients.filter (·.name ≠ name) := by
        rw [hclients]
        exact filter_update_ne (by intro; rfl)
      rw [hfilter] at hremove
      have hgone : Counted { decAll env c.comparisons d with
          clients := d₁.clients.filter (·.name ≠ name) } := hremove
      have hbase' : Daemon.Base { decAll env c.comparisons d with
          clients := d₁.clients.filter (·.name ≠ name) } := by
        apply hdec.of_same
        · rfl
        · rfl
        · rw [hclients]
          exact (List.filter_sublist.map _).nodup hdec.addresses.names
      exact (Recount.steps_counted (Recount.steps_withClients (hsteps hrun)) hbase' hgone).2
    · rw [hend]
      exact Counting.of_terminated
        ((Recount.steps_aborted (hsteps hrun)).trans (hsame.trans haborted)) rfl

/-- Only a config that is not in use is unloaded, so no comparison loses its snapshots. -/
theorem Counting.unload (hbase : d.Base) (haborted : d.aborted = false) (h : Counted d) :
    Counting (d.unload id env) := by
  have hcases : d.unload id env = d ∨ _ := unload_cases
  have hbase' : (d.unload id env).Base := hbase.unload
  rcases hcases with hsame | ⟨-, written, -, -, -, hend⟩ | ⟨m, hm, -, hcounter, -, hunload⟩
  · rw [hsame]
    exact Counting.of_counted haborted h
  · rw [hend]
    exact Counting.of_terminated haborted rfl
  · rw [hunload] at hbase' ⊢
    refine Counting.of_counted haborted ?_
    apply h.modMeta hbase hbase' (by intro; rfl) (by intro; rfl)
    intro m' hm'
    obtain rfl := Option.some.inj (hm.symm.trans hm')
    refine Or.inr ⟨hcounter, ?_⟩
    intro i hi
    cases hi

/-- Each step keeps the counts. -/
theorem Counting.step (h : Counting d) (hbase : d.Base) (a : Action) : Counting (d.step a) := by
  rw [Daemon.step.eq_def]
  split
  · exact h
  · next hrunning =>
    obtain ⟨haborted, hterminated⟩ := not_or.mp hrunning
    have haborted : d.aborted = false := by simpa using haborted
    have hcounted : Counted d := h.counted (by simpa using hterminated)
    -- one lemma for each action; the ones below touch no counter themselves
    cases a with
    | receive name request =>
      have hsame : (d.receive name request).aborted = d.aborted := by
        rw [Daemon.receive]
        split
        · rfl
        · rfl
      exact Counting.of_counted (hsame.trans haborted) hcounted.receive
    | disconnect name =>
      exact Counting.of_counted haborted (hcounted.modClient_same (by intro; rfl) (by intro; rfl))
    | work name env => exact Counting.work hbase haborted hcounted
    | endWorker name =>
      have hsame : (d.endWorker name).aborted = d.aborted := by
        have hcases : d.endWorker name = d ∨ _ := endWorker_cases
        rcases hcases with hsame | ⟨-, -, -, -, hend⟩
        · rw [hsame]
        · rw [hend]
          rfl
      exact Counting.of_counted (hsame.trans haborted) (hcounted.endWorker hbase)
    | mountComparison name env => exact Counting.mountComparison hbase haborted hcounted
    | finishComparison name env files => exact Counting.finishComparison hbase haborted hcounted
    | failComparison name env failure => exact Counting.failComparison hbase haborted hcounted
    | startTask env => exact Counting.startTask hbase haborted hcounted
    | mountTask env => exact Counting.mountTask hbase haborted hcounted
    | finishTask env => exact Counting.finishTask hbase haborted hcounted
    | popTask =>
      have hsame : d.popTask.aborted = d.aborted := by
        rcases popTask_cases with hsame | ⟨-, hpop⟩
        · rw [hsame]
        · rw [hpop]
      exact Counting.of_counted (hsame.trans haborted) hcounted.popTask
    | reap name env => exact Counting.reap hbase haborted hcounted
    | unload id env => exact Counting.unload hbase haborted hcounted
    | race id num userRequest useCount =>
      exact Counting.of_counted haborted (race_recount.counted hbase hcounted)
    | spoil id nums =>
      exact Counting.of_counted haborted (hcounted.modMeta hbase hbase.spoil (by intro; rfl)
        (by intro; rfl) fun _ _ => Or.inl ⟨rfl, fun _ hnum => hnum⟩)

end Steps

end Snapper.Server
