import Snapper.Server.Locks
import Snapper.Server.Stays
import Snapper.Server.Replies

/-!
# Where the files of a reply come from

The comparisons that a client can ask for the files of are its own, each put there when the
constructor of a comparison of its worker returned.

## Main results

* `step_holds`: the only step that gives a client a comparison.
* `files_of_own_comparison`: `GetFiles` is answered with what a comparison of the same client
  of the same snapshots has found.
-/

namespace Snapper.Server

open General Act

/-- The client has this comparison. -/
def Daemon.Holds (name : Str) (comparison : Comparison) (d : Daemon) : Prop :=
  ∃ c ∈ d.clients, c.name = name ∧ comparison ∈ c.comparisons

section Holds

variable {d d' : Daemon} {name me : Str} {comparison : Comparison} {request : Request} {env : Env}
  {g : Client → Client} {id : Nat}

theorem holds_of_clients (hclients : d'.clients = d.clients) (h : d'.Holds name comparison) :
    d.Holds name comparison := by
  rwa [Daemon.Holds, ← hclients]

/-- A change of a client that gives it no new comparison gives nobody one. -/
theorem holds_modClient (h : (d.modClient me g).Holds name comparison)
    (hname : ∀ c, (g c).name = c.name)
    (hg : ∀ c, comparison ∈ (g c).comparisons → comparison ∈ c.comparisons) :
    d.Holds name comparison := by
  obtain ⟨c', hc', hcname, hcomparison⟩ := h
  obtain ⟨c, hc, ⟨-, rfl⟩ | ⟨-, rfl⟩⟩ := mem_update hc'
  · exact ⟨c, hc, (hname c).symm.trans hcname, hg c hcomparison⟩
  · exact ⟨c', hc, hcname, hcomparison⟩

theorem comparisons_removeMount {c : Client} {configName : Str} {num : UInt32} :
    (c.removeMount configName num).comparisons = c.comparisons := by
  rw [Client.removeMount]
  split
  · rfl
  · split
    · rfl
    · rfl

/-- No change of a request gives a comparison to a client. -/
theorem Change.holds (h : Change me request d d') (hholds : d'.Holds name comparison) :
    d.Holds name comparison := by
  -- the comparisons of a client change only where one is taken away
  cases h with
  | create h =>
    cases h with
    | edit h => exact holds_of_clients h.clients hholds
    | makeDir => exact hholds
    | removeDir => exact hholds
    | insert => exact hholds
  | mount hrequest h => exact holds_of_clients h.clients hholds
  | loseInfo => exact hholds
  | erase => exact hholds
  | lock => exact holds_modClient hholds (by intro; rfl) fun _ h => h
  | unlock => exact holds_modClient hholds (by intro; rfl) fun _ h => h
  | addMount => exact holds_modClient hholds (by intro; rfl) fun _ h => h
  | removeMount =>
    refine holds_modClient hholds (fun c => congrArg Desk.name desk_removeMount) fun c h => ?_
    rwa [comparisons_removeMount] at h
  | addTask => exact hholds
  | createConfig => exact hholds
  | removeConfig => exact hholds
  | loseInfos => exact hholds
  | startComparison =>
    have hback := holds_modClient hholds (by intro; rfl) fun _ h => h
    exact hback
  | endComparison =>
    have hback := holds_modClient hholds (by intro; rfl) fun _ h =>
      List.mem_of_mem_eraseP h
    exact hback

theorem Changes.holds (h : Relation.ReflTransGen (Change me request) d d')
    (hholds : d'.Holds name comparison) : d.Holds name comparison := by
  induction h with
  | refl => exact hholds
  | tail _ hstep ih => exact ih (hstep.holds hholds)

theorem failed_holds {making : Making} {e : Exception}
    (h : (d.failed env me making e).Holds name comparison) : d.Holds name comparison := by
  have hback : (d.setWorker me .waiting).Holds name comparison := h
  exact holds_modClient hback (by intro; rfl) fun _ h => h

/-- Where the comparison has no failure it is put to the others. -/
theorem finishComparison_holds {files : List DBus.SentFile}
    (h : (d.finishComparison me env files).Holds name comparison) :
    d.Holds name comparison ∨ me = name ∧ ∃ making num1 num2,
      d.making me = some making ∧ making.snapshots = some (num1, num2) ∧
        comparison = ⟨making.snapper, num1, num2, files⟩ := by
  have hcases : d.finishComparison me env files = d ∨ _ := finishComparison_cases
  rcases hcases with hsame | ⟨making, num1, num2, d₁, hmaking, hsnapshots, hsteps, hrest⟩
  · rw [hsame] at h
    exact Or.inl h
  · have hclients := Recount.steps_clients hsteps
    rcases hrest with ⟨-, hfinished⟩ | ⟨e, -, -, hfailed⟩
    · rw [hfinished] at h
      obtain ⟨c', hc', hname, hcomparison⟩ := h
      obtain ⟨c, hc, ⟨hme, rfl⟩ | ⟨-, rfl⟩⟩ := mem_update hc'
      · rw [hclients] at hc
        -- one of those that the client had, or the new one
        rcases List.mem_append.mp hcomparison with hold | hnew
        · exact Or.inl ⟨c, hc, hname, hold⟩
        · exact Or.inr ⟨hme.symm.trans hname, making, num1, num2, hmaking, hsnapshots,
            List.mem_singleton.mp hnew⟩
      · rw [hclients] at hc
        exact Or.inl ⟨c', hc, hname, hcomparison⟩
    · rw [hfailed] at h
      exact Or.inl (holds_of_clients hclients (failed_holds h))

/-- A worker does not bring a comparison itself, it only starts to make one. -/
theorem work_holds (hbase : d.Base) (h : (d.work me env).Holds name comparison) :
    d.Holds name comparison := by
  have hcases : d.work me env = d ∨ _ := work_cases
  rcases hcases with hsame | ⟨c, request, rest, hclient, hworker, htasks, hwork⟩
  · rwa [hsame] at h
  · rw [hwork] at h
    have htaken : (d.modClient me fun c => { c with tasks := c.tasks.tail }).Base :=
      hbase.modClient (by intro; rfl)
    exact holds_modClient
      (Changes.holds (dispatch_changes htaken (idle_of_taken hclient hworker)) h)
      (by intro; rfl) fun _ h => h

theorem receive_holds (h : (d.receive me request).Holds name comparison) :
    d.Holds name comparison := by
  have hback := holds_modClient h (by intro; rfl) fun _ h => h
  split at hback
  · obtain ⟨c, hc, hname, hcomparison⟩ := hback
    rcases List.mem_append.mp hc with hold | hnew
    · exact ⟨c, hold, hname, hcomparison⟩
    · -- a new client has none
      rw [List.mem_singleton.mp hnew] at hcomparison
      cases hcomparison
  · exact hback

theorem mountComparison_holds (h : (d.mountComparison me env).Holds name comparison) :
    d.Holds name comparison := by
  have hcases : d.mountComparison me env = d ∨ _ := mountComparison_cases
  rcases hcases with hsame | ⟨making, num1, num2, d₁, -, -, -, hsteps, hrest⟩
  · rwa [hsame] at h
  · have hclients := Recount.steps_clients hsteps
    rcases hrest with ⟨-, hmount⟩ | ⟨e, -, hfailed⟩
    · rw [hmount] at h
      exact holds_of_clients hclients (holds_modClient h (by intro; rfl) fun _ h => h)
    · rw [hfailed] at h
      exact holds_of_clients hclients (failed_holds h)

/-- A constructor that fails hands no comparison out. -/
theorem failComparison_holds {failure : Failure}
    (h : (d.failComparison me env failure).Holds name comparison) : d.Holds name comparison := by
  have hcases : d.failComparison me env failure = d ∨ _ := failComparison_cases
  rcases hcases with hsame | ⟨making, -, ⟨e, hfailed⟩ | ⟨-, hended⟩⟩
  · rwa [hsame] at h
  · rw [hfailed] at h
    exact failed_holds h
  · rw [hended] at h
    have hback : (d.setWorker me .ended).Holds name comparison := h
    exact holds_modClient hback (by intro; rfl) fun _ h => h

theorem endWorker_holds (h : (d.endWorker me).Holds name comparison) :
    d.Holds name comparison := by
  have hcases : d.endWorker me = d ∨ _ := endWorker_cases
  rcases hcases with hsame | ⟨c, -, -, -, hend⟩
  · rwa [hsame] at h
  · rw [hend] at h
    exact holds_modClient h (by intro; rfl) fun _ h => h

/-- A client that is gone takes its comparisons with it. -/
theorem reap_holds (hbase : d.Base) (h : (d.reap me env).Holds name comparison) :
    d.Holds name comparison := by
  have hclients : (d.reap me env).clients = d.clients ∨ _ := reap_clients hbase
  rcases hclients with hsame | ⟨-, hfilter⟩
  · exact holds_of_clients hsame h
  · obtain ⟨c, hc, hname, hcomparison⟩ := h
    rw [hfilter] at hc
    exact ⟨c, (List.mem_filter.mp hc).1, hname, hcomparison⟩

/-- The background and the periodic work have nothing to do with the comparisons of clients. -/
theorem background_clients (env : Env) (id : Nat) : (d.startTask env).clients = d.clients ∧
    (d.mountTask env).clients = d.clients ∧ (d.finishTask env).clients = d.clients ∧
    d.popTask.clients = d.clients ∧ (d.unload id env).clients = d.clients := by
  refine ⟨?_, ?_, ?_, ?_, ?_⟩
  · have hcases : d.startTask env = d ∨ d.startTask env = d.terminate ∨ _ := startTask_cases
    rcases hcases with hsame | hend | ⟨task, rest, -, -, hstart⟩
    · rw [hsame]
    · rw [hend]
      rfl
    · rw [hstart]
      exact openedAt_clients
  · have hcases : d.mountTask env = d ∨ _ := mountTask_cases
    rcases hcases with hsame | ⟨d₁, hsteps, hend⟩ | ⟨_, _, _, d₁, -, -, -, hsteps, -, hmount⟩
    · rw [hsame]
    · rw [hend]
      have hsame := Recount.steps_clients hsteps
      exact hsame
    · rw [hmount]
      have hsame := Recount.steps_clients hsteps
      exact hsame
  · have hcases : d.finishTask env = d ∨ _ := finishTask_cases
    rcases hcases with hsame | ⟨d₁, hsteps, hend⟩ | ⟨_, _, _, d₁, -, -, hsteps, -, hfinish⟩
    · rw [hsame]
    · rw [hend]
      have hsame := Recount.steps_clients hsteps
      exact hsame
    · rw [hfinish]
      have hsame := Recount.steps_clients hsteps
      exact hsame
  · rcases popTask_cases with hsame | ⟨-, hpop⟩
    · rw [hsame]
    · rw [hpop]
  · have hcases : d.unload id env = d ∨ _ := unload_cases
    rcases hcases with hsame | ⟨-, written, -, -, -, hend⟩ | ⟨m, -, -, -, -, hunload⟩
    · rw [hsame]
    · rw [hend]
      rfl
    · rw [hunload]
      rfl

/-- The only step that gives a client a comparison is the end of one of its worker. -/
theorem step_holds {a : Action} (hbase : d.Base) (h : (d.step a).Holds name comparison) :
    d.Holds name comparison ∨ ∃ env making, a = .finishComparison name env comparison.files ∧
      d.making name = some making ∧ making.snapper = comparison.snapper ∧
      making.snapshots = some (comparison.num1, comparison.num2) := by
  rw [Daemon.step.eq_def] at h
  split at h
  · exact Or.inl h
  -- in every other step a comparison that is there has been there
  · cases a with
    | receive me request => exact Or.inl (receive_holds h)
    | disconnect me =>
      have hback : (d.modClient me fun c => { c with zombie := true }).Holds name comparison := h
      exact Or.inl (holds_modClient hback (by intro; rfl) fun _ h => h)
    | work me env => exact Or.inl (work_holds hbase h)
    | endWorker me => exact Or.inl (endWorker_holds h)
    | mountComparison me env => exact Or.inl (mountComparison_holds h)
    | finishComparison me env files =>
      rcases finishComparison_holds h with hold | ⟨rfl, making, num1, num2, hmaking, hnums, rfl⟩
      · exact Or.inl hold
      · exact Or.inr ⟨env, making, rfl, hmaking, rfl, hnums⟩
    | failComparison me env failure => exact Or.inl (failComparison_holds h)
    | startTask env => exact Or.inl (holds_of_clients (background_clients env 0).1 h)
    | mountTask env => exact Or.inl (holds_of_clients (background_clients env 0).2.1 h)
    | finishTask env => exact Or.inl (holds_of_clients (background_clients env 0).2.2.1 h)
    | popTask =>
      exact Or.inl (holds_of_clients (background_clients Env.quiet 0).2.2.2.1 h)
    | reap me env => exact Or.inl (reap_holds hbase h)
    | unload id env => exact Or.inl (holds_of_clients (background_clients env id).2.2.2.2 h)
    | race id num userRequest useCount => exact Or.inl (holds_of_clients rfl h)
    | spoil id nums => exact Or.inl (holds_of_clients rfl h)

/-! ## The reply -/

/-- What is silent leaves the messages, next to what is known of it. -/
theorem Mute.spec {α : Type} {R : Daemon → Daemon → Prop} {P : Daemon → Prop}
    {Q : α → Daemon → Prop} {c : Handler α} {msgs : List Sent} (hc : Mute c)
    (h : Through R P c Q) :
    Spec (fun d => P d ∧ d.sent = msgs) c (fun a d => Q a d ∧ d.sent = msgs)
      fun _ d => d.sent = msgs := by
  rintro d ⟨hP, hsent⟩
  obtain ⟨-, hpost⟩ := h d hP
  cases hrun : c.run d with
  | mk r d' =>
    rw [hrun] at hpost
    have hsame : d'.sent = msgs := (sent_of_talk (talk_of_calm (hc.run hrun))).trans hsent
    cases r with
    | ok a => exact ⟨hpost a rfl, hsame⟩
    | error e => exact hsame

/-- `find_comparison` finds a comparison of the client. -/
theorem findComparison_holds {num1 num2 : UInt32} {P : Daemon → Prop} :
    Through Edit P (findComparison me id num1 num2) fun comparison d =>
      P d ∧ d.Holds me comparison ∧ comparison.num1 = num1 ∧ comparison.num2 = num2 ∧
        comparison.snapper = d.snapperOf id := by
  apply Through.bind (Q := fun snapper d => P d ∧ d.snapperOf id = snapper)
  · exact Through.read fun _ h => ⟨h, rfl⟩
  intro snapper
  apply Through.bind findSnapshot_through
  intro snapshot1
  apply Through.bind findSnapshot_through
  intro snapshot2
  apply Through.bind (Q := fun client d => (((P d ∧ d.snapperOf id = snapper) ∧
    d.snapshot id num1 = snapshot1) ∧ d.snapshot id num2 = snapshot2) ∧ d.client me = client)
  · exact Through.read fun _ h => ⟨h, rfl⟩
  · intro client
    split
    · exact Through.throw
    · next comparison hfound =>
      obtain ⟨c, rfl, hfind⟩ := Option.bind_eq_some_iff.mp hfound
      apply Through.pure
      rintro d ⟨⟨⟨⟨hP, rfl⟩, rfl⟩, rfl⟩, hclient⟩
      have hmatches := List.find?_some hfind
      simp only [Comparison.matches, Bool.decide_and, Bool.and_eq_true,
        decide_eq_true_eq] at hmatches
      obtain ⟨hsnapper, h1, h2⟩ := hmatches
      -- the iterators were found under the numbers
      have hnum : ∀ {num num' : UInt32}, (d.snapshot id num).map Snapshot.num = some num' →
          num' = num := by
        intro num num' h
        obtain ⟨s, hs, rfl⟩ := Option.map_eq_some_iff.mp h
        exact key_of_lookup hs
      have hmem := List.mem_of_find?_eq_some hfind
      exact ⟨hP, ⟨c, mem_of_client hclient, name_of_client hclient, hmem⟩, hnum h1, hnum h2,
        hsnapper⟩

/-- `get_files` sends the files of a comparison of the client, for these snapshots of the `Snapper`
that the config has now; an exception comes before it sends. -/
theorem getFiles_sends {configName : Str} {num1 num2 : UInt32} (msgs : List Sent) :
    Spec (fun d => d.Base ∧ d.sent = msgs) (getFiles env me configName num1 num2)
      (fun _ d => ∃ comparison m, d.Holds me comparison ∧ comparison.num1 = num1 ∧
        comparison.num2 = num2 ∧ d.find configName = some m ∧
        m.snapperId = some comparison.snapper ∧
        d.sent = msgs ++ [.reply me (.files comparison.files)])
      fun _ d => d.sent = msgs := by
  apply Spec.bind (openConfig_mute.spec openConfig_through)
  intro m
  apply Spec.bind (findComparison_mute.spec findComparison_holds)
  intro comparison
  apply Spec.modify
  rintro d ⟨⟨hserves, hholds, h1, h2, hsnapper⟩, rfl⟩
  obtain ⟨hbase, m', hfind, hid, -, hloaded⟩ := hserves
  refine ⟨comparison, m', hholds, h1, h2, hfind, ?_, rfl⟩
  have hm' := hbase.addresses.metaSnapper_of_find hfind
  rw [hid] at hm'
  rw [snapperOf_eq hm' hloaded, hsnapper]

/-- So a reply with files is about such a comparison. -/
theorem dispatch_files {configName : Str} {num1 num2 : UInt32} {files : List DBus.SentFile}
    {msgs : List Sent} (hbase : d.Base) (hsent : d.sent = msgs)
    (hreply : (dispatch env me (.getFiles configName num1 num2) d).sent =
      msgs ++ [.reply me (.files files)]) :
    ∃ comparison m, (dispatch env me (.getFiles configName num1 num2) d).Holds me comparison ∧
      comparison.num1 = num1 ∧ comparison.num2 = num2 ∧
      (dispatch env me (.getFiles configName num1 num2) d).find configName = some m ∧
      m.snapperId = some comparison.snapper ∧ comparison.files = files := by
  have hsends : Spec _ (handle env me (.getFiles configName num1 num2)) _ _ := getFiles_sends msgs
  have hsends := hsends d ⟨hbase, hsent⟩
  rw [dispatch] at hreply ⊢
  cases hrun : (handle env me (.getFiles configName num1 num2)).run d with
  | mk r d' =>
    rw [hrun] at hreply hsends
    cases r with
    | error e =>
      -- the message would be an error
      have herror : d'.sent ++ [.error me e.error] = msgs ++ [.reply me (.files files)] := hreply
      rw [show d'.sent = msgs from hsends] at herror
      simpa using List.append_cancel_left herror
    | ok _ =>
      obtain ⟨comparison, m, hholds, h1, h2, hfind, hsnapper, hsent'⟩ := hsends
      have hsame : msgs ++ [.reply me (.files comparison.files)] =
          msgs ++ [.reply me (.files files)] := hsent'.symm.trans hreply
      exact ⟨comparison, m, hholds, h1, h2, hfind, hsnapper, by
        simpa using List.append_cancel_left hsame⟩

/-! ## Over a run -/

/-- The comparison was made by the client's worker at some point of the run. -/
def MadeIn (start : Daemon) (actions : List Action) (name : Str) (comparison : Comparison) : Prop :=
  ∃ done env rest making, actions = done ++ .finishComparison name env comparison.files :: rest ∧
    (done.foldl Daemon.step start).making name = some making ∧
    making.snapper = comparison.snapper ∧
    making.snapshots = some (comparison.num1, comparison.num2)

theorem MadeIn.append {start : Daemon} {actions : List Action}
    (h : MadeIn start actions name comparison)
    (a : Action) : MadeIn start (actions ++ [a]) name comparison := by
  obtain ⟨done, env, rest, making, rfl, hmaking⟩ := h
  exact ⟨done, env, rest ++ [a], making, by simp, hmaking⟩

/-- Every comparison that a client has was made by its worker. -/
theorem made_of_holds {start : Daemon} (hstart : start.Initial) (actions : List Action)
    (h : (actions.foldl Daemon.step start).Holds name comparison) :
    MadeIn start actions name comparison := by
  revert h
  refine foldl_induction (P := fun done (d : Daemon) => d.Holds name comparison →
    MadeIn start done name comparison) ?_ ?_ (List.append_nil actions).symm
  · rintro ⟨c, hc, -⟩
    rw [hstart.clients] at hc
    cases hc
  · intro done a rest _ hmade hholds
    have hreachable : (done.foldl Daemon.step start).Reachable := ⟨start, done, hstart, rfl⟩
    rcases step_holds hreachable.base hholds with hold | ⟨env, making, rfl, hmaking, hnums⟩
    · exact (hmade hold).append a
    · exact ⟨done, env, [], making, rfl, hmaking, hnums⟩

/-- When `GetFiles` is answered with files, they are those that a comparison of the same client has
found before, of these two snapshots of the `Snapper` that the config has now. -/
theorem files_of_own_comparison {start : Daemon} (hstart : start.Initial) {actions : List Action}
    {configName : Str} {num1 num2 : UInt32} {files : List DBus.SentFile}
    (hnext : (actions.foldl Daemon.step start).next name = some (.getFiles configName num1 num2))
    (hreply : ((actions.foldl Daemon.step start).step (.work name env)).sent =
      (actions.foldl Daemon.step start).sent ++ [.reply name (.files files)]) :
    ∃ done env' rest making m, actions = done ++ .finishComparison name env' files :: rest ∧
      (done.foldl Daemon.step start).making name = some making ∧
      making.snapshots = some (num1, num2) ∧
      ((actions.foldl Daemon.step start).step (.work name env)).find configName = some m ∧
      m.snapperId = some making.snapper := by
  have hreachable : (actions.foldl Daemon.step start).Reachable := ⟨start, actions, hstart, rfl⟩
  rw [step_work hnext] at hreply
  -- the answer is made from a comparison that the client holds, and only its own worker gives it
  -- one
  obtain ⟨comparison, m, hholds, rfl, rfl, hfind, hsnapper, rfl⟩ :=
    dispatch_files (take_base hreachable.base) rfl hreply
  rw [← step_work hnext] at hholds hfind
  rcases step_holds hreachable.base hholds with hold | ⟨env', making, ha, -⟩
  · obtain ⟨done, env', rest, making, hactions, hmaking, hmade, hnums⟩ :=
      made_of_holds hstart actions hold
    exact ⟨done, env', rest, making, m, hactions, hmaking, hnums, hfind, by rw [hsnapper, hmade]⟩
  · cases ha

/-- A client compares its system with the snapshot and asks what has changed. -/
theorem files_of_own_comparison_asked :
    let changed : DBus.SentFile := ⟨str "/etc/hosts", 2⟩
    let actions : List Action := [.receive (str "a") (.createComparison (str "root") 0 1),
      .work (str "a") Env.quiet, .mountComparison (str "a") Env.quiet,
      .finishComparison (str "a") Env.quiet [changed],
      .receive (str "a") (.getFiles (str "root") 0 1)]
    ∃ done env rest, actions = done ++ .finishComparison (str "a") env [changed] :: rest := by
  intro changed actions
  have hnext : (actions.foldl Daemon.step Daemon.rootOnly).next (str "a") =
      some (.getFiles (str "root") 0 1) := rfl
  have hreply :
      ((actions.foldl Daemon.step Daemon.rootOnly).step (.work (str "a") Env.quiet)).sent =
      (actions.foldl Daemon.step Daemon.rootOnly).sent ++ [.reply (str "a") (.files [changed])] :=
    rfl
  obtain ⟨done, env, rest, -, -, hactions, -⟩ :=
    files_of_own_comparison rootOnly_initial hnext hreply
  exact ⟨done, env, rest, hactions⟩

end Holds

end Snapper.Server
