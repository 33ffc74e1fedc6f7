import Snapper.General.Fair
import Snapper.Server.Answered

/-!
# Every request is answered in the end

As long as a client has a request without an answer, its worker can take a step, whatever the
calls that leave the daemon do.  Where the worker gets to run, every request is answered.

## Main results

* `can_of_owed`: a worker with a request is never stuck.
* `answered_in_the_end`: in every fair run all requests are answered.
-/

namespace Snapper.Server

open General Act

/-! ## The steps that a worker can take -/

/-- The worker of the client can take this step. -/
inductive Can (name : Str) (d : Daemon) : Action → Prop
  | work {c : Client} (env : Env) (hclient : d.client name = some c)
      (hworker : c.worker = .waiting) (htasks : c.tasks ≠ []) : Can name d (.work name env)
  | mount {making : Making} {nums : UInt32 × UInt32} (env : Env)
      (hmaking : d.making name = some making) (hmounted : making.mounted = false)
      (hsnapshots : making.snapshots = some nums) : Can name d (.mountComparison name env)
  | finish {making : Making} {nums : UInt32 × UInt32} (env : Env) (files : List DBus.SentFile)
      (hmaking : d.making name = some making) (hmounted : making.mounted = true)
      (hsnapshots : making.snapshots = some nums) : Can name d (.finishComparison name env files)
  /-- The files were saved before. -/
  | load {making : Making} {num1 num2 : UInt32} (env : Env) (files : List DBus.SentFile)
      (hmaking : d.making name = some making) (hmounted : making.mounted = false)
      (hsnapshots : making.snapshots = some (num1, num2)) (hpast : num1 ≠ 0 ∧ num2 ≠ 0) :
      Can name d (.finishComparison name env files)
  | fail {making : Making} {nums : UInt32 × UInt32} (env : Env) (fault : Fault)
      (hmaking : d.making name = some making) (hsnapshots : making.snapshots = some nums) :
      Can name d (.failComparison name env (.fault fault))
  | refuse {making : Making} (env : Env) (hmaking : d.making name = some making)
      (hsnapshots : making.snapshots = none) : Can name d (.failComparison name env .illegal)

section Can

variable {d : Daemon} {name : Str} {a : Action} {k : Desk}

/-- A step of the worker is no request and not the end of the client. -/
theorem Can.own (h : Can name d a) :
    (∀ request, a ≠ .receive name request) ∧ a ≠ .disconnect name := by
  cases h <;> simp

theorem making_of_desk {making : Making} (hk : d.desk name = some k)
    (hworker : k.worker = .comparing making) : d.making name = some making := by
  obtain ⟨c, hclient, rfl⟩ := client_of_desk hk
  rw [Daemon.making, hclient]
  have hcomparing : c.worker = .comparing making := hworker
  simp [hcomparing]

/-- A worker with a request is never stuck. -/
theorem can_of_owed {owed : List Request} (howed : Owed (d.desk name) owed) (hne : owed ≠ [])
    (halive : ∀ k, d.desk name = some k → k.worker ≠ .ended) (env : Env) :
    ∃ a, Can name d a := by
  cases hk : d.desk name with
  | none =>
    rw [hk] at howed
    cases howed
    exact absurd rfl hne
  | some k =>
    rw [hk] at howed
    obtain ⟨c, hclient, rfl⟩ := client_of_desk hk
    cases hworker : c.desk.worker with
    | waiting =>
      rw [howed.eq_tasks (by simp [hworker])] at hne
      exact ⟨_, .work env hclient hworker hne⟩
    | comparing making =>
      have hmaking := making_of_desk hk hworker
      -- the constructor refuses, mounts, or scans what it has mounted
      cases hsnapshots : making.snapshots with
      | none => exact ⟨_, .refuse env hmaking hsnapshots⟩
      | some nums =>
        cases hmounted : making.mounted with
        | false => exact ⟨_, .mount env hmaking hmounted hsnapshots⟩
        | true => exact ⟨_, .finish env [] hmaking hmounted hsnapshots⟩
    | ended => exact absurd hworker (halive _ hk)

theorem seat_ne_of_mail {d' : Daemon} {msg : Sent} {k' : Option Desk}
    (h : d'.seat name = (k', d.mail name ++ [msg])) : d'.seat name ≠ d.seat name := by
  intro hsame
  rw [h] at hsame
  have hmail : d.mail name ++ [msg] = d.mail name := congrArg Prod.snd hsame
  simpa using congrArg List.length hmail

/-- Serving a request takes no other from the queue. -/
theorem Served.tasks {d' : Daemon} {request : Request} (h : Served name request d d') :
    (d'.desk name).map Desk.tasks = (d.desk name).map Desk.tasks := by
  cases h with
  | answered h hsignals hsent hdesks _ _ => rw [desk_eq_find, hdesks, ← desk_eq_find]
  | comparing making hrequest hsent hdesks _ _ =>
    have hlookup : d'.desk name = (d.desk name).map (Desk.begin making) := by
      rw [desk_eq_find, hdesks, desk_eq_find]
      exact lookup_update_self (by intro; rfl)
    rw [hlookup, Option.map_map]
    rfl

/-- A worker that has something to do changes the seat of its client. -/
theorem work_changes {env : Env} {c : Client} (hclient : d.client name = some c)
    (hworker : c.worker = .waiting) (htasks : c.tasks ≠ []) :
    (d.work name env).seat name ≠ d.seat name := by
  intro hsame
  obtain ⟨request, rest, hqueue⟩ := List.exists_cons_of_ne_nil htasks
  have hwork : d.work name env = dispatch env name request
      (d.modClient name fun c => { c with tasks := c.tasks.tail }) := by
    rw [Daemon.work, hclient]
    simp only [hworker, hqueue]
  have hserved : Served name request (d.modClient name fun c => { c with tasks := c.tasks.tail })
      (d.work name env) := by
    rw [hwork]
    exact dispatch_answers
  have htake : (d.modClient name fun c => { c with tasks := c.tasks.tail }).desk name =
      (d.desk name).map Desk.take := desk_modClient (by intro; rfl) (by intro; rfl)
  have hdesk : (d.work name env).desk name = d.desk name := congrArg Prod.fst hsame
  have hrest := hserved.tasks
  rw [hdesk, htake, desk_of_client hclient] at hrest
  -- the queue would be as long as its tail
  have hlist : c.tasks = c.tasks.tail := Option.some.inj hrest
  rw [hqueue] at hlist
  simpa using congrArg List.length hlist

/-- A comparison that has not mounted its snapshots yet does so, or fails with an answer; either
way the client's seat is another one. -/
theorem mountComparison_changes {env : Env} {making : Making} {nums : UInt32 × UInt32}
    (hmaking : d.making name = some making) (hmounted : making.mounted = false)
    (hsnapshots : making.snapshots = some nums) :
    (d.mountComparison name env).seat name ≠ d.seat name := by
  obtain ⟨k, hk, hworker⟩ := desk_of_making hmaking
  rw [Daemon.mountComparison, hmaking]
  simp only [hmounted, hsnapshots]
  cases hrun : (mountBoth env making.metaSnapper nums.1 nums.2).run d with
  | mk r d₁ =>
    have htalk : d₁.talk = d.talk := talk_of_calm (mountBoth_mute.run hrun)
    have hk₁ : d₁.desk name = some k := by rw [desk_of_talk htalk, hk]
    cases r with
    | ok _ =>
      -- the worker is marked as mounted now
      have hseat : (d₁.setWorker name (.comparing { making with mounted := true })).seat name =
          ((d₁.desk name).map fun k =>
            { k with worker := .comparing { making with mounted := true } }, d₁.mail name) :=
        seat_modClient (by intro; rfl) (by intro; rfl)
      rw [hk₁] at hseat
      intro hsame
      dsimp only at hsame
      rw [hseat, seat_of_desk hk] at hsame
      have hdesk := Option.some.inj (congrArg Prod.fst hsame)
      have hagain : Worker.comparing { making with mounted := true } = k.worker :=
        congrArg Desk.worker hdesk
      rw [hworker] at hagain
      have hmounted' : true = making.mounted :=
        congrArg Making.mounted (Worker.comparing.inj hagain)
      rw [hmounted] at hmounted'
      cases hmounted'
    | error e =>
      dsimp only
      exact seat_ne_of_mail (by rw [seat_failed hk₁, mail_of_sent (sent_of_talk htalk)])

/-- A worker that can finish its comparison answers with it, so that its client's seat is another
one. -/
theorem finishComparison_changes {env : Env} {files : List DBus.SentFile} {making : Making}
    {num1 num2 : UInt32} (hmaking : d.making name = some making)
    (hsnapshots : making.snapshots = some (num1, num2))
    (hdone : making.mounted = true ∨ (num1 ≠ 0 ∧ num2 ≠ 0)) :
    (d.finishComparison name env files).seat name ≠ d.seat name := by
  obtain ⟨k, hk, hworker⟩ := desk_of_making hmaking
  rw [Daemon.finishComparison, hmaking]
  simp only [hsnapshots]
  split
  · cases hrun : (umountBoth env making.metaSnapper num1 num2).run d with
    | mk r d₁ =>
      have htalk : d₁.talk = d.talk := talk_of_calm (umountBoth_mute.run hrun)
      have hk₁ : d₁.desk name = some k := by rw [desk_of_talk htalk, hk]
      cases r with
      | ok _ =>
        dsimp only
        exact seat_ne_of_mail (by rw [seat_finished hk₁, mail_of_sent (sent_of_talk htalk)])
      | error e =>
        dsimp only
        exact seat_ne_of_mail (by rw [seat_failed hk₁, mail_of_sent (sent_of_talk htalk)])
  · next hmounted =>
    have hpast : num1 ≠ 0 ∧ num2 ≠ 0 := hdone.resolve_left hmounted
    rw [if_pos hpast]
    exact seat_ne_of_mail (seat_finished hk)

/-- What the worker can do it does. -/
theorem Can.changes (hrunning : ¬ d.Ended) (h : Can name d a) :
    (d.step a).seat name ≠ d.seat name := by
  rw [Daemon.step.eq_def]
  rw [Daemon.Ended] at hrunning
  simp only [hrunning, if_false]
  -- each step takes a request off the queue, marks the worker or sends an answer
  cases h with
  | work env hclient hworker htasks => exact work_changes hclient hworker htasks
  | mount env hmaking hmounted hsnapshots =>
    exact mountComparison_changes hmaking hmounted hsnapshots
  | finish env files hmaking hmounted hsnapshots =>
    exact finishComparison_changes hmaking hsnapshots (Or.inl hmounted)
  | load env files hmaking hmounted hsnapshots hpast =>
    exact finishComparison_changes hmaking hsnapshots (Or.inr hpast)
  | @fail making _ env fault hmaking hsnapshots =>
    obtain ⟨k, hk, -⟩ := desk_of_making hmaking
    have hfailed : d.failComparison name env (.fault fault) =
        d.failed env name making (.fault fault) := by
      rw [Daemon.failComparison, hmaking]
      simp only [hsnapshots]
    show (d.failComparison name env (.fault fault)).seat name ≠ d.seat name
    rw [hfailed]
    exact seat_ne_of_mail (seat_failed hk)
  | @refuse making env hmaking hsnapshots =>
    obtain ⟨k, hk, -⟩ := desk_of_making hmaking
    have hfailed : d.failComparison name env .illegal =
        d.failed env name making .IllegalSnapshotException := by
      rw [Daemon.failComparison, hmaking]
      simp only [hsnapshots]
    show (d.failComparison name env .illegal).seat name ≠ d.seat name
    rw [hfailed]
    exact seat_ne_of_mail (seat_failed hk)

end Can

/-! ## The rank -/

/-- The steps that a worker may still need for the next answer, apart from two. -/
def Desk.left : Option Desk → ℕ
  | none => 2
  | some k =>
    match k.worker with
    | .comparing making => if making.mounted then 0 else 1
    | _ => 2

/-- Some requests without an answer, and the place of the first of them. -/
def rank (n : ℕ) (seat : Seat) : ℕ := 4 * (n - seat.2.length) + Desk.left seat.1

/-- A client whose worker has ended is a zombie. -/
def Retired (seat : Seat) : Prop := ∀ k, seat.1 = some k → k.worker = .ended → k.zombie = true

section Rank

variable {name : Str} {a : Action} {seat seat' : Seat} {n : ℕ}

/-- At most two more steps lead to the next answer. -/
theorem left_le {k : Option Desk} : Desk.left k ≤ 2 := by
  cases k with
  | none => exact le_rfl
  | some k =>
    rw [Desk.left.eq_def]
    dsimp only
    split
    · split <;> omega
    · exact le_rfl

theorem left_waiting {k : Desk} (h : k.worker = .waiting) : Desk.left (some k) = 2 := by
  simp [Desk.left, h]

/-- A worker that has ended belongs to a client that has gone; no move changes that. -/
theorem Moves.retired (h : Moves name a seat seat') (hretired : Retired seat) : Retired seat' := by
  cases h with
  | other => exact hretired
  | first =>
    rintro k ⟨⟩ hworker
    cases hworker
  | queue request k mail =>
    rintro k' ⟨⟩ hworker
    exact hretired k rfl hworker
  -- who leaves is gone from now on
  | leave =>
    rintro k' ⟨⟩ -
    rfl
  | @answer _ k _ _ _ _ _ _ _ =>
    rintro k' ⟨⟩ hworker
    exact hretired k rfl hworker
  | begin =>
    rintro k' ⟨⟩ hworker
    cases hworker
  | mount =>
    rintro k' ⟨⟩ hworker
    cases hworker
  | finish =>
    rintro k' ⟨⟩ hworker
    cases hworker
  | interrupt hworker hzombie =>
    rintro k' ⟨⟩ -
    exact hzombie
  | retire hworker htasks hzombie =>
    rintro k' ⟨⟩ -
    exact hzombie
  | gone => exact fun k hk => by cases hk

/-- A message lowers the rank whatever the worker begins next. -/
theorem rank_answer {k k' : Option Desk} {mail : List Sent} {msg : Sent} (hlt : mail.length < n) :
    rank n (k', mail ++ [msg]) < rank n (k, mail) := by
  have hleft := left_le (k := k')
  simp only [rank, List.length_append, List.length_singleton]
  omega

/-- So does a step towards it. -/
theorem rank_left {k k' : Option Desk} {mail : List Sent} (h : Desk.left k' < Desk.left k) :
    rank n (k', mail) < rank n (k, mail) := by
  simp only [rank]
  omega

/-- The rank of a client that is there does not rise, and what its worker does lowers it. -/
theorem Moves.rank (h : Moves name a seat seat') (hlt : seat.2.length < n)
    (halive : ∀ k, seat.1 = some k → k.zombie = false) :
    rank n seat' ≤ rank n seat ∧ (seat' ≠ seat → (∀ request, a ≠ .receive name request) →
      a ≠ .disconnect name → rank n seat' < rank n seat) := by
  have hless : Server.rank n seat' < Server.rank n seat → Server.rank n seat' ≤ Server.rank n seat ∧
      (seat' ≠ seat → (∀ request, a ≠ .receive name request) → a ≠ .disconnect name →
        Server.rank n seat' < Server.rank n seat) := fun h => ⟨h.le, fun _ _ _ => h⟩
  -- the moves of a client that has gone are excluded
  have hthere : ∀ {k : Desk}, seat.1 = some k → k.zombie = true → False := by
    intro k hk hzombie
    have hfalse := halive k hk
    rw [hzombie] at hfalse
    cases hfalse
  cases h with
  -- requests that come in are not counted: the rank is about those up to the n-th
  | other => exact ⟨le_rfl, fun hne => absurd rfl hne⟩
  | first request => exact ⟨le_rfl, fun _ hreceive => absurd rfl (hreceive request)⟩
  | queue request => exact ⟨le_rfl, fun _ hreceive => absurd rfl (hreceive request)⟩
  | leave => exact ⟨le_rfl, fun _ _ hleave => absurd rfl hleave⟩
  | answer => exact hless (rank_answer hlt)
  | finish => exact hless (rank_answer hlt)
  | begin making hworker htasks =>
    refine hless (rank_left ?_)
    rw [left_waiting hworker]
    simp only [Desk.left]
    split <;> omega
  | @mount _ k _ making hworker hmounted =>
    refine hless (rank_left ?_)
    simp [Desk.left, hworker, hmounted]
  | interrupt hworker hzombie => exact (hthere rfl hzombie).elim
  | retire hworker htasks hzombie => exact (hthere rfl hzombie).elim
  | gone hworker hzombie => exact (hthere rfl hzombie).elim

end Rank

/-! ## Runs without end -/

section Runs

variable {start : Daemon} {actions : ℕ → Action} {name : Str} {n : ℕ}

/-- In every run a client whose worker has ended is a zombie. -/
theorem retired_of_run (hstart : start.Initial) (name : Str) (actions : List Action) :
    Retired ((actions.foldl Daemon.step start).seat name) := by
  have hnone : Retired (start.seat name) := by
    intro k hk
    have hdesk : start.desk name = none := by
      rw [Daemon.desk, Daemon.client, hstart.clients]
      rfl
    rw [Daemon.seat, hdesk] at hk
    cases hk
  refine foldl_induction (P := fun _ (d : Daemon) => Retired (d.seat name)) hnone ?_
    (List.append_nil actions).symm
  intro done a rest _ hretired
  by_cases hended : (done.foldl Daemon.step start).Ended
  · rw [step_of_ended hended]
    exact hretired
  · exact (step_moves hended a).retired hretired

/-- What is known at each time of a run in which the client stays and the daemon goes on. -/
structure Going (name : Str) (sent : List Request) (d : Daemon) : Prop where
  running : ¬ d.Ended
  booked : ∃ answered owed, List.Forall₂ (Answers name) answered (d.mail name) ∧
    Owed (d.desk name) owed ∧ answered ++ owed = sent
  alive : ∀ k, d.desk name = some k → k.zombie = false
  retired : Retired (d.seat name)

/-- At each point of a run in which the daemon goes on and the client stays, its requests are
answered or owed, in order, and the client is no zombie. -/
theorem going (hstart : start.Initial) (hremains : ∀ n, actions n ≠ .disconnect name)
    (hrunning : ∀ n, (after Daemon.step actions start n).terminated = false) :
    Going name (requests name (before actions n)) (after Daemon.step actions start n) := by
  have hterminated := hrunning n
  have hall : Remains name (before actions n) := by
    intro a ha
    obtain ⟨i, -, rfl⟩ := List.mem_map.mp ha
    exact hremains i
  rw [after_eq_foldl] at hterminated ⊢
  have hreachable : ((before actions n).foldl Daemon.step start).Reachable :=
    ⟨start, _, hstart, rfl⟩
  have hgoes : ¬ ((before actions n).foldl Daemon.step start).Ended := by
    rintro (haborted | hended)
    · rw [hreachable.counting.aborted] at haborted
      cases haborted
    · rw [hterminated] at hended
      cases hended
  -- neither of the two exceptions of the account
  have hnothing : ¬ (((before actions n).foldl Daemon.step start).Ended ∨
      ¬ Remains name (before actions n)) := by
    rintro (hended | hgone)
    · exact hgoes hended
    · exact hgone hall
  have hbooks := books_of_run hstart name (before actions n)
  obtain ⟨answered, owed, haccount, howed⟩ := hbooks.booked
  exact ⟨hgoes, ⟨answered, owed, haccount.answers, howed, haccount.whole hnothing⟩,
    hbooks.alive hnothing, retired_of_run hstart name _⟩

/-- With fewer messages than requests the worker has something to do. -/
theorem Going.can {sent : List Request} {d : Daemon} (h : Going name sent d)
    (hlt : (d.mail name).length < sent.length) : ∃ a, Can name d a := by
  obtain ⟨answered, owed, hanswers, howed, rfl⟩ := h.booked
  have hne : owed ≠ [] := by
    rintro rfl
    rw [List.append_nil, hanswers.length_eq] at hlt
    exact Nat.lt_irrefl _ hlt
  refine can_of_owed howed hne ?_ Env.quiet
  intro k hk hworker
  have hzombie := h.retired k hk hworker
  rw [h.alive k hk] at hzombie
  cases hzombie

theorem requests_isPrefix {l l' : List Action} (h : l <+: l') :
    requests name l <+: requests name l' := by
  obtain ⟨rest, rfl⟩ := h
  exact ⟨requests name rest, (List.filterMap_append).symm⟩

/-- A client that stays sends requests, the daemon goes on, and the worker of the client is given
time.  Then all requests that have come up to a time are answered some time later, in order. -/
theorem answered_in_the_end (hstart : start.Initial) (name : Str) (actions : ℕ → Action)
    (hfair : WeaklyFair (Can name) Daemon.step actions start)
    (hremains : ∀ n, actions n ≠ .disconnect name)
    (hrunning : ∀ n, (after Daemon.step actions start n).terminated = false) (n : ℕ) :
    ∃ m ≥ n, ∃ answered, List.Forall₂ (Answers name) answered
        ((after Daemon.step actions start m).mail name) ∧
      requests name (before actions n) <+: answered ∧
      answered <+: requests name (before actions m) := by
  have hgoing : ∀ m, Going name (requests name (before actions m))
      (after Daemon.step actions start m) := fun m => going hstart hremains hrunning
  have hlonger : ∀ m ≥ n, requests name (before actions n) <+: requests name (before actions m) :=
    fun m hm => requests_isPrefix (before_isPrefix hm)
  -- the rank counts the requests up to the time and what the worker does for the next of them
  obtain ⟨m, hm, hdone⟩ : ∃ m ≥ n, (requests name (before actions n)).length ≤
      ((after Daemon.step actions start m).mail name).length := by
    refine hfair.eventually (fun m => rank (requests name (before actions n)).length
      ((after Daemon.step actions start m).seat name)) ?_ ?_ ?_
    · intro m hm hnot
      exact (hgoing m).can ((not_le.mp hnot).trans_le (hlonger m hm).length_le)
    · intro m hm hnot
      have hmove : Moves name _ _ _ := step_moves (hgoing m).running (actions m)
      exact (hmove.rank (not_le.mp hnot) (hgoing m).alive).1
    · intro m hm hnot hcan
      have hmove : Moves name _ _ _ := step_moves (hgoing m).running (actions m)
      obtain ⟨hreceive, hleave⟩ := hcan.own
      exact (hmove.rank (not_le.mp hnot) (hgoing m).alive).2
        (hcan.changes (hgoing m).running) hreceive hleave
  obtain ⟨answered, owed, hanswers, -, hsent⟩ := (hgoing m).booked
  refine ⟨m, hm, answered, hanswers, ?_, ⟨owed, hsent⟩⟩
  have hwhole : requests name (before actions n) <+: answered ++ owed := by
    rw [hsent]
    exact hlonger m hm
  apply List.prefix_of_prefix_length_le hwhole (List.prefix_append _ _)
  rwa [hanswers.length_eq]

/-- A client asks for the configs, and its worker runs and runs. -/
def asksOnce : ℕ → Action
  | 0 => .receive (str "a") .listConfigs
  | _ + 1 => .work (str "a") Env.quiet

/-- After two steps nothing changes any more. -/
theorem asksOnce_rests (m : ℕ) : after Daemon.step asksOnce Daemon.rootOnly (m + 2) =
    after Daemon.step asksOnce Daemon.rootOnly 2 := by
  induction m with
  | zero => rfl
  | succ m ih =>
    have hnext : after Daemon.step asksOnce Daemon.rootOnly (m + 3) =
        (after Daemon.step asksOnce Daemon.rootOnly (m + 2)).step (.work (str "a") Env.quiet) := rfl
    rw [hnext, ih]
    rfl

/-- The worker always runs, so the run is fair to it. -/
theorem asksOnce_fair : WeaklyFair (Can (str "a")) Daemon.step asksOnce Daemon.rootOnly := by
  intro n hcan
  -- after two steps there is nothing to do
  obtain ⟨a, ha⟩ := hcan (n + 2) (Nat.le_add_right n 2)
  rw [asksOnce_rests] at ha
  exfalso
  have hnone : Daemon.making (str "a") (after Daemon.step asksOnce Daemon.rootOnly 2) = none := rfl
  cases ha with
  | work env hclient hworker htasks =>
    cases hclient
    exact htasks rfl
  | mount env hmaking =>
    rw [hnone] at hmaking
    cases hmaking
  | finish env files hmaking =>
    rw [hnone] at hmaking
    cases hmaking
  | load env files hmaking =>
    rw [hnone] at hmaking
    cases hmaking
  | fail env fault hmaking =>
    rw [hnone] at hmaking
    cases hmaking
  | refuse env hmaking =>
    rw [hnone] at hmaking
    cases hmaking

/-- The one client asks for the configs and waits. -/
theorem answered_in_the_end_once : ∃ m ≥ 1, ∃ answered,
    List.Forall₂ (Answers (str "a")) answered
      ((after Daemon.step asksOnce Daemon.rootOnly m).mail (str "a")) ∧
    [Request.listConfigs] <+: answered := by
  have hrunning : ∀ n, (after Daemon.step asksOnce Daemon.rootOnly n).terminated = false := by
    intro n
    match n with
    | 0 => rfl
    | 1 => rfl
    | n + 2 =>
      rw [asksOnce_rests]
      rfl
  have hremains : ∀ n, asksOnce n ≠ .disconnect (str "a") := by
    intro n
    cases n <;> simp [asksOnce]
  obtain ⟨m, hm, answered, hanswers, hall, -⟩ := answered_in_the_end rootOnly_initial (str "a")
    asksOnce asksOnce_fair hremains hrunning 1
  exact ⟨m, hm, answered, hanswers, hall⟩

end Runs

end Snapper.Server
