import Snapper.Client.EmptyPrePost
import Snapper.Server.Answered
import Snapper.Server.Signals

/-!
# A request and its answer

A client sends one request and waits.  Until the answer comes, the daemon takes any number of
steps, for other clients as well, and afterwards until the next request.  What the daemon keeps
through each step is kept by the whole conversation, and what holds when the answer is sent
lasts as long as the steps keep it.

## Main results

* `own_requests`: by itself the daemon gets no new requests.
* `getConfig_answer`, `listSnapshots_answer`: what is in an answer.
* `Turning.send`: what the client knows when it is answered.
-/

namespace Snapper.Server

open General Act

/-! ## What the daemon does by itself -/

section Own

variable {d : Daemon} {a : Action} {name : Str} {request : Request}

/-- What was sent remains, and what a step sends comes after it. -/
theorem step_sent (hbase : d.Base) (a : Action) : ∃ msgs, (d.step a).sent = d.sent ++ msgs := by
  have hnothing : ∀ {d' : Daemon}, d'.sent = d.sent → ∃ msgs, d'.sent = d.sent ++ msgs :=
    fun hsame => ⟨[], hsame.trans (List.append_nil _).symm⟩
  -- but for a request that is served, an unload and the surroundings, a step is unheard or a
  -- signal
  have hother : (∀ name env, a ≠ .work name env) → (∀ id env, a ≠ .unload id env) →
      (∀ id nums, a ≠ .spoil id nums) → ∃ msgs, (d.step a).sent = d.sent ++ msgs := by
    intro hwork hunload hspoil
    have hunheard : Unheard [] d (d.step a) := step_unheard hbase hwork hunload hspoil
    obtain ⟨msgs, hsent, -⟩ := hunheard.sent
    exact ⟨msgs, hsent⟩
  cases a with
  | work name env =>
    cases hnext : d.next name with
    | none => exact hnothing (congrArg Daemon.sent (step_work_none hnext))
    | some request =>
      have hserved : Served name request (d.take name) (dispatch env name request (d.take name)) :=
        dispatch_answers
      -- a served request sends its signals and the answer, or begins a comparison
      rw [step_work hnext]
      cases hserved with
      | answered _ _ hsent => exact ⟨_, hsent⟩
      | comparing _ _ hsent => exact hnothing hsent
  | unload id env =>
    rw [Daemon.step.eq_def]
    split
    · exact hnothing rfl
    · exact hnothing (sent_of_talk (background_talk (d := d) env id).2.2.2.2)
  | spoil id nums =>
    rw [Daemon.step.eq_def]
    split
    · exact hnothing rfl
    · exact hnothing rfl
  | _ => exact hother (by simp) (by simp) (by simp)

/-- The desk of a client that is found. -/
theorem desk_of_mem (hbase : d.Base) {c : Client} (hc : c ∈ d.clients) :
    d.desk c.name = some c.desk :=
  desk_of_client (lookup_of_mem hbase.addresses.names hc)

/-- By itself the daemon gets no requests: those that are queued were queued before. -/
theorem own_requests (hbase : d.Base) (hown : a.own = true) :
    ∀ c' ∈ (d.step a).clients, ∃ c ∈ d.clients, c.name = c'.name ∧ c'.tasks ⊆ c.tasks := by
  intro c' hc'
  by_cases hrunning : d.aborted ∨ d.terminated
  · rw [Daemon.step.eq_def, if_pos hrunning] at hc'
    exact ⟨c', hc', rfl, List.Subset.refl _⟩
  · have hmoves : Moves c'.name a (d.seat c'.name) ((d.step a).seat c'.name) :=
      step_moves hrunning a
    generalize hseat : d.seat c'.name = seat at hmoves
    generalize hseat' : (d.step a).seat c'.name = seat' at hmoves
    -- a move changes the queue of the client's own desk only, at its head
    have hbefore : d.desk c'.name = seat.1 := congrArg Prod.fst hseat
    have hafter : seat'.1 = some c'.desk :=
      (congrArg Prod.fst hseat').symm.trans (desk_of_mem (step_base hbase a) hc')
    -- one case per move of the client
    obtain ⟨k, hk, htasks⟩ : ∃ k, d.desk c'.name = some k ∧ c'.desk.tasks ⊆ k.tasks := by
      cases hmoves with
      | other seat h => exact ⟨_, hbefore.trans hafter, List.Subset.refl _⟩
      | first => cases hown
      | queue => cases hown
      | leave => cases hown
      | @answer _ k _ _ _ _ _ htasks _ =>
        rw [← Option.some.inj hafter]
        exact ⟨k, hbefore, by rw [htasks]; exact List.subset_cons_self _ _⟩
      | @begin _ k _ _ _ _ _ _ _ htasks =>
        rw [← Option.some.inj hafter]
        exact ⟨k, hbefore, by rw [htasks]; exact List.subset_cons_self _ _⟩
      | @mount _ k =>
        rw [← Option.some.inj hafter]
        exact ⟨k, hbefore, List.Subset.refl _⟩
      | @finish _ k =>
        rw [← Option.some.inj hafter]
        exact ⟨k, hbefore, List.Subset.refl _⟩
      | @interrupt _ k =>
        rw [← Option.some.inj hafter]
        exact ⟨k, hbefore, List.Subset.refl _⟩
      | @retire k =>
        rw [← Option.some.inj hafter]
        exact ⟨k, hbefore, List.Subset.refl _⟩
      | gone => cases hafter
    obtain ⟨c, hc, rfl⟩ := client_of_desk hk
    exact ⟨c, mem_of_client hc, name_of_client hc, htasks⟩

/-- The next request of a client is one of its queue. -/
theorem mem_of_next (h : d.next name = some request) :
    ∃ c ∈ d.clients, c.name = name ∧ request ∈ c.tasks := by
  rw [Daemon.next] at h
  split at h
  · cases h
  · split at h
    · cases h
    · next c hclient =>
      split at h
      · next htasks =>
        obtain rfl := Option.some.inj h
        exact ⟨c, mem_of_client hclient, name_of_client hclient, by rw [htasks]; simp⟩
      · cases h

/-- A request that comes is one more in a queue. -/
theorem receive_requests {P : Request → Prop} (hrequest : P request)
    (h : ∀ c ∈ d.clients, ∀ request ∈ c.tasks, P request) :
    ∀ c ∈ (d.receive name request).clients, ∀ request ∈ c.tasks, P request := by
  -- of the queues one gets the request at its end
  have hqueue : ∀ d : Daemon, (∀ c ∈ d.clients, ∀ request ∈ c.tasks, P request) →
      ∀ c ∈ (d.modClient name fun c => { c with tasks := c.tasks ++ [request] }).clients,
        ∀ request ∈ c.tasks, P request := by
    intro d h c' hc' request' hmem
    obtain ⟨c, hc, ⟨-, rfl⟩ | ⟨-, rfl⟩⟩ := mem_update hc'
    · rcases List.mem_append.mp hmem with hold | hnew
      · exact h c hc request' hold
      · rwa [List.mem_singleton.mp hnew]
    · exact h c' hc request' hmem
  rw [Daemon.receive]
  split
  · apply hqueue
    intro c hc
    rcases List.mem_append.mp hc with hold | hnew
    · exact h c hold
    · rw [List.mem_singleton.mp hnew]
      simp [Client.new]
  · exact hqueue d h

end Own

/-! ## What is answered -/

section Answers

variable {env : Env} {name configName : Str} {d : Daemon} {request : Request}

/-- When a request is served and a reply is the new mail, the handler has come to its end. -/
theorem handle_of_reply {reply : Reply} (hnext : d.next name = some request)
    (hmail : (d.step (.work name env)).mail name = d.mail name ++ [.reply name reply]) :
    ∃ d', (handle env name request).run (d.take name) = (.ok ⟨⟩, d') ∧
      d.step (.work name env) = d' := by
  have hserved : Served name request (d.take name) (dispatch env name request (d.take name)) :=
    dispatch_answers
  rw [step_work hnext] at hmail ⊢
  cases hrun : (handle env name request).run (d.take name) with
  | mk r d' =>
    cases r with
    | ok _ => exact ⟨d', rfl, by rw [dispatch, hrun]⟩
    | error e =>
      -- the last message would be the error
      have hlast : (d'.send (.error name e.error)).mail name =
          d'.mail name ++ [.error name e.error] := by
        rw [mail_append rfl]
        simp [Sent.recipient]
      rw [dispatch, hrun, hlast] at hmail
      obtain ⟨-, hsame⟩ := List.append_inj' hmail rfl
      cases hsame

/-- The reply that a handler sends last. -/
theorem reply_of_mail {d₁ : Daemon} {reply reply' : Reply} (hsent : d₁.mail name = d.mail name)
    (hmail : (d₁.send (.reply name reply)).mail name = d.mail name ++ [.reply name reply']) :
    reply' = reply := by
  have hlast : (d₁.send (.reply name reply)).mail name = d₁.mail name ++ [.reply name reply] := by
    rw [mail_append rfl]
    simp [Sent.recipient]
  rw [hlast, hsent] at hmail
  obtain ⟨-, hsame⟩ := List.append_inj' hmail rfl
  cases hsame
  rfl

/-- The answer to GetConfig has the data of the config at that moment. -/
theorem getConfig_answer {info : ConfigInfo} (hnext : d.next name = some (.getConfig configName))
    (hmail : (d.step (.work name env)).mail name = d.mail name ++ [.reply name (.config info)]) :
    ∃ m, d.find configName = some m ∧ info = m.configInfo := by
  obtain ⟨d', hrun, hstep⟩ := handle_of_reply hnext hmail
  rw [hstep] at hmail
  replace hrun : (getConfig env name configName).run (d.take name) = (.ok ⟨⟩, d') := hrun
  rw [getConfig] at hrun
  -- an error in between would be another message
  cases hfind : (d.take name).find configName with
  | none =>
    rw [run_bind_error (findConfig_run_none hfind)] at hrun
    cases hrun
  | some m =>
    rw [run_bind_ok (findConfig_run hfind)] at hrun
    by_cases hpermitted : Permitted env m
    · rw [run_bind_ok (checkPermission_run hpermitted)] at hrun
      obtain rfl : (d.take name).send (.reply name (.config m.configInfo)) = d' :=
        congrArg Prod.snd hrun
      cases reply_of_mail (d := d) rfl hmail
      exact ⟨m, hfind, rfl⟩
    · obtain ⟨e, hdenied⟩ : ∃ e, (checkPermission env m).run (d.take name) =
          (.error e, d.take name) :=
        checkPermission_run_not hpermitted
      rw [run_bind_error hdenied] at hrun
      cases hrun

theorem Daemon.Base.take (h : d.Base) : (d.take name).Base :=
  h.modClient (by intro; rfl)

/-- The answer to ListSnapshots is the list of the config at that moment, loaded if need be. -/
theorem listSnapshots_answer {snapshots : List Snapshot} (hbase : d.Base)
    (hnext : d.next name = some (.listSnapshots configName))
    (hmail : (d.step (.work name env)).mail name =
      d.mail name ++ [.reply name (.snapshots snapshots)]) :
    ∃ m, d.find configName = some m ∧ snapshots = m.shown := by
  obtain ⟨d', hrun, hstep⟩ := handle_of_reply hnext hmail
  rw [hstep] at hmail
  by_cases hopens : ∃ m, Opens env configName (d.take name) m
  · obtain ⟨m, hm⟩ := hopens
    rw [(listSnapshots_numbers hbase.take hm).1] at hrun
    obtain rfl : ((d.take name).opened env m).send (.reply name (.snapshots m.shown)) = d' :=
      congrArg Prod.snd hrun
    have hopened : ((d.take name).opened env m).mail name = d.mail name := by
      rw [Daemon.opened]
      split <;> rfl
    cases reply_of_mail hopened hmail
    exact ⟨m, hm.find, rfl⟩
  · obtain ⟨e, hrefused⟩ : ∃ e, (openConfig env configName).run (d.take name) =
        (.error e, d.take name) :=
      openConfig_run_not hbase.take.addresses (not_exists.mp hopens)
    replace hrun : (listSnapshots env name configName).run (d.take name) = (.ok ⟨⟩, d') := hrun
    rw [listSnapshots, run_bind_error hrefused] at hrun
    cases hrun

end Answers

end Snapper.Server

namespace Snapper.Client

open General Server

/-! ## The turn of the daemon -/

section Turns

variable {name configName : Str} {outcome : UInt32 → UInt32 → List DBus.SentFile}
  {C : Action → Prop} {request : Request} {I : Daemon → Prop} {A : Reply → Daemon → Prop}
  {d : Daemon}

/-- Nothing of the client is queued or being worked on but, perhaps, this request. -/
def Waits (name : Str) (request : Request) (d : Daemon) : Prop :=
  ∀ k, d.desk name = some k →
    k.worker = .waiting ∧ k.zombie = false ∧ (k.tasks = [] ∨ k.tasks = [request])

/-- The client has no request that is not answered. -/
def Ready (name : Str) (d : Daemon) : Prop :=
  ∀ k, d.desk name = some k → k.worker = .waiting ∧ k.zombie = false ∧ k.tasks = []

/-- What the daemon keeps by itself in steps that meet a condition, and what holds when the
request is answered with a reply and from then on. -/
structure Turning (name : Str) (outcome : UInt32 → UInt32 → List DBus.SentFile)
    (C : Action → Prop) (request : Request) (I : Daemon → Prop) (A : Reply → Daemon → Prop) :
    Prop where
  base : ∀ d, I d → d.Base
  receive : ∀ d, I d → I (d.step (.receive name request))
  step : ∀ d a, a.own = true → C a → I d → I (d.step (withOutcome outcome d a))
  lasts : ∀ d a reply, a.own = true → C a → I d → A reply d →
    A reply (d.step (withOutcome outcome d a))
  answers : ∀ d env reply, I d → d.next name = some request →
    (d.step (.work name env)).mail name = d.mail name ++ [.reply name reply] →
      A reply (d.step (.work name env))

/-- The request is not answered yet, or it has been. -/
inductive Turned (name : Str) (request : Request) (A : Reply → Daemon → Prop) (mail : List Sent)
    (d : Daemon) : Prop
  | waits (h : Waits name request d) (hmail : d.mail name = mail)
  | answered (msg : Sent) (h : Ready name d) (hmail : d.mail name = mail ++ [msg])
      (hreply : ∀ reply, msg = .reply name reply → A reply d)

theorem Ready.waits (h : Ready name d) : Waits name request d := fun k hk => by
  obtain ⟨hworker, hzombie, htasks⟩ := h k hk
  exact ⟨hworker, hzombie, Or.inl htasks⟩

/-- The request is taken from the queue of a client that waits for it only. -/
theorem next_of_desk {k : Desk} (hrunning : ¬ (d.aborted ∨ d.terminated))
    (hk : d.desk name = some k) (hworker : k.worker = .waiting) (htasks : k.tasks = [request]) :
    d.next name = some request := by
  obtain ⟨c, hc, rfl⟩ := client_of_desk hk
  have hworker' : c.worker = .waiting := hworker
  have htasks' : c.tasks = [request] := htasks
  rw [Daemon.next, if_neg hrunning, hc]
  simp [hworker', htasks']

/-- A step of the daemon brings the client's request nearer to its answer or leaves it where it
is. -/
theorem Turned.step {mail : List Sent} {a : Action} (hturned : Turned name request A mail d)
    (h : Turning name outcome C request I A)
    (hcomparison : ∀ configName num1 num2, request ≠ .createComparison configName num1 num2)
    (hown : a.own = true) (hC : C a) (hI : I d) :
    Turned name request A mail (d.step (withOutcome outcome d a)) := by
  have hown' : (withOutcome outcome d a).own = true := (withOutcome_own d a).trans hown
  by_cases hrunning : d.aborted ∨ d.terminated
  · rwa [Daemon.step.eq_def, if_pos hrunning]
  have hmoves : Moves name (withOutcome outcome d a) (d.seat name)
      ((d.step (withOutcome outcome d a)).seat name) := step_moves hrunning _
  have hlasts := fun reply => h.lasts d a reply hown hC hI
  generalize hb : withOutcome outcome d a = b at hown' hmoves hlasts ⊢
  generalize hseat : d.seat name = seat at hmoves
  generalize hseat' : (d.step b).seat name = seat' at hmoves
  have hdesk : d.desk name = seat.1 := congrArg Prod.fst hseat
  have hmail : d.mail name = seat.2 := congrArg Prod.snd hseat
  have hdesk' : (d.step b).desk name = seat'.1 := congrArg Prod.fst hseat'
  have hmail' : (d.step b).mail name = seat'.2 := congrArg Prod.snd hseat'
  -- a client that waits, or has nothing to wait for, is not in the middle of a comparison
  have hwaits : ∀ k, seat.1 = some k → k.worker = .waiting ∧ k.zombie = false ∧
      (k.tasks = [] ∨ k.tasks = [request]) := by
    intro k hk
    cases hturned with
    | waits hwaits _ => exact hwaits k (hdesk.trans hk)
    | answered _ hready _ _ => exact hready.waits k (hdesk.trans hk)
  cases hmoves with
  | other seat _ =>
    cases hturned with
    | waits hwaits hsame =>
      refine .waits (fun k hk => hwaits k ?_) (hmail'.trans (hmail.symm.trans hsame))
      rw [hdesk, ← hdesk', hk]
    | answered msg hready hsame hreply =>
      refine .answered msg (fun k hk => hready k ?_) (hmail'.trans (hmail.symm.trans hsame))
        fun reply hmsg => hlasts reply (hreply reply hmsg)
      rw [hdesk, ← hdesk', hk]
  | first => cases hown'
  | queue => cases hown'
  | leave => cases hown'
  | @answer env k _ request' rest msg hworker htasks hanswers =>
    cases hturned with
    | waits hwaits hsame =>
      obtain ⟨-, hzombie, hempty | hone⟩ := hwaits k hdesk
      · rw [hempty] at htasks
        cases htasks
      · rw [hone] at htasks
        obtain ⟨rfl, rfl⟩ := List.cons.inj htasks
        refine .answered msg ?_ (hmail'.trans ?_) ?_
        · intro k' hk'
          obtain rfl := Option.some.inj (hdesk'.symm.trans hk')
          exact ⟨hworker, hzombie, rfl⟩
        · rw [← hsame, hmail]
        · rintro reply rfl
          exact h.answers d env reply hI (next_of_desk hrunning hdesk hworker hone)
            (by rw [hmail', hmail])
    | answered _ hready _ _ =>
      rw [(hready k hdesk).2.2] at htasks
      cases htasks
  | @begin _ k _ _ _ _ _ _ _ htasks =>
    obtain ⟨-, -, hempty | hone⟩ := hwaits k rfl
    · rw [hempty] at htasks
      cases htasks
    · rw [hone] at htasks
      exact absurd (List.cons.inj htasks).1 (hcomparison _ _ _)
  | @mount _ k _ _ hworker =>
    rw [(hwaits k rfl).1] at hworker
    cases hworker
  | @finish _ k _ _ _ hworker =>
    rw [(hwaits k rfl).1] at hworker
    cases hworker
  | @interrupt _ k _ _ _ hworker =>
    rw [(hwaits k rfl).1] at hworker
    cases hworker
  | @retire k _ _ _ hzombie =>
    rw [(hwaits k rfl).2.1] at hzombie
    cases hzombie
  | @gone _ k _ hworker =>
    rw [(hwaits k rfl).1] at hworker
    cases hworker

/-- So does a turn of several steps, and what was sent before remains the beginning of what is
sent. -/
theorem Turned.foldl {mail : List Sent} (hturned : Turned name request A mail d)
    (actions : List Action) (h : Turning name outcome C request I A)
    (hcomparison : ∀ configName num1 num2, request ≠ .createComparison configName num1 num2)
    (hC : ∀ a ∈ actions, C a) (hI : I d) :
    I (actions.foldl (advance outcome) d) ∧
      Turned name request A mail (actions.foldl (advance outcome) d) ∧
      ∃ msgs, (actions.foldl (advance outcome) d).sent = d.sent ++ msgs := by
  induction actions generalizing d with
  | nil => exact ⟨hI, hturned, [], (List.append_nil _).symm⟩
  | cons a actions ih =>
    obtain ⟨ha, hrest⟩ := List.forall_mem_cons.mp hC
    rw [List.foldl_cons, advance]
    split
    · next hown =>
      obtain ⟨hI', hturned', msgs', hsent'⟩ :=
        ih (hturned.step h hcomparison hown ha hI) hrest (h.step d a hown ha hI)
      obtain ⟨msgs, hsent⟩ := step_sent (h.base d hI) (withOutcome outcome d a)
      exact ⟨hI', hturned', msgs ++ msgs', by rw [hsent', hsent, List.append_assoc]⟩
    · exact ih hturned hrest hI

/-- The client is ready when it sends the request. -/
theorem turned_receive (hready : Ready name d) :
    Turned name request A (d.mail name) (d.step (.receive name request)) := by
  rw [Daemon.step.eq_def]
  split
  · exact .waits hready.waits rfl
  · have hmoves : Moves name (.receive name request) (d.seat name)
        ((d.receive name request).seat name) := receive_moves
    generalize hseat : d.seat name = seat at hmoves
    generalize hseat' : (d.receive name request).seat name = seat' at hmoves
    have hdesk : d.desk name = seat.1 := congrArg Prod.fst hseat
    have hmail : d.mail name = seat.2 := congrArg Prod.snd hseat
    have hdesk' : (d.receive name request).desk name = seat'.1 := congrArg Prod.fst hseat'
    have hmail' : (d.receive name request).mail name = seat'.2 := congrArg Prod.snd hseat'
    -- the client is made with this message or has an empty queue
    cases hmoves with
    | other seat h => exact absurd rfl (h request)
    | first =>
      refine .waits (fun k hk => ?_) (hmail'.trans hmail.symm)
      obtain rfl := Option.some.inj (hdesk'.symm.trans hk)
      exact ⟨rfl, rfl, Or.inr rfl⟩
    | queue _ k =>
      refine .waits (fun k' hk' => ?_) (hmail'.trans hmail.symm)
      obtain rfl := Option.some.inj (hdesk'.symm.trans hk')
      obtain ⟨hworker, hzombie, htasks⟩ := hready k hdesk
      exact ⟨hworker, hzombie, Or.inr (by simp [htasks])⟩
    | finish _ hreceive => exact absurd rfl (hreceive request)

/-- An answer to a client is a message with its name. -/
theorem recipient_of_answerTo {msg : Sent} {answer : Except Str Reply}
    (h : answerTo name msg = some answer) : msg.recipient = some name := by
  cases msg with
  | reply client reply =>
    simp only [answerTo, Option.ite_none_right_eq_some] at h
    rw [Sent.recipient, h.1]
  | error client error =>
    simp only [answerTo, Option.ite_none_right_eq_some] at h
    rw [Sent.recipient, h.1]
  | _ => cases h

/-- A request of a client that is ready, whatever the daemon does meanwhile. -/
theorem Turning.send (h : Turning name outcome C request I A)
    (hcomparison : ∀ configName num1 num2, request ≠ .createComparison configName num1 num2) :
    Act.Spec (fun s => I s.daemon ∧ Ready name s.daemon ∧ s.Meets C) (send name outcome request)
      (fun reply s => (I s.daemon ∧ Ready name s.daemon ∧ s.Meets C) ∧ A reply s.daemon)
      fun _ s => I s.daemon := by
  rintro s ⟨hI, hready, hmeets⟩
  have hreceived : Turned name request A (s.daemon.mail name)
      (s.daemon.step (.receive name request)) := turned_receive hready
  obtain ⟨hend, hturned, msgs, hmsgs⟩ :=
    hreceived.foldl (s.turns.headD []) h hcomparison hmeets.head (h.receive _ hI)
  have hasked : (s.daemon.step (.receive name request)).sent = s.daemon.sent := by
    rw [Daemon.step.eq_def]
    split
    · rfl
    · show (s.daemon.receive name request).sent = s.daemon.sent
      rw [Daemon.receive]
      split <;> rfl
  have hmail : Daemon.mail name _ = _ := mail_append hmsgs
  dsimp only [Client.send]
  rw [hmsgs, hasked, List.drop_left]
  cases hanswer : msgs.findSome? (answerTo name) with
  | none => exact hend
  | some answer =>
    cases answer with
    | error e => exact hend
    | ok reply =>
      obtain ⟨msg, hmem, hmsg⟩ := List.exists_of_findSome?_eq_some hanswer
      have hfiltered : msg ∈ msgs.filter fun msg => msg.recipient = some name :=
        List.mem_filter.mpr ⟨hmem, by simpa using recipient_of_answerTo hmsg⟩
      have hsame : (s.daemon.step (.receive name request)).mail name = s.daemon.mail name :=
        mail_of_sent hasked
      rw [hsame] at hmail
      cases hturned with
      | waits _ hnothing =>
        -- nothing has come for the client
        rw [hnothing] at hmail
        rw [List.self_eq_append_right.mp hmail] at hfiltered
        cases hfiltered
      | answered msg' hready' hone hreply =>
        rw [hone, List.append_cancel_left_eq] at hmail
        rw [← hmail, List.mem_singleton] at hfiltered
        subst hfiltered
        refine ⟨⟨hend, hready', hmeets.tail⟩, hreply reply ?_⟩
        cases msg with
        | reply client reply' =>
          simp only [answerTo, Option.ite_none_right_eq_some, Option.some.injEq,
            Except.ok.injEq] at hmsg
          obtain ⟨rfl, rfl⟩ := hmsg
          rfl
        | error client error => simp [answerTo] at hmsg
        | _ => cases hmsg

end Turns

end Snapper.Client
