import Snapper.Server.Replies
import Snapper.Server.Stays

/-!
# A client and its requests over a run

What a client sees of the daemon is a small machine of its own: requests queue up, its worker
answers them one by one, a comparison in between takes more than one step, and a client that
has gone is retired.  Each step of the daemon is a step of this machine for every client.

## Main results

* `step_moves`: the daemon does what the machine does.
* `answered_in_order`: the answers are those of the requests, in order and each once.
-/

namespace Snapper.Server

open General Act

/-! ## The machine of one client -/

/-- What a client sees: its desk, if there is one, and its messages. -/
abbrev Seat := Option Desk × List Sent

/-- What an answer depends on for one client: its desk and its mail. -/
def Daemon.seat (name : Str) (d : Daemon) : Seat := (d.desk name, d.mail name)

/-- What a step of the daemon does to the seat of a client.  Each constructor is one step of the
machine; `other` is every step that does not concern the client. -/
inductive Moves (name : Str) : Action → Seat → Seat → Prop
  | other {a : Action} (seat : Seat) (h : ∀ request, a ≠ .receive name request) :
      Moves name a seat seat
  | first (request : Request) (mail : List Sent) :
      Moves name (.receive name request) (none, mail)
        (some ⟨name, [request], .waiting, false⟩, mail)
  | queue (request : Request) (k : Desk) (mail : List Sent) :
      Moves name (.receive name request) (some k, mail)
        (some { k with tasks := k.tasks ++ [request] }, mail)
  | leave (k : Desk) (mail : List Sent) :
      Moves name (.disconnect name) (some k, mail) (some { k with zombie := true }, mail)
  | answer {env : Env} {k : Desk} {mail : List Sent} {request : Request} {rest : List Request}
      {msg : Sent} (hworker : k.worker = .waiting) (htasks : k.tasks = request :: rest)
      (h : Answers name request msg) :
      Moves name (.work name env) (some k, mail) (some { k with tasks := rest }, mail ++ [msg])
  | begin {env : Env} {k : Desk} {mail : List Sent} {configName : Str} {num1 num2 : UInt32}
      {rest : List Request} (making : Making) (hworker : k.worker = .waiting)
      (htasks : k.tasks = .createComparison configName num1 num2 :: rest) :
      Moves name (.work name env) (some k, mail)
        (some { k with tasks := rest, worker := .comparing making }, mail)
  | mount {env : Env} {k : Desk} {mail : List Sent} {making : Making}
      (hworker : k.worker = .comparing making) (hmounted : making.mounted = false) :
      Moves name (.mountComparison name env) (some k, mail)
        (some { k with worker := .comparing { making with mounted := true } }, mail)
  /-- The comparison has an answer, which is one for all of them. -/
  | finish {a : Action} {k : Desk} {mail : List Sent} {making : Making} {msg : Sent}
      (hworker : k.worker = .comparing making) (hreceive : ∀ request, a ≠ .receive name request)
      (h : ∀ configName num1 num2, Answers name (.createComparison configName num1 num2) msg) :
      Moves name a (some k, mail) (some { k with worker := .waiting }, mail ++ [msg])
  | interrupt {env : Env} {k : Desk} {mail : List Sent} {making : Making} {failure : Failure}
      (hworker : k.worker = .comparing making) (hzombie : k.zombie = true) :
      Moves name (.failComparison name env failure) (some k, mail)
        (some { k with worker := .ended }, mail)
  | retire {k : Desk} {mail : List Sent} (hworker : k.worker = .waiting) (htasks : k.tasks = [])
      (hzombie : k.zombie = true) :
      Moves name (.endWorker name) (some k, mail) (some { k with worker := .ended }, mail)
  | gone {env : Env} {k : Desk} {mail : List Sent} (hworker : k.worker = .ended)
      (hzombie : k.zombie = true) : Moves name (.reap name env) (some k, mail) (none, mail)

section Seats

variable {d d' : Daemon} {env : Env} {name me : Str} {id : Nat} {a : Action}
  {g : Client → Client} {k : Desk}

/-- The seat depends on the desks and on what was sent. -/
theorem seat_of_talk (h : d'.talk = d.talk) : d'.seat name = d.seat name := by
  rw [Daemon.seat, Daemon.seat, desk_of_talk h, mail_of_sent (sent_of_talk h)]

/-- What one client does does not concern the others. -/
theorem seat_modClient_other (hname : ∀ c, (g c).name = c.name) (hne : name ≠ me) :
    (d.modClient me g).seat name = d.seat name := by
  rw [Daemon.seat, desk_modClient_other hname hne]
  rfl

/-- Nor does a message to another client. -/
theorem seat_send_other {msg : Sent} (h : msg.recipient ≠ some name) :
    (d.send msg).seat name = d.seat name := by
  have hmail : (d.send msg).mail name = d.mail name := by
    rw [mail_append rfl]
    simp [h]
  rw [Daemon.seat, hmail]
  rfl

/-- A change of the client that sends nothing. -/
theorem seat_modClient {f : Desk → Desk} (hname : ∀ c, (g c).name = c.name)
    (hg : ∀ c, (g c).desk = f c.desk) :
    (d.modClient name g).seat name = ((d.desk name).map f, d.mail name) := by
  rw [Daemon.seat, desk_modClient hname hg]
  rfl

theorem seat_send {msg : Sent} (h : msg.recipient = some name) :
    (d.send msg).seat name = (d.desk name, d.mail name ++ [msg]) := by
  have hmail : (d.send msg).mail name = d.mail name ++ [msg] := by
    rw [mail_append rfl]
    simp [h]
  rw [Daemon.seat, hmail]
  rfl

theorem desk_of_client {c : Client} (h : d.client name = some c) : d.desk name = some c.desk := by
  rw [Daemon.desk, h]
  rfl

theorem client_of_desk (h : d.desk name = some k) : ∃ c, d.client name = some c ∧ c.desk = k :=
  Option.map_eq_some_iff.mp h

theorem seat_of_desk (h : d.desk name = some k) : d.seat name = (some k, d.mail name) := by
  rw [Daemon.seat, h]

/-- A client that makes a comparison has a desk whose worker does. -/
theorem desk_of_making {making : Making} (h : d.making name = some making) :
    ∃ k, d.desk name = some k ∧ k.worker = .comparing making := by
  rw [Daemon.making] at h
  split at h
  · cases h
  · next c hclient =>
    refine ⟨c.desk, desk_of_client hclient, ?_⟩
    show c.worker = _
    split at h
    · next making' hworker =>
      obtain rfl : making' = making := by simpa using h
      exact hworker
    · cases h

theorem release_talk : (d.release env id).talk = d.talk := rfl

/-- The answer of a comparison that could not be made, with the worker back to its queue. -/
theorem seat_failed {making : Making} {e : Exception} (hk : d.desk name = some k) :
    (d.failed env name making e).seat name =
      (some { k with worker := .waiting }, d.mail name ++ [.error name e.error]) := by
  have hworker : (d.setWorker name .waiting).seat name =
      ((d.desk name).map fun k => { k with worker := .waiting }, d.mail name) :=
    seat_modClient (by intro; rfl) (by intro; rfl)
  have hrelease : ((d.setWorker name .waiting).release env making.metaSnapper).seat name =
      (d.setWorker name .waiting).seat name := seat_of_talk release_talk
  rw [hworker, hk] at hrelease
  rw [Daemon.failed, seat_send rfl]
  exact congrArg (fun s : Seat => (s.1, s.2 ++ [Sent.error name e.error])) hrelease

/-- The answer of a comparison that was made. -/
theorem seat_finished {making : Making} {comparison : Comparison} (hk : d.desk name = some k) :
    (d.finished env name making comparison).seat name =
      (some { k with worker := .waiting }, d.mail name ++ [.reply name .done]) := by
  have hworker : (d.modClient name fun c =>
      { c with comparisons := c.comparisons ++ [comparison], worker := .waiting }).seat name =
        ((d.desk name).map fun k => { k with worker := .waiting }, d.mail name) :=
    seat_modClient (by intro; rfl) (by intro; rfl)
  rw [hk] at hworker
  rw [Daemon.finished, seat_of_talk release_talk, seat_send rfl]
  exact congrArg (fun s : Seat => (s.1, s.2 ++ [Sent.reply name .done])) hworker

theorem seat_failed_other {making : Making} {e : Exception} (hne : name ≠ me) :
    (d.failed env me making e).seat name = d.seat name := by
  have hrecipient : (Sent.error me e.error).recipient ≠ some name := by
    simpa [Sent.recipient] using hne.symm
  rw [Daemon.failed, seat_send_other hrecipient, seat_of_talk release_talk]
  exact seat_modClient_other (by intro; rfl) hne

/-- A comparison that is finished for one client leaves the seats of the others as they are. -/
theorem seat_finished_other {making : Making} {comparison : Comparison} (hne : name ≠ me) :
    (d.finished env me making comparison).seat name = d.seat name := by
  have hrecipient : (Sent.reply me Reply.done).recipient ≠ some name := by
    simpa [Sent.recipient] using hne.symm
  have hsame : ((incUseCount making.metaSnapper (d.modClient me fun c =>
      { c with comparisons := c.comparisons ++ [comparison], worker := .waiting })).send
        (.reply me .done)).seat name = d.seat name := by
    rw [seat_send_other hrecipient]
    exact seat_modClient_other (by intro; rfl) hne
  rw [Daemon.finished, seat_of_talk release_talk]
  exact hsame

/-! ## Each step of the daemon is a step of the machine -/

/-- A message is put at the end of the queue of its client, and makes the client first where it is
new. -/
theorem receive_moves {request : Request} :
    Moves name (.receive me request) (d.seat name) ((d.receive me request).seat name) := by
  have hqueue : ∀ d : Daemon,
    (d.modClient me fun c => { c with tasks := c.tasks ++ [request] }).seat
      me = ((d.desk me).map fun k => { k with tasks := k.tasks ++ [request] }, d.mail me) :=
    fun d => seat_modClient (by intro; rfl) (by intro; rfl)
  by_cases hme : name = me
  · subst hme
    cases hclient : d.client name with
    | none =>
      -- the client gets a desk first
      have hdesk : d.desk name = none := by rw [Daemon.desk, hclient]; rfl
      have hnew : Daemon.desk name { d with clients := d.clients ++ [Client.new name] } =
          some (Client.new name).desk := by
        apply desk_of_client
        rw [Daemon.client, lookup, List.find?_append]
        have hnone : d.clients.find? (fun c => c.name = name) = none := hclient
        rw [hnone]
        simp [Client.new]
      rw [Daemon.receive, hclient]
      simp only [Option.isNone_none, if_true]
      rw [hqueue, hnew, Daemon.seat, hdesk]
      exact Moves.first request _
    | some c =>
      rw [Daemon.receive, hclient]
      simp only [Option.isNone_some, Bool.false_eq_true, if_false]
      rw [hqueue, Daemon.seat, desk_of_client hclient]
      exact Moves.queue request c.desk _
  · have hsame : (d.receive me request).seat name = d.seat name := by
      rw [Daemon.receive, seat_modClient_other (by intro; rfl) hme]
      split
      · -- a desk at the end of the list is not the one of this client
        have hother : (Client.new me).name ≠ name := fun h => hme h.symm
        rw [Daemon.seat, Daemon.seat, Daemon.desk, Daemon.desk, Daemon.client,
          Daemon.client, lookup,
          lookup, List.find?_append]
        simp [hother, Daemon.mail]
      · rfl
    rw [hsame]
    refine Moves.other _ fun request' h => ?_
    cases h
    exact hme rfl

/-- A client that leaves becomes a zombie; its worker may still be busy. -/
theorem disconnect_moves :
    Moves name (.disconnect me) (d.seat name) ((d.disconnect me).seat name) := by
  by_cases hme : name = me
  · subst hme
    have hseat : (d.disconnect name).seat name =
        ((d.desk name).map fun k => { k with zombie := true }, d.mail name) :=
      seat_modClient (by intro; rfl) (by intro; rfl)
    rw [hseat, Daemon.seat]
    cases d.desk name with
    | none => exact Moves.other _ (by simp)
    | some k => exact Moves.leave k _
  · have hsame : (d.disconnect me).seat name = d.seat name :=
      seat_modClient_other (by intro; rfl) hme
    rw [hsame]
    exact Moves.other _ (by simp)

/-- Of what a request sends the client of it gets the answer, and nobody else does. -/
theorem mail_of_answer {msg : Sent} {signals : List Sent} {request : Request}
    (h : Answers me request msg) (hsignals : ∀ s ∈ signals, s.recipient = none)
    (hsent : d'.sent = d.sent ++ msg :: signals) :
    d'.mail name = if name = me then d.mail name ++ [msg] else d.mail name := by
  have hnone : signals.filter (fun s => s.recipient = some name) = [] := by
    apply List.filter_eq_nil_iff.mpr
    intro s hs
    simp [hsignals s hs]
  rw [mail_append hsent, List.filter_cons, hnone, h.recipient]
  by_cases hme : name = me
  · simp [hme]
  · simp [hme, Ne.symm hme]

/-- The desk from which the worker has taken the first task. -/
def Desk.take (k : Desk) : Desk := { k with tasks := k.tasks.tail }

/-- The worker takes the first request of the queue and answers it, or begins a comparison. -/
theorem work_moves : Moves name (.work me env) (d.seat name) ((d.work me env).seat name) := by
  have hcases : d.work me env = d ∨ _ := work_cases
  rcases hcases with hsame | ⟨c, request, rest, hclient, hworker, htasks, hwork⟩
  · rw [hsame]
    exact Moves.other _ (by simp)
  · rw [hwork]
    generalize htaken : (d.modClient me fun c => { c with tasks := c.tasks.tail }) = d₁
    have hsent : d₁.mail name = d.mail name := by rw [← htaken]; rfl
    -- what `dispatch` does is said once for all requests
    have hserved : Served me request d₁ (dispatch env me request d₁) := dispatch_answers
    by_cases hme : name = me
    · subst hme
      have hdesk : d₁.desk name = some c.desk.take := by
        have hmap : d₁.desk name = (d.desk name).map Desk.take := by
          rw [← htaken]
          exact desk_modClient (by intro; rfl) (by intro; rfl)
        rw [hmap, desk_of_client hclient]
        rfl
      have hrest : c.desk.take = { c.desk with tasks := rest } := by
        simp [Desk.take, Client.desk, htasks]
      rw [seat_of_desk (desk_of_client hclient)]
      cases hserved with
      | answered h hsignals hsent' hdesks _ _ =>
        rw [Daemon.seat, mail_of_answer h hsignals hsent', if_pos rfl, hsent, desk_eq_find, hdesks,
          ← desk_eq_find, hdesk, hrest]
        exact Moves.answer hworker htasks h
      | comparing making hrequest hsent' hdesks _ _ =>
        have hlookup : (dispatch env name request d₁).desk name =
            (d₁.desk name).map (Desk.begin making) := by
          rw [desk_eq_find, hdesks, desk_eq_find]
          exact lookup_update_self (by intro; rfl)
        rw [Daemon.seat, mail_of_sent hsent', hsent, hlookup, hdesk, hrest]
        rw [hrequest] at htasks
        exact Moves.begin making hworker htasks
    · -- the worker of another client
      have hdesk : d₁.desk name = d.desk name := by
        rw [← htaken]
        exact desk_modClient_other (by intro; rfl) hme
      have hsame : (dispatch env me request d₁).seat name = d.seat name := by
        cases hserved with
        | answered h hsignals hsent' hdesks _ _ =>
          rw [Daemon.seat, mail_of_answer h hsignals hsent', if_neg hme, hsent,
            desk_eq_find, hdesks,
            ← desk_eq_find, hdesk, Daemon.seat]
        | comparing making hrequest hsent' hdesks _ _ =>
          have hlookup : (dispatch env me request d₁).desk name = d₁.desk name := by
            rw [desk_eq_find, hdesks, desk_eq_find]
            exact lookup_update_other (by intro; rfl) hme
          rw [Daemon.seat, mail_of_sent hsent', hsent, hlookup, hdesk, Daemon.seat]
      rw [hsame]
      exact Moves.other _ (by simp)

/-- The two snapshots are mounted, or the comparison is answered with an exception. -/
theorem mountComparison_moves :
    Moves name (.mountComparison me env) (d.seat name) ((d.mountComparison me env).seat name) := by
  have hcases : d.mountComparison me env = d ∨ _ := mountComparison_cases
  rcases hcases with hsame | ⟨making, num1, num2, d₁, hmaking, hmounted, -, -, hrest⟩
  · rw [hsame]
    exact Moves.other _ (by simp)
  · have htalk : ∀ {r}, (mountBoth env making.metaSnapper num1 num2).run d = (r, d₁) →
        d₁.talk = d.talk := fun hrun => talk_of_calm (mountBoth_mute.run hrun)
    -- the comparison of this client or of another one
    by_cases hme : name = me
    · subst hme
      obtain ⟨k, hk, hworker⟩ := desk_of_making hmaking
      rw [seat_of_desk hk]
      rcases hrest with ⟨hrun, hmount⟩ | ⟨e, hrun, hfailed⟩
      · have hseat : (d₁.setWorker name (.comparing { making with mounted := true })).seat name =
            ((d₁.desk name).map fun k =>
              { k with worker := .comparing { making with mounted := true } }, d₁.mail name) :=
          seat_modClient (by intro; rfl) (by intro; rfl)
        rw [hmount, hseat, desk_of_talk (htalk hrun), mail_of_sent (sent_of_talk (htalk hrun)), hk]
        exact Moves.mount hworker hmounted
      · have hk₁ : d₁.desk name = some k := by rw [desk_of_talk (htalk hrun), hk]
        rw [hfailed, seat_failed hk₁, mail_of_sent (sent_of_talk (htalk hrun))]
        exact Moves.finish hworker (by simp) fun _ _ _ => .error e
    · have hsame : (d.mountComparison me env).seat name = d.seat name := by
        rcases hrest with ⟨hrun, hmount⟩ | ⟨e, hrun, hfailed⟩
        · rw [hmount, ← seat_of_talk (htalk hrun)]
          exact seat_modClient_other (by intro; rfl) hme
        · rw [hfailed, seat_failed_other hme, seat_of_talk (htalk hrun)]
      rw [hsame]
      exact Moves.other _ (by simp)

/-- A comparison ends with its answer, whatever happens when it unmounts. -/
theorem finishComparison_moves {files : List DBus.SentFile} :
    Moves name (.finishComparison me env files) (d.seat name)
      ((d.finishComparison me env files).seat name) := by
  have hcases : d.finishComparison me env files = d ∨ _ := finishComparison_cases
  rcases hcases with hsame | ⟨making, num1, num2, d₁, hmaking, -, -, hrest⟩
  · rw [hsame]
    exact Moves.other _ (by simp)
  -- whatever comes of the unmounting, nothing is sent and no desk changes
  · have htalk : d₁.talk = d.talk := by
      rcases hrest with ⟨hrun, -⟩ | ⟨e, -, hrun, -⟩
      · split at hrun
        · exact talk_of_calm (umountBoth_mute.run hrun)
        · rw [hrun]
      · exact talk_of_calm (umountBoth_mute.run hrun)
    by_cases hme : name = me
    · subst hme
      obtain ⟨k, hk, hworker⟩ := desk_of_making hmaking
      have hk₁ : d₁.desk name = some k := by rw [desk_of_talk htalk, hk]
      rw [seat_of_desk hk, ← mail_of_sent (sent_of_talk htalk)]
      rcases hrest with ⟨-, hfinished⟩ | ⟨e, -, -, hfailed⟩
      -- the comparison is answered, or an exception of the unmounting
      · rw [hfinished, seat_finished hk₁]
        exact Moves.finish hworker (by simp) fun configName num1 num2 =>
          .reply (.createComparison configName num1 num2)
      · rw [hfailed, seat_failed hk₁]
        exact Moves.finish hworker (by simp) fun _ _ _ => .error e
    · have hsame : (d.finishComparison me env files).seat name = d.seat name := by
        rcases hrest with ⟨-, hfinished⟩ | ⟨e, -, -, hfailed⟩
        · rw [hfinished, seat_finished_other hme, seat_of_talk htalk]
        · rw [hfailed, seat_failed_other hme, seat_of_talk htalk]
      rw [hsame]
      exact Moves.other _ (by simp)

/-- A comparison that fails is answered; that of a client that has gone is not, and its worker
ends. -/
theorem failComparison_moves {failure : Failure} :
    Moves name (.failComparison me env failure) (d.seat name)
      ((d.failComparison me env failure).seat name) := by
  have hcases : d.failComparison me env failure = d ∨ _ := failComparison_cases
  rcases hcases with hsame | ⟨making, hmaking, hrest⟩
  · rw [hsame]
    exact Moves.other _ (by simp)
  · by_cases hme : name = me
    · subst hme
      obtain ⟨k, hk, hworker⟩ := desk_of_making hmaking
      rw [seat_of_desk hk]
      rcases hrest with ⟨e, hfailed⟩ | ⟨hzombie, hended⟩
      -- an exception is answered, an interruption is not
      · rw [hfailed, seat_failed hk]
        exact Moves.finish hworker (by simp) fun _ _ _ => .error e
      · have hseat : (d.setWorker name .ended).seat name =
            ((d.desk name).map fun k => { k with worker := .ended }, d.mail name) :=
          seat_modClient (by intro; rfl) (by intro; rfl)
        rw [hended, seat_of_talk release_talk, hseat, hk]
        apply Moves.interrupt hworker
        obtain ⟨c, hclient, rfl⟩ := client_of_desk hk
        rwa [hclient] at hzombie
    · have hsame : (d.failComparison me env failure).seat name = d.seat name := by
        rcases hrest with ⟨e, hfailed⟩ | ⟨-, hended⟩
        · rw [hfailed, seat_failed_other hme]
        · rw [hended, seat_of_talk release_talk]
          exact seat_modClient_other (by intro; rfl) hme
      rw [hsame]
      exact Moves.other _ (by simp)

/-- A worker ends when its queue is empty and its client has gone. -/
theorem endWorker_moves :
    Moves name (.endWorker me) (d.seat name) ((d.endWorker me).seat name) := by
  rw [Daemon.endWorker]
  split
  · exact Moves.other _ (by simp)
  · next c hclient =>
    split
    · next hworker htasks hzombie =>
      by_cases hme : name = me
      · subst hme
        have hseat : (d.modClient name fun c => { c with worker := .ended }).seat name =
            ((d.desk name).map fun k => { k with worker := .ended }, d.mail name) :=
          seat_modClient (by intro; rfl) (by intro; rfl)
        rw [hseat, seat_of_desk (desk_of_client hclient), desk_of_client hclient]
        exact Moves.retire hworker htasks hzombie
      · rw [seat_modClient_other (by intro; rfl) hme]
        exact Moves.other _ (by simp)
    · exact Moves.other _ (by simp)

/-- Giving back comparisons says nothing to anybody. -/
theorem decAll_talk {comparisons : List Comparison} :
    (decAll env comparisons d).talk = d.talk := by
  induction comparisons generalizing d with
  | nil => rfl
  | cons comparison comparisons ih =>
    show (decAll env comparisons (decUseCount env comparison.snapper d)).talk = d.talk
    rw [ih]
    rfl

/-- A client that goes leaves no desk; the others keep theirs, also where an exception ends the
daemon. -/
theorem reap_moves : Moves name (.reap me env) (d.seat name) ((d.reap me env).seat name) := by
  have hcases : d.reap me env = d ∨ _ := reap_cases
  rcases hcases with hsame | ⟨c, d₁, hclient, hworker, hzombie, hrest⟩
  · rw [hsame]
    exact Moves.other _ (by simp)
  · have htalk : ∀ {r}, (umountAll env c.mounts.entries).run (decAll env c.comparisons d) =
        (r, d₁) → d₁.talk = d.talk := fun hrun =>
          (talk_of_calm (umountAll_mute.run hrun)).trans decAll_talk
    rcases hrest with ⟨hrun, hreap⟩ | ⟨e, hrun, hend⟩
    · have hdesk : ∀ name', d₁.desk name' = d.desk name' := fun _ => desk_of_talk (htalk hrun)
      have hmail : (d.reap me env).mail name = d.mail name := by
        rw [hreap]
        have hsent := sent_of_talk (htalk hrun)
        exact congrArg (List.filter _) hsent
      by_cases hme : name = me
      · subst hme
        have hnone : (d.reap name env).desk name = none := by
          rw [hreap, Daemon.desk, Daemon.client, lookup, List.find?_filter]
          simp
        have hseat : (d.reap name env).seat name = (none, d.mail name) := by
          rw [Daemon.seat, hnone, hmail]
        rw [hseat, seat_of_desk (desk_of_client hclient)]
        exact Moves.gone hworker hzombie
      -- the clients of other names are all still there
      · have hsame : (d.reap me env).desk name = d.desk name := by
          rw [← hdesk, hreap, Daemon.desk, Daemon.desk, Daemon.client, Daemon.client]
          congr 1
          cases hlookup : lookup Client.name name d₁.clients with
          | none =>
            rw [lookup_eq_none_iff] at hlookup ⊢
            exact fun c hc => hlookup c (List.mem_filter.mp hc).1
          | some c =>
            refine lookup_filter hlookup ?_
            simpa [key_of_lookup hlookup] using hme
        have hseat : (d.reap me env).seat name = d.seat name := by
          rw [Daemon.seat, hsame, hmail, Daemon.seat]
        rw [hseat]
        exact Moves.other _ (by simp)
    · have hsame : (d.reap me env).seat name = d.seat name := by
        rw [hend]
        exact seat_of_talk (htalk hrun)
      rw [hsame]
      exact Moves.other _ (by simp)

/-- The background and the periodic work do not talk to clients. -/
theorem background_talk (env : Env) (id : Nat) :
    (d.startTask env).talk = d.talk ∧ (d.mountTask env).talk = d.talk ∧
    (d.finishTask env).talk = d.talk ∧ d.popTask.talk = d.talk ∧
    (d.unload id env).talk = d.talk := by
  -- one of the five after the other: starting, mounting, finishing and taking a task, and an
  -- unload
  refine ⟨?_, ?_, ?_, ?_, ?_⟩
  · have hcases : d.startTask env = d ∨ d.startTask env = d.terminate ∨ _ := startTask_cases
    rcases hcases with hsame | hend | ⟨task, rest, -, -, hstart⟩
    · rw [hsame]
    · rw [hend]
      rfl
    · rw [hstart]
      have hopened : (d.openedAt env task.metaSnapper).talk = d.talk := talk_of_calm openedAt_calm
      exact hopened
  · rw [Daemon.mountTask]
    split
    · split
      · split
        · next hrun =>
          have hsame := talk_of_calm (mountBoth_mute.run hrun)
          exact hsame
        · next hrun =>
          have hsame := talk_of_calm (mountBoth_mute.run hrun)
          exact hsame
      · rfl
    · rfl
  · rw [Daemon.finishTask]
    split
    · split
      · split
        · next hrun =>
          have hsame := talk_of_calm (umountBoth_mute.run hrun)
          exact hsame
        · next hrun =>
          have hsame := talk_of_calm (umountBoth_mute.run hrun)
          exact hsame
      · rfl
      · rfl
    · rfl
  · rcases popTask_cases with hsame | ⟨-, hpop⟩
    · rw [hsame]
    · rw [hpop]
      rfl
  · have hcases : d.unload id env = d ∨ _ := unload_cases
    rcases hcases with hsame | ⟨-, written, -, -, -, hend⟩ | ⟨m, -, -, -, -, hunload⟩
    · rw [hsame]
    · rw [hend]
      rfl
    · rw [hunload]
      rfl

/-- A step of a running daemon is a step of the machine of each client. -/
theorem step_moves (hrunning : ¬ (d.aborted ∨ d.terminated)) (a : Action) :
    Moves name a (d.seat name) ((d.step a).seat name) := by
  rw [Daemon.step.eq_def, if_neg hrunning]
  -- what the background and the periodic work do is no business of a client
  have hquiet : ∀ {d' : Daemon}, d'.talk = d.talk → (∀ request, a ≠ .receive name request) →
      Moves name a (d.seat name) (d'.seat name) := by
    intro d' htalk hreceive
    rw [seat_of_talk htalk]
    exact Moves.other _ hreceive
  cases a with
  | receive me request => exact receive_moves
  | disconnect me => exact disconnect_moves
  | work me env => exact work_moves
  | endWorker me => exact endWorker_moves
  | mountComparison me env => exact mountComparison_moves
  | finishComparison me env files => exact finishComparison_moves
  | failComparison me env failure => exact failComparison_moves
  | startTask env => exact hquiet (background_talk env 0).1 (by simp)
  | mountTask env => exact hquiet (background_talk env 0).2.1 (by simp)
  | finishTask env => exact hquiet (background_talk env 0).2.2.1 (by simp)
  | popTask => exact hquiet (background_talk Env.quiet 0).2.2.2.1 (by simp)
  | reap me env => exact reap_moves
  | unload id env => exact hquiet (background_talk env id).2.2.2.2 (by simp)
  | race id num userRequest useCount => exact hquiet rfl (by simp)
  | spoil id nums => exact hquiet rfl (by simp)

end Seats

/-! ## Books -/

/-- The requests that a client has sent. -/
def requests (name : Str) (actions : List Action) : List Request :=
  actions.filterMap fun
    | .receive me request => if me = name then some request else none
    | _ => none

/-- The client is not seen to go. -/
def Remains (name : Str) (actions : List Action) : Prop := ∀ a ∈ actions, a ≠ .disconnect name

/-- The requests at a desk that have no answer yet: the comparison in progress and the queue. -/
inductive Owed : Option Desk → List Request → Prop
  | none : Owed none []
  | queue {k : Desk} (h : ∀ making, k.worker ≠ .comparing making) : Owed (some k) k.tasks
  | comparing {k : Desk} {making : Making} (configName : Str) (num1 num2 : UInt32)
      (h : k.worker = .comparing making) :
      Owed (some k) (.createComparison configName num1 num2 :: k.tasks)

/-- The messages are answers to some requests in a row; with those that are owed they are what was
sent, unless some are lost.  Lost requests leave a gap, but the others stay in order. -/
structure Account (name : Str) (sent : List Request) (lost : Prop) (mail : List Sent)
    (answered owed : List Request) : Prop where
  answers : List.Forall₂ (Answers name) answered mail
  part : (answered ++ owed).Sublist sent
  whole : ¬ lost → answered ++ owed = sent

/-- The books on a client are right, and nothing is lost of a client that is there. -/
structure Books (name : Str) (sent : List Request) (lost : Prop) (seat : Seat) : Prop where
  booked : ∃ answered owed, Account name sent lost seat.2 answered owed ∧ Owed seat.1 owed
  alive : ¬ lost → ∀ k, seat.1 = some k → k.zombie = false

section Books

variable {name : Str} {sent : List Request} {lost lost' : Prop} {seat seat' : Seat} {a : Action}
  {mail : List Sent} {answered owed owed' rest : List Request} {request : Request} {k : Desk}

/-- The answer to the first request that is owed. -/
theorem Account.answer {msg : Sent} (h : Account name sent lost mail answered (request :: rest))
    (hmsg : Answers name request msg) :
    Account name sent lost (mail ++ [msg]) (answered ++ [request]) rest where
  answers := List.rel_append h.answers (.cons hmsg .nil)
  part := by simpa using h.part
  whole := by simpa using h.whole

/-- A request that comes in is owed after all others. -/
theorem Account.receive (h : Account name sent lost mail answered owed) (request : Request) :
    Account name (sent ++ [request]) lost mail answered (owed ++ [request]) where
  answers := h.answers
  part := by
    rw [← List.append_assoc]
    exact h.part.append (.refl [request])
  whole hlost := by rw [← List.append_assoc, h.whole hlost]

/-- Only what is lost is not owed any more. -/
theorem Account.lose (h : Account name sent lost mail answered owed) (hfewer : owed'.Sublist owed)
    (hlost : lost → lost') (hsame : ¬ lost' → owed' = owed) :
    Account name sent lost' mail answered owed' where
  answers := h.answers
  part := (hfewer.append_left answered).trans h.part
  whole hnot := by rw [hsame hnot, h.whole fun h => hnot (hlost h)]

/-- A request is put at the end of the queue. -/
theorem Owed.receive (h : Owed (some k) owed) (request : Request) :
    Owed (some { k with tasks := k.tasks ++ [request] }) (owed ++ [request]) := by
  cases h with
  | queue h => exact Owed.queue h
  | comparing configName num1 num2 h => exact Owed.comparing configName num1 num2 h

/-- A client that goes still has its requests at the desk. -/
theorem Owed.leave (h : Owed (some k) owed) : Owed (some { k with zombie := true }) owed := by
  cases h with
  | queue h => exact Owed.queue h
  | comparing configName num1 num2 h => exact Owed.comparing configName num1 num2 h

/-- A desk without a comparison owes what is in its queue. -/
theorem Owed.eq_tasks (h : Owed (some k) owed) (hworker : ∀ making, k.worker ≠ .comparing making) :
    owed = k.tasks := by
  cases h with
  | queue => rfl
  | comparing configName num1 num2 h => exact absurd h (hworker _)

/-- A desk with a comparison owes it first. -/
theorem Owed.eq_comparing {making : Making} (h : Owed (some k) owed)
    (hworker : k.worker = .comparing making) :
    ∃ configName num1 num2, owed = .createComparison configName num1 num2 :: k.tasks := by
  cases h with
  | queue h => exact absurd hworker (h making)
  | comparing configName num1 num2 h => exact ⟨configName, num1, num2, rfl⟩

theorem requests_receive : requests name [.receive name request] = [request] := by simp [requests]

/-- Only a message that is received adds a request. -/
theorem requests_other (h : ∀ request, a ≠ .receive name request) : requests name [a] = [] := by
  cases a with
  | receive me request =>
    have hme : me ≠ name := by
      rintro rfl
      exact h request rfl
    simp [requests, hme]
  | _ => rfl

theorem requests_append {actions : List Action} :
    requests name (actions ++ [a]) = requests name actions ++ requests name [a] :=
  List.filterMap_append

/-- A client that is a zombie has been seen to go. -/
theorem Books.of_zombie (h : Books name sent lost (some k, mail)) (hzombie : k.zombie = true) :
    lost := by
  by_contra hlost
  have hfalse := h.alive hlost k rfl
  rw [hzombie] at hfalse
  cases hfalse

/-- More may be counted as lost. -/
theorem Books.mono (h : Books name sent lost seat) (hlost : lost → lost') :
    Books name sent lost' seat := by
  obtain ⟨answered, owed, haccount, howed⟩ := h.booked
  exact ⟨⟨answered, owed, haccount.lose (.refl _) hlost fun _ => rfl, howed⟩,
    fun hnot => h.alive fun h => hnot (hlost h)⟩

/-- Where nobody answers any more, requests are lost. -/
theorem Books.ignore (h : Books name sent lost seat) (hlost : lost') (ignored : List Request) :
    Books name (sent ++ ignored) lost' seat := by
  obtain ⟨answered, owed, haccount, howed⟩ := h.booked
  refine ⟨⟨answered, owed, ⟨haccount.answers, ?_, fun hnot => absurd hlost hnot⟩, howed⟩,
    fun hnot => absurd hlost hnot⟩
  exact haccount.part.trans (List.sublist_append_left sent ignored)

/-- A step of the machine keeps the books.  There is one case for each kind of step; a request
goes from the queue to the answers, or to the comparison in progress and from there to the
answers. -/
theorem Books.move (h : Moves name a seat seat') (hbooks : Books name sent lost seat) :
    Books name (sent ++ requests name [a]) (lost ∨ a = .disconnect name) seat' := by
  obtain ⟨answered, owed, haccount, howed⟩ := hbooks.booked
  have hleft : ∀ {a : Action}, ¬ (lost ∨ a = .disconnect name) → ¬ lost := fun h hlost =>
    h (Or.inl hlost)
  have hsame : Account name sent (lost ∨ a = .disconnect name) seat.2 answered owed :=
    haccount.lose (.refl _) Or.inl fun _ => rfl
  cases h with
  | other seat hreceive =>
    rw [requests_other hreceive, List.append_nil]
    exact ⟨⟨answered, owed, hsame, howed⟩, fun hlost => hbooks.alive (hleft hlost)⟩
  | first request mail =>
    cases howed
    rw [requests_receive]
    refine ⟨⟨answered, [request], hsame.receive request, .queue (by simp)⟩, ?_⟩
    rintro - k ⟨⟩
    rfl
  | queue request k mail =>
    rw [requests_receive]
    refine ⟨⟨answered, _, hsame.receive request, howed.receive request⟩, ?_⟩
    rintro hlost k' ⟨⟩
    exact hbooks.alive (hleft hlost) k rfl
  | leave k mail =>
    rw [requests_other (by simp), List.append_nil]
    exact ⟨⟨answered, owed, hsame, howed.leave⟩, fun hlost => absurd (Or.inr rfl) hlost⟩
  -- the first of the queue is answered
  | @answer _ k _ _ _ _ hworker htasks hmsg =>
    obtain rfl := howed.eq_tasks (by simp [hworker])
    rw [htasks] at hsame
    rw [requests_other (by simp), List.append_nil]
    refine ⟨⟨_, _, hsame.answer hmsg, .queue (by simp [hworker])⟩, ?_⟩
    rintro hlost k' ⟨⟩
    exact hbooks.alive (hleft hlost) k rfl
  -- the first of the queue is now the comparison in progress
  | @begin _ k _ _ _ _ _ making hworker htasks =>
    obtain rfl := howed.eq_tasks (by simp [hworker])
    rw [htasks] at hsame
    rw [requests_other (by simp), List.append_nil]
    refine ⟨⟨_, _, hsame, .comparing _ _ _ rfl⟩, ?_⟩
    rintro hlost k' ⟨⟩
    exact hbooks.alive (hleft hlost) k rfl
  | @mount _ k _ _ hworker hmounted =>
    obtain ⟨configName, num1, num2, rfl⟩ := howed.eq_comparing hworker
    rw [requests_other (by simp), List.append_nil]
    refine ⟨⟨_, _, hsame, .comparing _ _ _ rfl⟩, ?_⟩
    rintro hlost k' ⟨⟩
    exact hbooks.alive (hleft hlost) k rfl
  -- and here the comparison in progress is answered
  | @finish _ k _ _ _ hworker hreceive hmsg =>
    obtain ⟨configName, num1, num2, rfl⟩ := howed.eq_comparing hworker
    rw [requests_other hreceive, List.append_nil]
    refine ⟨⟨_, _, hsame.answer (hmsg configName num1 num2), .queue (by simp)⟩, ?_⟩
    rintro hlost k' ⟨⟩
    exact hbooks.alive (hleft hlost) k rfl
  | interrupt hworker hzombie =>
    -- the comparison stays without an answer
    obtain ⟨configName, num1, num2, rfl⟩ := howed.eq_comparing hworker
    have hlost := hbooks.of_zombie hzombie
    rw [requests_other (by simp), List.append_nil]
    exact ⟨⟨_, _, hsame.lose (List.sublist_cons_self _ _) id fun h => absurd (Or.inl hlost) h,
      .queue (by simp)⟩, fun h => absurd (Or.inl hlost) h⟩
  | retire hworker htasks hzombie =>
    have hlost := hbooks.of_zombie hzombie
    obtain rfl := howed.eq_tasks (by simp [hworker])
    rw [requests_other (by simp), List.append_nil]
    exact ⟨⟨_, _, hsame, .queue (by simp)⟩, fun h => absurd (Or.inl hlost) h⟩
  | gone hworker hzombie =>
    -- so does what is queued at a desk that is removed
    have hlost := hbooks.of_zombie hzombie
    rw [requests_other (by simp), List.append_nil]
    exact ⟨⟨_, [], hsame.lose (List.nil_sublist _) id fun h => absurd (Or.inl hlost) h, .none⟩,
      fun h => absurd (Or.inl hlost) h⟩

end Books

/-! ## Over a run -/

/-- An assertion failed or an exception was not caught. -/
def Daemon.Ended (d : Daemon) : Prop := d.aborted = true ∨ d.terminated = true

section Run

variable {d start : Daemon} {name : Str} {a : Action} {actions : List Action}

/-- After its end the daemon does nothing. -/
theorem step_of_ended (h : d.Ended) : d.step a = d := by
  rw [Daemon.step.eq_def]
  exact if_pos h

theorem remains_of_append (h : Remains name (actions ++ [a])) : Remains name actions :=
  fun a' ha' => h a' (List.mem_append_left _ ha')

/-- The books are right at the end of every run.  What the daemon has not answered when it ended,
or when the client went, is lost. -/
theorem books_of_run (hstart : start.Initial) (name : Str) (actions : List Action) :
    Books name (requests name actions)
      ((actions.foldl Daemon.step start).Ended ∨ ¬ Remains name actions)
      ((actions.foldl Daemon.step start).seat name) := by
  have hinit : Books name (requests name []) (start.Ended ∨ ¬ Remains name [])
    (start.seat name) := by
    have hdesk : start.desk name = none := by
      rw [Daemon.desk, Daemon.client, hstart.clients]
      rfl
    have hmail : start.mail name = [] := by rw [Daemon.mail, hstart.sent]; rfl
    rw [Daemon.seat, hdesk, hmail]
    exact ⟨⟨[], [], ⟨.nil, .refl _, fun _ => rfl⟩, .none⟩, fun _ k hk => by cases hk⟩
  refine foldl_induction (P := fun done (d : Daemon) => Books name (requests name done)
    (d.Ended ∨ ¬ Remains name done) (d.seat name)) hinit ?_ (List.append_nil actions).symm
  intro done a rest _ hbooks
  rw [requests_append]
  by_cases hended : (done.foldl Daemon.step start).Ended
  · -- a daemon that has ended does nothing
    rw [step_of_ended hended]
    exact hbooks.ignore (Or.inl hended) _
  · refine (hbooks.move (step_moves hended a)).mono ?_
    rintro ((hended' | hgone) | rfl)
    · exact absurd hended' hended
    · exact Or.inr fun h => hgone (remains_of_append h)
    · exact Or.inr fun h => h _ (List.mem_append_right _ (List.mem_singleton_self _)) rfl

/-- In every run the messages to a client are the answers to some of its requests, in their order.
While the daemon runs and the client is there they are the answers to all requests but those
that are in the queue or being worked on. -/
theorem answered_in_order (hstart : start.Initial) (name : Str) (actions : List Action) :
    let d := actions.foldl Daemon.step start
    ∃ answered owed, List.Forall₂ (Answers name) answered (d.mail name) ∧
      Owed (d.desk name) owed ∧ (answered ++ owed).Sublist (requests name actions) ∧
      (d.terminated = false → Remains name actions → answered ++ owed = requests name actions) := by
  intro d
  have hbooks := books_of_run hstart name actions
  obtain ⟨answered, owed, haccount, howed⟩ := hbooks.booked
  refine ⟨answered, owed, haccount.answers, howed, haccount.part, ?_⟩
  intro hrunning hremains
  have hreachable : d.Reachable := ⟨start, actions, hstart, rfl⟩
  apply haccount.whole
  rintro ((haborted | hterminated) | hgone)
  · rw [hreachable.counting.aborted] at haborted
    cases haborted
  · rw [hrunning] at hterminated
    cases hterminated
  · exact hgone hremains

/-- Two clients get what they ask for, one of them after the mistake of the other. -/
theorem answered_in_order_two :
    let actions : List Action := [.receive (str "a") (.getSnapshot (str "root") 7),
      .receive (str "b") (.listSnapshots (str "root")), .receive (str "a") .listConfigs,
      .work (str "b") Env.quiet, .work (str "a") Env.quiet]
    ∃ answered owed, List.Forall₂ (Answers (str "a")) answered
        ((actions.foldl Daemon.step Daemon.rootOnly).mail (str "a")) ∧
      answered ++ owed = requests (str "a") actions := by
  intro actions
  obtain ⟨answered, owed, hanswers, -, -, hall⟩ :=
    answered_in_order rootOnly_initial (str "a") actions
  exact ⟨answered, owed, hanswers, hall rfl (by simp [Remains, actions])⟩

end Run

end Snapper.Server
