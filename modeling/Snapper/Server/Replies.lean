import Snapper.Server.Moves

/-!
# Every request is answered once

A client's worker takes its requests in the order of their arrival.  For each it sends one
message to the client, a reply of the kind the request asks for or an error, and nothing else
is sent to a client.  Only a client that has gone can lose requests.

## Main results

* `dispatch_answers`: what the worker sends for one request.
* `answered_in_order`: in every run the answers are those of the requests, in their order.
-/

namespace Snapper.Server

open General Act

/-! ## Answers -/

/-- The client that a message is for; signals are for everybody. -/
def Sent.recipient : Sent → Option Str
  | .reply client _ => some client
  | .error client _ => some client
  | _ => none

/-- What was sent to a client. -/
def Daemon.mail (name : Str) (d : Daemon) : List Sent :=
  d.sent.filter fun msg => msg.recipient = some name

/-- The reply is of the kind that the request asks for, and about what it asks for: the config of
the name, the snapshot of the number, dates between the bounds, and never the number of the
current system for a new snapshot. -/
inductive Fits : Request → Reply → Prop
  | listConfigs (infos : List ConfigInfo) : Fits .listConfigs (.configs infos)
  | createConfig (configName subvolume fstype templateName : Str) :
      Fits (.createConfig configName subvolume fstype templateName) .done
  | getConfig (info : ConfigInfo) : Fits (.getConfig info.configName) (.config info)
  | deleteConfig (configName : Str) : Fits (.deleteConfig configName) .done
  | lockConfig (configName : Str) : Fits (.lockConfig configName) .done
  | unlockConfig (configName : Str) : Fits (.unlockConfig configName) .done
  | listSnapshots (configName : Str) (snapshots : List Snapshot) :
      Fits (.listSnapshots configName) (.snapshots snapshots)
  | listSnapshotsAtTime (configName : Str) {begin_ end_ : Int64} {snapshots : List Snapshot}
      (hdates : ∀ s ∈ snapshots, begin_ ≤ s.date ∧ s.date ≤ end_) :
      Fits (.listSnapshotsAtTime configName begin_ end_) (.snapshots snapshots)
  | getSnapshot (configName : Str) (snapshot : Snapshot) :
      Fits (.getSnapshot configName snapshot.num) (.snapshot snapshot)
  | setSnapshot (configName : Str) (num : UInt32) (description cleanup : Str)
      (userdata : StrMap) : Fits (.setSnapshot configName num description cleanup userdata) .done
  | createSingleSnapshot (configName description cleanup : Str) (userdata : StrMap) {num : UInt32}
      (hnum : num ≠ 0) :
      Fits (.createSingleSnapshot configName description cleanup userdata) (.number num)
  | createPreSnapshot (configName description cleanup : Str) (userdata : StrMap) {num : UInt32}
      (hnum : num ≠ 0) :
      Fits (.createPreSnapshot configName description cleanup userdata) (.number num)
  | createPostSnapshot (configName : Str) (preNum : UInt32) (description cleanup : Str)
      (userdata : StrMap) {num : UInt32} (hnum : num ≠ 0) :
      Fits (.createPostSnapshot configName preNum description cleanup userdata) (.number num)
  | deleteSnapshots (configName : Str) (nums : List UInt32) :
      Fits (.deleteSnapshots configName nums) .done
  | mountSnapshot (configName : Str) (num : UInt32) (userRequest : Bool) (path : Str) :
      Fits (.mountSnapshot configName num userRequest) (.mountPoint path)
  | umountSnapshot (configName : Str) (num : UInt32) (userRequest : Bool) :
      Fits (.umountSnapshot configName num userRequest) .done
  | getMountPoint (configName : Str) (num : UInt32) (path : Str) :
      Fits (.getMountPoint configName num) (.mountPoint path)
  | createComparison (configName : Str) (num1 num2 : UInt32) :
      Fits (.createComparison configName num1 num2) .done
  | deleteComparison (configName : Str) (num1 num2 : UInt32) :
      Fits (.deleteComparison configName num1 num2) .done
  | getFiles (configName : Str) (num1 num2 : UInt32) (files : List DBus.SentFile) :
      Fits (.getFiles configName num1 num2) (.files files)
  | debug : Fits .debug .done

/-- The message is one that `Client::dispatch` sends for a request of this client. -/
inductive Answers (name : Str) (request : Request) : Sent → Prop
  | reply {reply : Reply} (h : Fits request reply) : Answers name request (.reply name reply)
  | error (e : Exception) : Answers name request (.error name e.error)

/-- Both kinds of answers are for the client of the request. -/
theorem Answers.recipient {name : Str} {request : Request} {msg : Sent}
    (h : Answers name request msg) : msg.recipient = some name := by
  cases h with
  | reply h => rfl
  | error e => rfl

/-! ## Desks -/

/-- The part of a client that concerns its requests: those that wait, what its worker does, and
whether it is still there. -/
structure Desk where
  name : Str
  tasks : List Request
  worker : Worker
  zombie : Bool

/-- What a client has asked and how far its worker is. -/
def Client.desk (c : Client) : Desk := ⟨c.name, c.tasks, c.worker, c.zombie⟩

/-- The desks of the clients and what was sent. -/
def Daemon.talk (d : Daemon) : List Desk × List Sent := (d.clients.map Client.desk, d.sent)

/-- What stays while a handler works: the desks, what was sent, and the background. -/
def Daemon.calm (d : Daemon) : (List Desk × List Sent) × List Task × Background :=
  (d.talk, d.tasks, d.background)

/-- The desk of a client, if it is known. -/
def Daemon.desk (name : Str) (d : Daemon) : Option Desk := (d.client name).map Client.desk

/-- The worker makes a comparison. -/
def Desk.begin (making : Making) (k : Desk) : Desk := { k with worker := .comparing making }

section Talk

variable {d d' : Daemon} {env : Env} {name me configName : Str} {id : Nat} {num : UInt32}
  {g : Client → Client} {msg : Sent} {request : Request}

/-- The desk of a client is the first desk with its name. -/
theorem desk_eq_find : d.desk name = (d.clients.map Client.desk).find? fun k => k.name = name := by
  rw [Daemon.desk, Daemon.client, lookup, List.find?_map]
  rfl

theorem desk_of_talk (h : d'.talk = d.talk) : d'.desk name = d.desk name := by
  have hdesks : d'.clients.map Client.desk = d.clients.map Client.desk := congrArg Prod.fst h
  rw [desk_eq_find, desk_eq_find, hdesks]

theorem sent_of_talk (h : d'.talk = d.talk) : d'.sent = d.sent := congrArg Prod.snd h

theorem talk_of_calm (h : d'.calm = d.calm) : d'.talk = d.talk := congrArg Prod.fst h

theorem tasks_of_calm (h : d'.calm = d.calm) : d'.tasks = d.tasks :=
  congrArg (fun calm => calm.2.1) h

theorem background_of_calm (h : d'.calm = d.calm) : d'.background = d.background :=
  congrArg (fun calm => calm.2.2) h

theorem mail_of_sent (h : d'.sent = d.sent) : d'.mail name = d.mail name := by
  rw [Daemon.mail, Daemon.mail, h]

/-- Where the client of the desk is changed, the desk is. -/
theorem desks_modClient {k : Desk → Desk} (hg : ∀ c, (g c).desk = k c.desk) :
    (d.modClient name g).clients.map Client.desk =
      update Desk.name name k (d.clients.map Client.desk) := by
  show (update Client.name name g d.clients).map _ = _
  rw [update, update, List.map_map, List.map_map]
  apply List.map_congr_left
  intro c _
  show (if c.name = name then g c else c).desk = if c.name = name then k c.desk else c.desk
  split
  · exact hg c
  · rfl

/-- Of the messages sent a client gets those for it. -/
theorem mail_append {msgs : List Sent} (h : d'.sent = d.sent ++ msgs) :
    d'.mail name = d.mail name ++ msgs.filter fun msg => msg.recipient = some name := by
  rw [Daemon.mail, Daemon.mail, h, List.filter_append]

/-- What a handler does to the locks, mounts and comparisons of a client shows at no desk. -/
theorem calm_modClient (hg : ∀ c, (g c).desk = c.desk) : (d.modClient name g).calm = d.calm := by
  have hdesks : (d.modClient name g).clients.map Client.desk = d.clients.map Client.desk :=
    map_update hg
  show ((_, _), _, _) = ((_, _), _, _)
  rw [hdesks]
  rfl

/-- The desk that a client has after a change of the client. -/
theorem desk_modClient {k : Desk → Desk} (hname : ∀ c, (g c).name = c.name)
    (hg : ∀ c, (g c).desk = k c.desk) :
    (d.modClient name g).desk name = (d.desk name).map k := by
  have hclient : (d.modClient name g).client name = (d.client name).map g :=
    lookup_update_self hname
  rw [Daemon.desk, hclient, Daemon.desk, Option.map_map, Option.map_map]
  congr 1
  funext c
  exact hg c

/-- The desks of the other clients are as they were. -/
theorem desk_modClient_other (hname : ∀ c, (g c).name = c.name) (hne : name ≠ me) :
    (d.modClient me g).desk name = d.desk name := by
  have hclient : (d.modClient me g).client name = d.client name := lookup_update_other hname hne
  rw [Daemon.desk, hclient, Daemon.desk]

/-! ## What sends nothing -/

/-- Neither a desk nor the queue of the background changes, nor is anything sent. -/
abbrev Mute {α : Type} (c : Handler α) : Prop := Leaves Daemon.calm c

theorem call_mute {c : Call} : Mute (call env c) := by
  rw [call]
  split
  · exact Leaves.pure
  · exact Leaves.throw

theorem findConfig_mute : Mute (findConfig configName) := by
  apply Leaves.bind Leaves.read
  intro m
  cases m with
  | none => exact Leaves.throw
  | some m => exact Leaves.pure

theorem getUnixUserid_mute {again : Bool} : Mute (getUnixUserid env again) :=
  call_mute.bind fun _ => Leaves.pure

theorem checkRoot_mute : Mute (checkRoot env) :=
  getUnixUserid_mute.bind fun _ => Leaves.throwIf

theorem checkPermission_mute {m : MetaSnapper} : Mute (checkPermission env m) :=
  getUnixUserid_mute.bind fun _ => Leaves.throwIf

theorem checkLock_mute : Mute (checkLock me configName) :=
  Leaves.read.bind fun _ => Leaves.throwIf

theorem checkSnapshotInUse_mute {m : MetaSnapper} : Mute (checkSnapshotInUse m num) :=
  Leaves.read.bind fun _ => Leaves.throwIf

/-- Loading a config sends nothing. -/
theorem openedAt_calm : (d.openedAt env id).calm = d.calm := by
  rw [Daemon.openedAt]
  split
  · rfl
  · show (if _ then d else _).calm = d.calm
    split
    · rfl
    · rfl

theorem getSnapper_mute : Mute (getSnapper env id) := by
  intro d
  have hcases : (getSnapper env id).run d = _ ∨ _ := getSnapper_cases
  rcases hcases with hrun | ⟨e, hrun⟩
  · rw [hrun]
    exact openedAt_calm
  · rw [hrun]

theorem openConfig_mute : Mute (openConfig env configName) :=
  findConfig_mute.bind fun _ => checkPermission_mute.bind fun _ =>
    getSnapper_mute.bind fun _ => Leaves.pure

theorem findSnapshot_mute : Mute (findSnapshot id num) := Leaves.read

theorem getSnapshot_mute : Mute (getSnapshot id num) := by
  apply findSnapshot_mute.bind
  intro s
  cases s with
  | none => exact Leaves.throw
  | some s => exact Leaves.pure

theorem setField_mute {f : Snapshot → Snapshot} : Mute (setField id num f) :=
  Leaves.ite Leaves.throw (Leaves.modify fun _ => rfl)

theorem setUserdata_mute {userdata : StrMap} : Mute (setUserdata id num userdata) :=
  Leaves.ite Leaves.throw setField_mute

/-- Writing an info is no message, also where it fails. -/
theorem flushInfo_mute {again : Bool} : Mute (flushInfo env id num again) := by
  apply findSnapshot_mute.bind
  intro s
  cases s with
  | none => exact Leaves.pure
  | some s =>
    apply Leaves.ite _ Leaves.pure
    exact Leaves.throwIf.bind fun _ => call_mute.bind fun _ =>
      Leaves.bind (Leaves.modify fun _ => rfl) fun _ => Leaves.modify fun _ => rfl

theorem nextNumber_mute : Mute (nextNumber env id) := by
  apply Leaves.bind Leaves.read
  intro snapshots
  apply Leaves.bind Leaves.read
  intro m
  dsimp only
  split
  · exact Leaves.throw
  · exact call_mute.bind fun _ => Leaves.bind (Leaves.modify fun _ => rfl) fun _ => Leaves.pure

theorem removeDir_mute : Mute (removeDir env id num) := Leaves.modify fun _ => rfl

/-- A creation is signalled by the handler, not by the helper. -/
theorem createHelper_mute {s : Snapshot} : Mute (createHelper env id s) := by
  apply Leaves.throwIf.bind
  intro _
  split
  · exact removeDir_mute.bind fun _ => Leaves.throw
  · exact Leaves.throw
  · -- the file system has made the snapshot
    split
    · exact call_mute.bind fun _ => removeDir_mute.bind fun _ => Leaves.throw
    · exact Leaves.throw
    · exact Leaves.modify fun _ => rfl

theorem createSnapshot_mute {type : SnapshotType} {preNum : UInt32} {description : Str} :
    Mute (createSnapshot env id type preNum description) :=
  nextNumber_mute.bind fun _ => createHelper_mute.bind fun _ => Leaves.pure

theorem createPostSnapshot_mute {description : Str} {pre : Option Snapshot} :
    Mute (createPostSnapshot env id description pre) := by
  apply Leaves.bind Leaves.read
  intro snapshots
  cases pre with
  | none => exact Leaves.throw
  | some pre => exact Leaves.ite Leaves.throw createSnapshot_mute

theorem finishCreate_mute {cleanup : Str} {userdata : StrMap} :
    Mute (finishCreate env id num cleanup userdata) :=
  getUnixUserid_mute.bind fun _ => setField_mute.bind fun _ => setField_mute.bind fun _ =>
    setUserdata_mute.bind fun _ => flushInfo_mute

theorem deleteSnapshot_mute {s : Option Snapshot} : Mute (deleteSnapshot env id s) := by
  cases s with
  | none => exact Leaves.throw
  | some s =>
    apply Leaves.ite Leaves.throw
    exact call_mute.bind fun _ => Leaves.bind (Leaves.modify fun _ => rfl) fun _ =>
      call_mute.bind fun _ => Leaves.modify fun _ => rfl

theorem deleteAll_mute {m : MetaSnapper} {nums : List UInt32} :
    Mute (deleteAll env m nums) := by
  induction nums with
  | nil => exact Leaves.pure
  | cons num nums ih =>
    exact checkSnapshotInUse_mute.bind fun _ => findSnapshot_mute.bind fun _ =>
      deleteSnapshot_mute.bind fun _ => ih

theorem changes_mute : ChangesSnapshots fun d d' => d'.calm = d.calm :=
  fun _ _ _ _ => rfl

/-- Mounting sends nothing. -/
theorem mountFilesystemSnapshot_mute {s : Snapshot} {userRequest : Bool} :
    Mute (mountFilesystemSnapshot env id configName s userRequest) := by
  have hthrough : Through (fun d d' => d'.calm = d.calm) (fun _ => True)
      (mountFilesystemSnapshot env id configName s userRequest) fun _ d => True ∧ s.num ≠ 0 :=
    mountFilesystemSnapshot_through (fun _ => rfl) (fun _ => rfl) fun _ _ _ h => h
  exact Leaves.of_through hthrough fun _ _ h => h

theorem umountFilesystemSnapshot_mute {s : Snapshot} {userRequest : Bool} :
    Mute (umountFilesystemSnapshot env id configName s userRequest) := by
  have hthrough : Through (fun d d' => d'.calm = d.calm) (fun _ => True)
      (umountFilesystemSnapshot env id configName s userRequest) fun _ _ => True :=
    umountFilesystemSnapshot_through (fun _ => rfl) (fun _ => rfl) fun _ _ _ h => h
  exact Leaves.of_through hthrough fun _ _ h => h

theorem mountBoth_mute {num1 num2 : UInt32} : Mute (mountBoth env id num1 num2) :=
  Leaves.of_through (mountBoth_changes changes_mute) fun _ _ h => h

theorem umountBoth_mute {num1 num2 : UInt32} : Mute (umountBoth env id num1 num2) :=
  Leaves.of_through (umountBoth_changes changes_mute) fun _ _ h => h

theorem umountTimes_mute {n : Nat} : Mute (umountTimes env id configName num n) := by
  induction n with
  | zero => exact Leaves.pure
  | succ n ih =>
    exact getSnapshot_mute.bind fun _ => umountFilesystemSnapshot_mute.bind fun _ => ih

/-- A client that goes hears nothing of its mounts. -/
theorem umountAll_mute {l : List (MountKey × UInt32)} : Mute (umountAll env l) := by
  induction l with
  | nil => exact Leaves.pure
  | cons entry rest ih =>
    exact findConfig_mute.bind fun _ => getSnapper_mute.bind fun _ =>
      getSnapshot_mute.bind fun _ => umountTimes_mute.bind fun _ => ih

theorem findComparison_mute {num1 num2 : UInt32} :
    Mute (findComparison me id num1 num2) := by
  apply Leaves.bind Leaves.read
  intro snapper
  apply findSnapshot_mute.bind
  intro s1
  apply findSnapshot_mute.bind
  intro s2
  apply Leaves.bind Leaves.read
  intro client
  split
  · exact Leaves.throw
  · exact Leaves.pure

theorem deleteConfigOf_mute {m : MetaSnapper} : Mute (deleteConfigOf env m) := by
  rw [deleteConfigOf]
  split
  · exact Leaves.bind (Leaves.modify fun _ => rfl) fun _ => Leaves.throw
  · exact Leaves.modify fun _ => rfl

/-! ## What one request is answered with -/

/-- A request is done with: its answer was sent and some signals, and the background may have got
a task, or a comparison has begun.  These are the only two ways in which the handler of a request
can end. -/
inductive Served (me : Str) (request : Request) (d d' : Daemon) : Prop
  | answered {msg : Sent} {signals : List Sent} (h : Answers me request msg)
      (hsignals : ∀ s ∈ signals, s.recipient = none) (hsent : d'.sent = d.sent ++ msg :: signals)
      (hdesks : d'.clients.map Client.desk = d.clients.map Client.desk)
      (htasks : d'.tasks = d.tasks ∨ ∃ task, d'.tasks = d.tasks ++ [task])
      (hbackground : d'.background = d.background)
  | comparing (making : Making) {configName : Str} {num1 num2 : UInt32}
      (hrequest : request = .createComparison configName num1 num2) (hsent : d'.sent = d.sent)
      (hdesks : d'.clients.map Client.desk =
        update Desk.name me (Desk.begin making) (d.clients.map Client.desk))
      (htasks : d'.tasks = d.tasks) (hbackground : d'.background = d.background)

/-- Nothing else matters. -/
theorem Served.of_calm {d₁ : Daemon} (h : Served me request d₁ d') (hcalm : d₁.calm = d.calm) :
    Served me request d d' := by
  have htalk := talk_of_calm hcalm
  have hsame : d₁.clients.map Client.desk = d.clients.map Client.desk := congrArg Prod.fst htalk
  cases h with
  | answered h hsignals hsent hdesks htasks hbackground =>
    rw [tasks_of_calm hcalm] at htasks
    exact Served.answered h hsignals (by rw [hsent, sent_of_talk htalk]) (hdesks.trans hsame) htasks
      (hbackground.trans (background_of_calm hcalm))
  | comparing making hrequest hsent hdesks htasks hbackground =>
    refine Served.comparing making hrequest (hsent.trans (sent_of_talk htalk)) ?_
      (htasks.trans (tasks_of_calm hcalm)) (hbackground.trans (background_of_calm hcalm))
    rw [hdesks, hsame]

/-- What a handler has done when it is over: an exception comes before anything is sent, so that
the error of `dispatch` is the only message then. -/
def Outcome (me : Str) (request : Request) (d : Daemon) :
    Except Exception PUnit × Daemon → Prop
  | (.ok _, d') => Served me request d d'
  | (.error _, d') => d'.calm = d.calm

/-- A handler that answers the request. -/
def Answering (me : Str) (request : Request) (c : Handler PUnit) : Prop :=
  ∀ d, Outcome me request d (c.run d)

/-- What comes before the answer sends nothing, and may establish what the answer needs, such as
that a number is not the one of the current system. -/
theorem Answering.bind {α : Type} {c : Handler α} {k : α → Handler PUnit} {Q : α → Prop}
    (hc : Mute c) (hQ : Spec (fun _ => True) c (fun a _ => Q a) fun _ _ => True)
    (hk : ∀ a, Q a → Answering me request (k a)) : Answering me request (c >>= k) := by
  intro d
  rw [run_bind]
  have hQ := hQ d trivial
  cases hrun : c.run d with
  | mk r d' =>
    rw [hrun] at hQ
    have hcalm := hc.run hrun
    cases r with
    | error e => exact hcalm
    | ok a =>
      -- the rest starts from a state with the same desks, messages and tasks
      dsimp only
      have hrest := hk a hQ d'
      cases hrun' : (k a).run d' with
      | mk r' d'' =>
        rw [hrun'] at hrest
        cases r' with
        | ok _ => exact Served.of_calm hrest hcalm
        | error e => exact Eq.trans hrest hcalm

/-- What comes before sends nothing and does not matter. -/
theorem Answering.after {α : Type} {c : Handler α} {k : α → Handler PUnit} (hc : Mute c)
    (hk : ∀ a, Answering me request (k a)) : Answering me request (c >>= k) := by
  exact Answering.bind hc Spec.fact fun a _ => hk a

/-- So does a change that no desk shows. -/
theorem Answering.change {g : Daemon → Daemon} {k : Handler PUnit}
    (hg : ∀ d, (g d).calm = d.calm) (hk : Answering me request k) :
    Answering me request (Act.modify g >>= fun _ => k) :=
  Answering.after (Leaves.modify hg) fun _ => hk

/-- A handler that ends with a reply of the right kind. -/
theorem reply_answers {reply : Reply} (h : Fits request reply) :
    Answering me request (sendReply me reply) := by
  intro d
  exact Served.answered (.reply h) (by simp) rfl rfl (Or.inl rfl) rfl

/-- Most changes are signalled after the reply. -/
theorem reply_signal_answers {reply : Reply} (h : Fits request reply)
    (hmsg : msg.recipient = none) :
    Answering me request (sendReply me reply >>= fun _ => signal msg) := by
  intro d
  have hsignals : ∀ s ∈ [msg], s.recipient = none := by simpa using hmsg
  refine Served.answered (.reply h) hsignals ?_ rfl (Or.inl rfl) rfl
  show (d.sent ++ [_]) ++ [msg] = _
  rw [List.append_assoc]
  rfl

/-- The background gets a task before the reply. -/
theorem Answering.task {reply : Reply} {task : Task} (h : Fits request reply)
    (hmsg : msg.recipient = none) :
    Answering me request (addTask task >>= fun _ => sendReply me reply >>= fun _ =>
      signal msg) := by
  intro d
  have hsignals : ∀ s ∈ [msg], s.recipient = none := by simpa using hmsg
  refine Served.answered (.reply h) hsignals ?_ rfl (Or.inr ⟨task, rfl⟩) rfl
  show (d.sent ++ [_]) ++ [msg] = _
  rw [List.append_assoc]
  rfl

/-- The snapshot that is found has the number of the request. -/
theorem getSnapshot_num :
    Spec (fun _ => True) (getSnapshot id num) (fun s _ => s.num = num) fun _ _ => True := by
  apply Spec.bind (Q := fun s d => d.snapshot id num = s) (Spec.read fun _ _ => rfl)
  intro s
  cases s with
  | none => exact Spec.throw fun _ _ => trivial
  | some s => exact Spec.pure fun _ hs => key_of_lookup hs

/-- The config that is found has the name of the request. -/
theorem findConfig_configName : Spec (fun _ => True) (findConfig configName)
    (fun m _ => m.configName = configName) fun _ _ => True := by
  apply Spec.bind (Q := fun m d => d.find configName = m) (Spec.read fun _ _ => rfl)
  intro m
  cases m with
  | none => exact Spec.throw fun _ _ => trivial
  | some m => exact Spec.pure fun _ hm => configName_of_find hm

/-- No snapshot is created under the number of the current system. -/
theorem createSnapshot_num {type : SnapshotType} {preNum : UInt32} {description : Str} :
    Spec (fun _ => True) (createSnapshot env id type preNum description)
      (fun num _ => num ≠ 0) fun _ _ => True := by
  apply Spec.bind Spec.fact
  intro num
  -- `createHelper` refuses the number 0
  apply Spec.bind (Q := fun _ _ => num ≠ 0)
  · apply Spec.bind (Q := fun _ _ => num ≠ 0)
    · apply Spec.throwIf
      · exact fun _ _ _ => trivial
      · intro hcurrent _ _ hnum
        simp [Snapshot.isCurrent, Snapshot.new, hnum] at hcurrent
    · exact fun _ => Spec.fact
  · exact fun _ => Spec.pure fun _ h => h

/-- What the three create requests have in common. -/
theorem create_answers {create : MetaSnapper → Handler UInt32} {cleanup : Str}
    {userdata : StrMap} (hsilent : ∀ m, Mute (create m))
    (hnum : ∀ m, Spec (fun _ => True) (create m) (fun num _ => num ≠ 0) fun _ _ => True)
    (h : ∀ num, num ≠ 0 → Fits request (.number num)) :
    Answering me request (do
      let m ← openConfig env configName
      let num ← create m
      finishCreate env m.id num cleanup userdata
      sendReply me (.number num)
      signal (.snapshotCreated configName num)) := by
  apply Answering.after openConfig_mute
  intro m
  apply Answering.bind (hsilent m) (hnum m)
  intro num hne
  apply Answering.after finishCreate_mute
  intro _
  exact reply_signal_answers (h num hne) rfl

/-- A post snapshot is answered as the other two; the comparison that it may cause is the
background's. -/
theorem handleCreatePostSnapshot_answers {preNum : UInt32} {description cleanup : Str}
    {userdata : StrMap} :
    Answering me (.createPostSnapshot configName preNum description cleanup userdata)
      (handleCreatePostSnapshot env me configName preNum description cleanup userdata) := by
  apply Answering.after openConfig_mute
  intro m
  apply Answering.after findSnapshot_mute
  intro pre
  apply Answering.bind (Q := fun num => num ≠ 0) createPostSnapshot_mute
  · apply Spec.bind Spec.fact
    intro snapshots
    -- without a fitting pre snapshot it is an error
    cases pre with
    | none => exact Spec.throw fun _ _ => trivial
    | some pre =>
      exact Spec.ite (fun _ => Spec.throw fun _ _ => trivial) fun _ => createSnapshot_num
  · intro num hne
    apply Answering.after finishCreate_mute
    intro _
    have hfits : Fits (.createPostSnapshot configName preNum description cleanup userdata)
        (.number num) := .createPostSnapshot configName preNum description cleanup userdata hne
    split
    · exact Answering.task hfits rfl
    · exact reply_signal_answers hfits rfl

/-- The mount is entered at the client before the reply, which no desk shows. -/
theorem mountSnapshot_answers {userRequest : Bool} :
    Answering me (.mountSnapshot configName num userRequest)
      (mountSnapshot env me configName num userRequest) := by
  apply Answering.after openConfig_mute
  intro m
  apply Answering.after getSnapshot_mute
  intro s
  apply Answering.after mountFilesystemSnapshot_mute
  intro _
  -- the use is noted at the client, which is no matter of its desk
  cases userRequest with
  | true => exact reply_answers (.mountSnapshot configName num true _)
  | false =>
    apply Answering.change fun _ => calm_modClient (by intro; rfl)
    exact reply_answers (.mountSnapshot configName num false _)

/-- Giving back a mount shows at no desk. -/
theorem desk_removeMount {c : Client} : (c.removeMount configName num).desk = c.desk := by
  rw [Client.removeMount]
  split
  · rfl
  · split
    · rfl
    · rfl

/-- The handler answers once, after the last thing that can throw. -/
theorem umountSnapshot_answers {userRequest : Bool} :
    Answering me (.umountSnapshot configName num userRequest)
      (umountSnapshot env me configName num userRequest) := by
  apply Answering.after openConfig_mute
  intro m
  apply Answering.after getSnapshot_mute
  intro s
  apply Answering.after umountFilesystemSnapshot_mute
  intro _
  cases userRequest with
  | true => exact reply_answers (.umountSnapshot configName num true)
  | false =>
    apply Answering.change fun _ => calm_modClient fun _ => desk_removeMount
    exact reply_answers (.umountSnapshot configName num false)

/-- A comparison begins without an answer; its answer is sent when it is finished. -/
theorem createComparison_answers {num1 num2 : UInt32} :
    Answering me (.createComparison configName num1 num2)
      (createComparison env me configName num1 num2) := by
  apply Answering.after openConfig_mute
  intro m
  apply Answering.after Leaves.read
  intro snapper
  apply Answering.after findSnapshot_mute
  intro s1
  apply Answering.after findSnapshot_mute
  intro s2
  apply Answering.change (by intro; rfl)
  intro d
  exact Served.comparing _ rfl rfl (desks_modClient (by intro; rfl)) rfl rfl

/-- The handler answers once, after the comparison is found and taken out. -/
theorem deleteComparison_answers {num1 num2 : UInt32} :
    Answering me (.deleteComparison configName num1 num2)
      (deleteComparison env me configName num1 num2) := by
  apply Answering.after openConfig_mute
  intro m
  apply Answering.after findComparison_mute
  intro comparison
  apply Answering.change (by intro; rfl)
  apply Answering.change fun _ => calm_modClient (by intro; rfl)
  exact reply_answers (.deleteComparison configName num1 num2)

theorem getConfig_answers : Answering me (.getConfig configName) (getConfig env me configName) := by
  apply Answering.bind findConfig_mute findConfig_configName
  rintro m rfl
  apply Answering.after checkPermission_mute
  exact fun _ => reply_answers (.getConfig m.configInfo)

theorem sendSnapshot_answers :
    Answering me (.getSnapshot configName num) (sendSnapshot env me configName num) := by
  apply Answering.after openConfig_mute
  intro m
  apply Answering.bind getSnapshot_mute getSnapshot_num
  rintro s rfl
  exact reply_answers (.getSnapshot configName s)

/-- Three fields are set and written before the reply. -/
theorem setSnapshot_answers {description cleanup : Str} {userdata : StrMap} :
    Answering me (.setSnapshot configName num description cleanup userdata)
      (setSnapshot env me configName num description cleanup userdata) := by
  apply Answering.after openConfig_mute
  intro m
  apply Answering.after getSnapshot_mute
  intro s
  apply Answering.after setField_mute
  intro _
  apply Answering.after setField_mute
  intro _
  apply Answering.after setUserdata_mute
  intro _
  apply Answering.after flushInfo_mute
  intro _
  exact reply_signal_answers (.setSnapshot configName num description cleanup userdata) rfl

/-- `LockConfig` and `UnlockConfig` differ in what they do to the client, and no desk shows it. -/
theorem lock_answers {change : Client → Client} (hchange : ∀ c, (change c).desk = c.desk)
    (h : Fits request .done) :
    Answering me request (do
      let m ← findConfig configName
      checkPermission env m
      Act.modify (Daemon.modClient me change)
      sendReply me .done) := by
  apply Answering.after findConfig_mute
  intro m
  apply Answering.after checkPermission_mute
  intro _
  apply Answering.change fun _ => calm_modClient hchange
  exact reply_answers h

/-- Every handler answers its request. -/
theorem handle_answers : Answering me request (handle env me request) := by
  cases request with
  | listConfigs =>
    exact Answering.after Leaves.read fun _ => reply_answers (.listConfigs _)
  | createConfig configName subvolume fstype templateName =>
    apply Answering.after checkRoot_mute
    intro _
    apply Answering.after Leaves.read
    intro known
    apply Answering.after Leaves.throwIf
    intro _
    apply Answering.after call_mute
    intro _
    apply Answering.change (by intro; rfl)
    exact reply_signal_answers (.createConfig configName subvolume fstype templateName) rfl
  | getConfig => exact getConfig_answers
  | deleteConfig configName =>
    apply Answering.after findConfig_mute
    intro m
    apply Answering.after checkRoot_mute
    intro _
    apply Answering.after checkLock_mute
    intro _
    apply Answering.after Leaves.throwIf
    intro _
    apply Answering.after deleteConfigOf_mute
    exact fun _ => reply_signal_answers (.deleteConfig configName) rfl
  | lockConfig configName => exact lock_answers (by intro; rfl) (.lockConfig configName)
  | unlockConfig configName => exact lock_answers (by intro; rfl) (.unlockConfig configName)
  | listSnapshots configName =>
    exact Answering.after openConfig_mute fun _ => Answering.after Leaves.read fun _ =>
      reply_answers (.listSnapshots configName _)
  -- the dates of the reply are those that the filter lets through
  | listSnapshotsAtTime configName begin_ end_ =>
    apply Answering.after openConfig_mute
    intro m
    apply Answering.after Leaves.read
    intro snapshots
    refine reply_answers (.listSnapshotsAtTime configName ?_)
    intro s hs
    simpa using (List.mem_filter.mp hs).2
  | getSnapshot => exact sendSnapshot_answers
  | setSnapshot => exact setSnapshot_answers
  -- the two creations have everything in common but the type
  | createSingleSnapshot configName description cleanup userdata =>
    exact create_answers (fun _ => createSnapshot_mute) (fun _ => createSnapshot_num) fun _ h =>
      .createSingleSnapshot configName description cleanup userdata h
  | createPreSnapshot configName description cleanup userdata =>
    exact create_answers (fun _ => createSnapshot_mute) (fun _ => createSnapshot_num) fun _ h =>
      .createPreSnapshot configName description cleanup userdata h
  | createPostSnapshot => exact handleCreatePostSnapshot_answers
  | deleteSnapshots configName nums =>
    apply Answering.after findConfig_mute
    intro m
    apply Answering.after checkPermission_mute
    intro _
    apply Answering.after checkLock_mute
    intro _
    apply Answering.after Leaves.throwIf
    intro _
    apply Answering.after getSnapper_mute
    intro _
    apply Answering.after deleteAll_mute
    exact fun _ => reply_signal_answers (.deleteSnapshots configName nums) rfl
  | mountSnapshot => exact mountSnapshot_answers
  | umountSnapshot => exact umountSnapshot_answers
  | getMountPoint configName num =>
    exact Answering.after openConfig_mute fun _ => Answering.after getSnapshot_mute fun _ =>
      reply_answers (.getMountPoint configName num _)
  | createComparison => exact createComparison_answers
  | deleteComparison => exact deleteComparison_answers
  | getFiles configName num1 num2 =>
    exact Answering.after openConfig_mute fun _ => Answering.after findComparison_mute fun _ =>
      reply_answers (.getFiles configName num1 num2 _)
  | debug => exact Answering.after checkRoot_mute fun _ => reply_answers .debug

/-- The worker serves the request, and answers an exception of its handler with the error of it.
-/
theorem dispatch_answers : Served me request d (dispatch env me request d) := by
  have hanswers : Answering me request (handle env me request) := handle_answers
  have houtcome := hanswers d
  rw [dispatch]
  cases hrun : (handle env me request).run d with
  | mk r d' =>
    rw [hrun] at houtcome
    cases r with
    | ok _ => exact houtcome
    | error e =>
      have hmissing : ∀ s ∈ ([] : List Sent), s.recipient = none := by simp
      have hcalm : d'.calm = d.calm := houtcome
      have htalk := talk_of_calm hcalm
      have htasks := tasks_of_calm hcalm
      have hbackground := background_of_calm hcalm
      refine Served.answered (.error e) hmissing ?_ (congrArg Prod.fst htalk) (Or.inl htasks)
        hbackground
      show d'.sent ++ [_] = _
      rw [sent_of_talk htalk]

end Talk

end Snapper.Server
