import Snapper.Client.Cleanup
import Snapper.Dbus.Codec
import Snapper.Server.Looking

/-!
# The cleanup of empty pairs against the server

The client has each pair compared, asks for the files and requests that the pairs without
files are deleted.  It never deletes a comparison, so the comparisons keep the config in use
and every request to delete is refused.

## Main results

- `cleanup_empty_pre_post_iff`: the cleanup does its job exactly when there is nothing to do
-/

namespace Snapper.Client

open General Server

/-! ## The requests of the client -/

/-- The daemon, and what it does of itself until it has answered each of the next requests. -/
structure Session where
  daemon : Daemon
  turns : List (List Action)

/-- Each of the steps to come meets the condition. -/
def Session.Meets (C : Action → Prop) (s : Session) : Prop := ∀ turn ∈ s.turns, ∀ a ∈ turn, C a

/-- What all turns meet the next one meets, and so does the empty one when no turn is left. -/
theorem Session.Meets.head {C : Action → Prop} {s : Session} (h : s.Meets C) :
    ∀ a ∈ s.turns.headD [], C a := by
  intro a ha
  cases hturns : s.turns with
  | nil => simp [hturns] at ha
  | cons turn rest =>
    rw [hturns] at ha
    exact h turn (by simp [hturns]) a ha

theorem Session.Meets.tail {C : Action → Prop} {s : Session} {d : Daemon} (h : s.Meets C) :
    Session.Meets C ⟨d, s.turns.tail⟩ := fun turn hturn => h turn (List.mem_of_mem_tail hturn)

/-- How the client ends before it is through. -/
inductive Ended where
  /-- `send_with_reply_and_block` throws for an error. -/
  | error (name : Str)
  /-- The daemon does not answer. -/
  | unanswered
  /-- The reply is of another kind, or it is the end of the program in `throw`. -/
  | thrown

abbrev Conversation := Act Session Ended

/-- An answer to this client. -/
def answerTo (name : Str) : Sent → Option (Except Str Reply)
  | .reply client reply => if client = name then some (.ok reply) else none
  | .error client error => if client = name then some (.error error) else none
  | _ => none

section Requests

variable (name : Str) (outcome : UInt32 → UInt32 → List DBus.SentFile) (configName : Str)

/-- A comparison finds the files that are its outcome. -/
def withOutcome (d : Daemon) : Action → Action
  | .finishComparison client env _ => .finishComparison client env
      (((d.making client).bind Making.snapshots).elim [] fun nums => outcome nums.1 nums.2)
  | a => a

/-- A step while the client waits, which is one of the daemon. -/
def advance (d : Daemon) (a : Action) : Daemon :=
  if a.own then d.step (withOutcome outcome d a) else d

/-- `send_with_reply_and_block` -/
def send (request : Request) : Conversation Reply := ⟨fun s =>
  let asked := s.daemon.step (.receive name request)
  let answered := (s.turns.headD []).foldl (advance outcome) asked
  let answer := (answered.sent.drop s.daemon.sent.length).findSome? (answerTo name)
  (match answer with
    | some (.ok reply) => .ok reply
    | some (.error error) => .error (.error error)
    | none => .error .unanswered, ⟨answered, s.turns.tail⟩)⟩

/-- `command_get_xconfig` -/
def commandGetXconfig : Conversation DBus.XConfigInfo := do
  match ← send name outcome (.getConfig configName) with
  | .config info => pure (DBus.toXConfigInfo info)
  | _ => throw .thrown

/-- The numbers ascend in the list of the server as long as they do not pass the largest. -/
def commandListXsnapshots : Conversation XSnapshots := do
  match ← send name outcome (.listSnapshots configName) with
  | .snapshots snapshots =>
    let entries := snapshots.map DBus.toXSnapshot
    if h : entries.Pairwise fun a b => a.num < b.num then pure ⟨entries, h⟩ else throw .thrown
  | _ => throw .thrown

/-- `command_delete_xsnapshots` -/
def commandDeleteXsnapshots (nums : List UInt32) : Conversation PUnit := do
  match ← send name outcome (.deleteSnapshots configName nums) with
  | .done => pure ⟨⟩
  | _ => throw .thrown

/-- `command_create_xcomparison`; the answer has no number of files. -/
def commandCreateXcomparison (number1 number2 : UInt32) : Conversation PUnit := do
  match ← send name outcome (.createComparison configName number1 number2) with
  | .done => pure ⟨⟩
  | _ => throw .thrown

/-- `command_get_xfiles` -/
def commandGetXfiles (number1 number2 : UInt32) : Conversation (List XFile) := do
  match ← send name outcome (.getFiles configName number1 number2) with
  | .files files => pure (files.map DBus.toXFile)
  | _ => throw .thrown

/-- The request for a comparison and then for its files -/
def compareXsnapshots (num1 num2 : Nat) : Conversation (List XFile) := do
  commandCreateXcomparison name outcome configName (.ofNat num1) (.ofNat num2)
  commandGetXfiles name outcome configName (.ofNat num1) (.ofNat num2)

/-- The loop at the end of each cleanup -/
def deleteEach : List XSnapshot → Conversation PUnit
  | [] => pure ⟨⟩
  | it :: tmp => do
    commandDeleteXsnapshots name outcome configName [.ofNat it.num]
    deleteEach tmp

/-- `do_cleanup_empty_pre_post` with its requests -/
def cleanupEmptyPrePost (now : Int) : Conversation PUnit := do
  let ci ← commandGetXconfig name outcome configName
  let snapshots ← commandListXsnapshots name outcome configName
  let tmp ← doCleanupEmptyPrePost (throw .thrown) (compareXsnapshots name outcome configName)
    (.ofRaw ci.raw) now snapshots
  deleteEach name outcome configName tmp

end Requests

/-! ## What a request leaves -/

section Sending

variable {name configName : Str} {outcome : UInt32 → UInt32 → List DBus.SentFile} {id : Nat}
  {nums : UInt32 → Prop} {α : Type}

/-- Of two stretches of a run each of which sends `done` for nothing but a comparison that is
held, the whole does so too, if the second keeps the comparison of the first. -/
theorem announces_trans {d d' d'' : Daemon} (h : d.Announces id d') (h' : d'.Announces id d'')
    (hcompared : d'.Compared id → d''.Compared id) : d.Announces id d'' := by
  obtain ⟨msgs, hsent, hdone⟩ := h
  obtain ⟨msgs', hsent', hdone'⟩ := h'
  refine ⟨msgs ++ msgs', by rw [hsent', hsent, List.append_assoc], fun name hmem => ?_⟩
  rcases List.mem_append.mp hmem with hold | hnew
  · exact hcompared (hdone name hold)
  · exact hdone' name hnew

theorem withOutcome_own (d : Daemon) (a : Action) : (withOutcome outcome d a).own = a.own := by
  cases a <;> rfl

theorem withOutcome_steady {d : Daemon} {a : Action} (h : a.Steady) :
    (withOutcome outcome d a).Steady := by
  cases a with
  | spoil id nums => exact h
  | _ => trivial

/-- A turn of the daemon, from the state in which it has the request. -/
theorem advance_foldl {actions : List Action} {d : Daemon} (hsteady : ∀ a ∈ actions, a.Steady)
    (h : Harmless configName id nums d) :
    Harmless configName id nums (actions.foldl (advance outcome) d) ∧
      (d.Compared id → (actions.foldl (advance outcome) d).Compared id) ∧
      d.Announces id (actions.foldl (advance outcome) d) := by
  induction actions generalizing d with
  | nil => exact ⟨h, fun hcompared => hcompared, announces_of_same rfl⟩
  | cons a actions ih =>
    obtain ⟨ha, hrest⟩ := List.forall_mem_cons.mp hsteady
    rw [List.foldl_cons, advance]
    split
    · next hown =>
      have hown' : (withOutcome outcome d a).own = true := (withOutcome_own d a).trans hown
      have ha' : (withOutcome outcome d a).Steady := withOutcome_steady ha
      obtain ⟨hharmless, hcompared, hannounces⟩ := ih hrest (h.step hown' ha')
      exact ⟨hharmless, fun hheld => hcompared (h.compared hown' ha' hheld),
        announces_trans (h.gentle hown' ha').announces hannounces hcompared⟩
    · exact ih hrest h

/-- The daemon is harmless; and where `held`, it holds a comparison of the config. -/
structure Session.Stands (configName : Str) (id : Nat) (nums : UInt32 → Prop) (held : Prop)
    (s : Session) : Prop where
  harmless : Harmless configName id nums s.daemon
  compared : held → s.daemon.Compared id
  steady : s.Meets Action.Steady

/-- The conversation, begun where a comparison is held if `held`, ends where one is held if
`Q` says so; and also where it is broken off nothing is lost. -/
def Talks (configName : Str) (id : Nat) (nums : UInt32 → Prop) (held : Prop)
    (c : Conversation α) (Q : α → Prop) : Prop :=
  Act.Spec (Session.Stands configName id nums held) c
    (fun a => Session.Stands configName id nums (Q a)) fun _ s =>
      Harmless configName id nums s.daemon

/-- A request is received, or the daemon has ended. -/
theorem step_receive {d : Daemon} (h : Harmless configName id nums d) {request : Request}
    (hrequest : d.Allows configName id request) :
    Harmless configName id nums (d.step (.receive name request)) ∧
      (d.Compared id → (d.step (.receive name request)).Compared id) ∧
      (d.step (.receive name request)).sent = d.sent := by
  rw [Daemon.step.eq_def]
  split
  · exact ⟨h, fun hcompared => hcompared, rfl⟩
  · refine ⟨h.receive hrequest, fun hcompared => hcompared.receive, ?_⟩
    show (d.receive name request).sent = d.sent
    rw [Daemon.receive]
    split
    · rfl
    · rfl

theorem Talks.bind {β : Type} {held : Prop} {c : Conversation α} {k : α → Conversation β}
    {Q : α → Prop} {R : β → Prop} (hc : Talks configName id nums held c Q)
    (hk : ∀ a, Talks configName id nums (Q a) (k a) R) :
    Talks configName id nums held (c >>= k) R := Act.Spec.bind hc hk

theorem Talks.pure {held : Prop} {a : α} {Q : α → Prop} (h : Q a → held) :
    Talks configName id nums held (Pure.pure a) Q :=
  Act.Spec.pure fun _ hs => ⟨hs.harmless, fun hQ => hs.compared (h hQ), hs.steady⟩

theorem Talks.throw {held : Prop} {e : Ended} {Q : α → Prop} :
    Talks configName id nums held (MonadExcept.throw e) Q :=
  Act.Spec.throw fun _ hs => hs.harmless

/-- A request that looks, or one to delete while a comparison is held.  Whoever is answered
`done` has a comparison. -/
theorem send_talks {held : Prop} {request : Request}
    (hrequest : (request.looks = true ∧ request.configName = configName) ∨
      (held ∧ ∃ nums, request = .deleteSnapshots configName nums)) :
    Talks configName id nums held (send name outcome request) 
      fun reply => held ∨ reply = .done := by
  rintro s ⟨hharmless, hheld, hsteady⟩
  have hallows : s.daemon.Allows configName id request :=
    hrequest.imp_right fun hdeletes => ⟨hheld hdeletes.1, hdeletes.2⟩
  obtain ⟨hasked, hcompared, hsent⟩ : Harmless configName id nums
      (s.daemon.step (.receive name request)) ∧ _ ∧ _ := step_receive hharmless hallows
  obtain ⟨hanswered, hcompared', hannounces⟩ : Harmless configName id nums
      ((s.turns.headD []).foldl (advance outcome) (s.daemon.step (.receive name request))) ∧
        _ ∧ _ :=
    advance_foldl hsteady.head hasked
  obtain ⟨msgs, hmsgs, hdone⟩ := hannounces
  dsimp only [send]
  -- what is sent since the request is what the turn has sent
  rw [hmsgs, hsent, List.drop_left]
  cases hanswer : msgs.findSome? (answerTo name) with
  | none => exact hanswered
  | some answer =>
    cases answer with
    | error e => exact hanswered
    | ok reply =>
      refine ⟨hanswered, fun h => ?_, hsteady.tail⟩
      rcases h with hheld' | rfl
      · exact hcompared' (hcompared (hheld hheld'))
      · obtain ⟨msg, hmem, hmsg⟩ := List.exists_of_findSome?_eq_some hanswer
        cases msg with
        | reply client reply =>
          simp only [answerTo, Option.ite_none_right_eq_some, Option.some.injEq,
            Except.ok.injEq] at hmsg
          obtain ⟨rfl, rfl⟩ := hmsg
          exact hdone client hmem
        | error client error => simp [answerTo] at hmsg
        | _ => cases hmsg

end Sending

/-! ## What the cleanup leaves -/

section Cleanup

variable {name configName : Str} {outcome : UInt32 → UInt32 → List DBus.SentFile} {id : Nat}
  {nums : UInt32 → Prop} {held : Prop}

/-- A request that looks -/
theorem looks_talks (request : Request) (hlooks : request.looks = true)
    (hname : request.configName = configName) :
    Talks configName id nums held (send name outcome request) fun reply =>
      held ∨ reply = .done := send_talks (Or.inl ⟨hlooks, hname⟩)

theorem commandGetXconfig_talks :
    Talks configName id nums False (commandGetXconfig name outcome configName) fun _ => False := by
  refine (looks_talks (.getConfig configName) rfl rfl).bind fun reply => ?_
  cases reply with
  | config info => exact Talks.pure (by simp)
  | _ => exact Talks.throw

/-- Asking for the list deletes nothing, and leaves no comparison behind. -/
theorem commandListXsnapshots_talks :
    Talks configName id nums False (commandListXsnapshots name outcome configName)
      fun _ => False := by
  refine (looks_talks (.listSnapshots configName) rfl rfl).bind fun reply => ?_
  cases reply with
  | snapshots snapshots =>
    dsimp only
    split
    · exact Talks.pure (by simp)
    · exact Talks.throw
  | _ => exact Talks.throw

/-- A comparison that is answered is held. -/
theorem compareXsnapshots_talks {num1 num2 : Nat} :
    Talks configName id nums held (compareXsnapshots name outcome configName num1 num2)
      fun _ => True := by
  have hcreate : Talks configName id nums held (commandCreateXcomparison name outcome configName
      (.ofNat num1) (.ofNat num2)) fun _ => True := by
    refine (looks_talks (.createComparison configName (.ofNat num1) (.ofNat num2)) rfl rfl).bind
      fun reply => ?_
    cases reply with
    | done => exact Talks.pure fun _ => Or.inr rfl
    | _ => exact Talks.throw
  refine hcreate.bind fun _ => ?_
  refine (looks_talks (.getFiles configName (.ofNat num1) (.ofNat num2)) rfl rfl).bind
    fun reply => ?_
  cases reply with
  | files files => exact Talks.pure fun _ => Or.inl trivial
  | _ => exact Talks.throw

/-- What is selected was compared. -/
theorem emptyPairs_talks {snapshots : XSnapshots} {l : List XSnapshot} :
    Talks configName id nums held
      (emptyPairs (throw .thrown) (compareXsnapshots name outcome configName) snapshots l)
      fun tmp => held ∨ tmp ≠ [] := by
  induction l generalizing held with
  | nil => exact Talks.pure (by simp)
  | cons it1 rest ih =>
    rw [emptyPairs]
    split
    · split
      · exact Talks.throw
      · exact ih
      · refine compareXsnapshots_talks.bind fun files => ih.bind fun tmp => ?_
        exact Talks.pure fun _ => Or.inl trivial
    · exact ih

/-- The algorithm asks for a comparison of each pair that is old enough; when it selects anything,
one comparison of the config is still there. -/
theorem doCleanupEmptyPrePost_talks {config : EmptyPrePostConfig} {now : Int}
    {snapshots : XSnapshots} :
    Talks configName id nums False (doCleanupEmptyPrePost (throw .thrown)
      (compareXsnapshots name outcome configName) config now snapshots) fun tmp => tmp ≠ [] := by
  refine emptyPairs_talks.bind fun tmp => ?_
  cases htmp : tmp with
  | nil => exact Talks.pure (by simp)
  | cons it rest =>
    split
    · exact Talks.throw
    · exact Talks.pure (by simp)

/-- A request to delete is made only while a comparison is held. -/
theorem deleteEach_talks {tmp : List XSnapshot} :
    Talks configName id nums (tmp ≠ []) (deleteEach name outcome configName tmp)
      fun _ => False := by
  induction tmp with
  | nil => exact Talks.pure (by simp)
  | cons it tmp ih =>
    have hdelete : Talks configName id nums (it :: tmp ≠ [])
        (commandDeleteXsnapshots name outcome configName [.ofNat it.num]) fun _ => tmp ≠ [] := by
      refine (send_talks (Or.inr ⟨by simp, _, rfl⟩)).bind fun reply => ?_
      cases reply with
      | done => exact Talks.pure (by simp)
      | _ => exact Talks.throw
    exact hdelete.bind fun _ => ih

/-- Nothing that was shown before is taken away, however the cleanup ends. -/
theorem cleanupEmptyPrePost_harmless {d : Daemon} {now : Int} {turns : List (List Action)}
    (hsteady : ∀ turn ∈ turns, ∀ a ∈ turn, a.Steady) (h : Harmless configName id nums d) :
    Harmless configName id nums
      ((cleanupEmptyPrePost name outcome configName now).run ⟨d, turns⟩).2.daemon := by
  have htalks : Talks configName id nums False (cleanupEmptyPrePost name outcome configName now)
      fun _ => False :=
    commandGetXconfig_talks.bind fun _ => commandListXsnapshots_talks.bind fun _ =>
      doCleanupEmptyPrePost_talks.bind fun _ => deleteEach_talks
  have hspec := htalks ⟨d, turns⟩ ⟨h, False.elim, hsteady⟩
  cases hrun : (cleanupEmptyPrePost name outcome configName now).run ⟨d, turns⟩ with
  | mk r s =>
    rw [hrun] at hspec
    cases r with
    | ok _ => exact hspec.harmless
    | error _ => exact hspec

/-- A pre snapshot with its post snapshot, both old enough, between which no file differs -/
structure Qualifies (outcome : UInt32 → UInt32 → List DBus.SentFile) (minAge now : Int)
    (pre post : Snapshot) : Prop where
  type_pre : pre.type = .PRE
  type_post : post.type = .POST
  pair : post.preNum = pre.num
  empty : outcome pre.num post.num = []
  old_pre : youngerThan (now - minAge) (DBus.toXSnapshot pre) = false
  old_post : youngerThan (now - minAge) (DBus.toXSnapshot post) = false

/-- The snapshots that qualify are gone, and the others are still there. -/
structure CleanedUp (outcome : UInt32 → UInt32 → List DBus.SentFile) (minAge now : Int)
    (before after : List Snapshot) : Prop where
  gone : ∀ pre ∈ before, ∀ post ∈ before, Qualifies outcome minAge now pre post →
    pre.num ∉ after.map Snapshot.num ∧ post.num ∉ after.map Snapshot.num
  kept : ∀ s ∈ before, (∀ pre ∈ before, ∀ post ∈ before, Qualifies outcome minAge now pre post →
    s ≠ pre ∧ s ≠ post) → s.num ∈ after.map Snapshot.num

/-- The cleanup of a config whose list is on disk, where it can be read as well as before all the
time, takes away what has to go, and nothing else, exactly when no pair has to go. -/
theorem cleanup_empty_pre_post_iff {d : Daemon} {m : MetaSnapper} (hd : d.Reachable)
    (hclients : d.clients = []) (htasks : d.tasks = []) (hbackground : d.background = .waiting)
    (hfind : d.find configName = some m)
    (hdisk : ∀ s ∈ m.shown, s.num ≠ 0 → ∃ s' ∈ m.disk.readable, s'.num = s.num)
    (name : Str) (outcome : UInt32 → UInt32 → List DBus.SentFile) (now : Int)
    (turns : List (List Action)) (hsteady : ∀ turn ∈ turns, ∀ a ∈ turn, a.Steady) :
    CleanedUp outcome (EmptyPrePostConfig.ofRaw m.configInfo.raw).minAge now (d.shown m.id)
        (((cleanupEmptyPrePost name outcome configName now).run ⟨d, turns⟩).2.daemon.shown m.id) ↔
      ¬∃ pre ∈ d.shown m.id, ∃ post ∈ d.shown m.id,
        Qualifies outcome (EmptyPrePostConfig.ofRaw m.configInfo.raw).minAge now pre post := by
  have hshown : d.shown m.id = m.shown := by
    rw [Daemon.shown, hd.base.addresses.metaSnapper_of_find hfind]
  have hstart : Harmless configName m.id (fun num => num ∈ (d.shown m.id).map Snapshot.num) d := by
    refine ⟨hd.base, hd.counting, ⟨m, hfind, rfl, ?_, ?_⟩, htasks, hbackground, ?_, ?_, ?_⟩
    · intro num hnum
      rw [hshown] at hnum
      exact List.mem_map.mp hnum
    · intro num hnum hne
      rw [hshown] at hnum
      obtain ⟨s, hs, rfl⟩ := List.mem_map.mp hnum
      exact hdisk s hs hne
    all_goals
      intro c hc
      rw [hclients] at hc
      cases hc
  -- the run deletes nothing that is listed, in whatever order the threads take their turns
  have hend : Harmless configName m.id _
      ((cleanupEmptyPrePost name outcome configName now).run ⟨d, turns⟩).2.daemon :=
    cleanupEmptyPrePost_harmless hsteady hstart
  generalize ((cleanupEmptyPrePost name outcome configName now).run ⟨d, turns⟩).2.daemon =
    d' at hend ⊢
  have hall : ∀ s ∈ d.shown m.id, s.num ∈ (d'.shown m.id).map Snapshot.num := by
    intro s hs
    obtain ⟨m', hfind', hsaved⟩ := hend.saved
    obtain ⟨s', hs', hnum⟩ := hsaved.shows s.num (List.mem_map_of_mem hs)
    rw [Daemon.shown, ← hsaved.id, hend.base.addresses.metaSnapper_of_find hfind']
    exact List.mem_map.mpr ⟨s', hs', hnum⟩
  constructor
  · rintro h ⟨pre, hpre, post, hpost, hqualifies⟩
    exact (h.gone pre hpre post hpost hqualifies).1 (hall pre hpre)
  · intro h
    refine ⟨fun pre hpre post hpost hqualifies => ?_, fun s hs _ => hall s hs⟩
    exact absurd ⟨pre, hpre, post, hpost, hqualifies⟩ h

end Cleanup

/-- A pre and a post snapshot in the config `root` -/
def pairConfig : MetaSnapper :=
  ⟨0, ⟨str "root", str "/", .empty⟩, [], 0, 0, none,
    ⟨[1, 2], [Snapshot.new .PRE 1 0, { Snapshot.new .POST 2 0 with preNum := 1 }], []⟩⟩

def pairOnly : Daemon := { Daemon.rootOnly with metaSnappers := [pairConfig] }

/-- A started daemon whose one config has a pair of snapshots without a difference. -/
theorem pairOnly_initial : pairOnly.Initial where
  ids := by simp [pairOnly]
  nextId := by simp [pairOnly, pairConfig, Daemon.rootOnly]
  counter := by simp [pairOnly, pairConfig]
  unloaded := by simp [pairOnly, pairConfig]
  disk := by
    intro m hm
    obtain rfl := List.mem_singleton.mp hm
    exact ⟨by decide, by decide, by decide, by decide⟩
  clients := rfl
  tasks := rfl
  background := rfl
  sent := rfl
  running := ⟨rfl, rfl⟩

/-- The daemon answers, and makes the comparison, without delay. -/
def promptTurns (name : Str) : List (List Action) :=
  let answer : List Action := [.work name Env.quiet]
  [answer, answer,
    answer ++ [.mountComparison name Env.quiet, .finishComparison name Env.quiet []],
    answer, answer]

theorem promptTurns_steady : ∀ turn ∈ promptTurns (str ":1.5"), ∀ a ∈ turn, a.Steady := by
  simp [promptTurns, Action.Steady]

/-- With a file between the two snapshots the pair stays. -/
theorem cleanup_empty_pre_post_changed :
    CleanedUp (fun _ _ => [⟨str "/etc/fstab", 2⟩]) 1800 5000 (pairOnly.shown 0)
      (((cleanupEmptyPrePost (str ":1.5") (fun _ _ => [⟨str "/etc/fstab", 2⟩]) (str "root")
        5000).run
        ⟨pairOnly, promptTurns (str ":1.5")⟩).2.daemon.shown 0) := by
  have hreachable : pairOnly.Reachable := ⟨pairOnly, [], pairOnly_initial, rfl⟩
  have hfind : pairOnly.find (str "root") = some pairConfig := rfl
  refine (cleanup_empty_pre_post_iff hreachable rfl rfl rfl hfind (by decide) (str ":1.5")
    (fun _ _ => [⟨str "/etc/fstab", 2⟩]) 5000 (promptTurns (str ":1.5")) promptTurns_steady).mpr ?_
  rintro ⟨pre, -, post, -, h⟩
  cases h.empty

/-- Without one the pair should go, but it is in use by the comparison. -/
theorem cleanup_empty_pre_post_in_use :
    ((cleanupEmptyPrePost (str ":1.5") (fun _ _ => []) (str "root") 5000).run
        ⟨pairOnly, promptTurns (str ":1.5")⟩).1 = .error (.error (str "error.config_in_use")) ∧
      ¬CleanedUp (fun _ _ => []) 1800 5000 (pairOnly.shown 0)
        (((cleanupEmptyPrePost (str ":1.5") (fun _ _ => []) (str "root") 5000).run
          ⟨pairOnly, promptTurns (str ":1.5")⟩).2.daemon.shown 0) := by
  refine ⟨rfl, fun h => ?_⟩
  have hpre : Snapshot.new .PRE 1 0 ∈ pairOnly.shown 0 := by decide
  have hpost : { Snapshot.new .POST 2 0 with preNum := 1 } ∈ pairOnly.shown 0 := by decide
  exact (h.gone _ hpre _ hpost ⟨rfl, rfl, rfl, rfl, rfl, rfl⟩).1 (by decide)

end Snapper.Client
