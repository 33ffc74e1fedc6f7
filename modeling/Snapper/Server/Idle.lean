import Snapper.Server.Counting

/-!
# The end of the main loop

`MainLoop::run` goes from `poll` to the periodic work, to the message that has come, to the test
whether the daemon has been idle for long enough.  In between the other threads do their steps.
The idle timeout is switched off for the first client and on again when there is no client and
no task in the background.

## Main results

- `Daemon.Vacant.step`: without clients and tasks the other threads make none
- `idle_without_work`: the loop is left without clients and tasks only
-/

namespace Snapper.Server

open General Act

/-! ## The loop -/

/-- A message from the bus. -/
inductive Incoming where
  | methodCall (sender : Str) (request : Request)
  | introspect (sender : Str)
  /-- `NameOwnerChanged` for a name that is gone -/
  | disconnected (name : Str)
  | signal

/-- Where the main thread is. -/
inductive Phase where
  /-- before or in `poll` -/
  | polling
  /-- after the periodic work -/
  | dispatching
  /-- before the idle time is tested -/
  | testing
  /-- the idle time has elapsed and the loop is left -/
  | left
  deriving DecidableEq

/-- The main loop of `DBusMainLoop.cc` with the daemon that it serves. -/
structure MainLoop where
  daemon : Daemon
  idleTimeout : Int
  lastAction : Int
  phase : Phase

/-- What the periodic work gets from outside: whose threads could be joined, and the answers for
each client that goes and each config that is unloaded. -/
structure Periodic where
  joined : Str → Bool
  reap : Str → Env
  unload : Nat → Env

/-- `idle_time` -/
def idleTime : Int := 60

/-- `Clients::remove_zombies` -/
def Daemon.removeZombies (answers : Periodic) (d : Daemon) : Daemon :=
  ((d.clients.map Client.name).filter answers.joined).foldl
    (fun d name => d.step (.reap name (answers.reap name))) d

/-- The loop over the configs in `periodic`. -/
def Daemon.unloadUnused (answers : Periodic) (d : Daemon) : Daemon :=
  (d.metaSnappers.map MetaSnapper.id).foldl
    (fun d id => d.step (.unload id (answers.unload id))) d

namespace MainLoop

/-- `main`, up to the loop -/
def start (d : Daemon) (now : Int) : MainLoop := ⟨d, idleTime, now, .polling⟩

/-- `MyMainLoop::periodic` -/
def periodic (answers : Periodic) (l : MainLoop) : MainLoop :=
  let d := l.daemon.removeZombies answers
  { l with
    daemon := d.unloadUnused answers
    idleTimeout := if d.clients.isEmpty && d.tasks.isEmpty then idleTime else l.idleTimeout
    phase := .dispatching }

/-- `dispatch_incoming` -/
def dispatchIncoming (now : Int) (l : MainLoop) : Incoming → MainLoop
  | .methodCall sender request =>
    { l with
      daemon := l.daemon.step (.receive sender request)
      -- `set_idle_timeout(-1)` for a new client
      idleTimeout := if (l.daemon.client sender).isNone then -1 else l.idleTimeout
      lastAction := now }
  | .introspect _ => { l with lastAction := now }
  | .disconnected name => { l with daemon := l.daemon.step (.disconnect name), lastAction := now }
  | .signal => l

/-- `last_action - monotonic_clock() + idle_timeout`, as an `int` -/
def timeLeft (now : Int) (l : MainLoop) : Int32 := Int32.ofInt (l.lastAction - now + l.idleTimeout)

/-- The end of an iteration. -/
def test (now : Int) (l : MainLoop) : MainLoop :=
  { l with phase := if 0 ≤ l.idleTimeout ∧ l.timeLeft now ≤ 0 then .left else .polling }

end MainLoop

/-- The steps that the main thread does. -/
def Action.ofMain : Action → Bool
  | receive .. => true
  | disconnect .. => true
  | reap .. => true
  | unload .. => true
  | _ => false

/-- One thing that happens to the main loop. -/
inductive LoopAction where
  /-- a step of another thread -/
  | thread (a : Action)
  /-- `poll` returns, and the periodic work is done -/
  | periodic (answers : Periodic)
  /-- a message is dispatched, if there is one -/
  | incoming (msg : Option Incoming) (now : Int)
  | test (now : Int)

/-- A step.  What cannot happen changes nothing, and nothing happens once the loop is left or the
daemon has ended. -/
def MainLoop.step (l : MainLoop) (a : LoopAction) : MainLoop :=
  if l.daemon.aborted ∨ l.daemon.terminated ∨ l.phase = .left then l
  else
    match a, l.phase with
    | .thread a, _ => if a.ofMain then l else { l with daemon := l.daemon.step a }
    | .periodic answers, .polling => l.periodic answers
    | .incoming none _, .dispatching => { l with phase := .testing }
    | .incoming (some msg) now, .dispatching =>
      { l.dispatchIncoming now msg with phase := .testing }
    | .test now, .testing => l.test now
    | _, _ => l

/-! ## Without clients and tasks -/

/-- There is no client and no task in the background. -/
def Daemon.Vacant (d : Daemon) : Prop := d.clients = [] ∧ d.tasks = []

section Vacant

variable {d d' : Daemon} {env : Env} {name : Str}

theorem Edit.vacant (h : Edit d d') (hd : d.Vacant) : d'.Vacant := by
  cases h <;> exact hd

theorem Recount.vacant (h : Recount d d') (hd : d.Vacant) : d'.Vacant := by
  cases h with
  | edit h => exact h.vacant hd
  | recount id num hnum => exact hd

theorem steps_vacant (h : Relation.ReflTransGen Recount d d') (hd : d.Vacant) : d'.Vacant :=
  keeps_of_steps (fun _ _ h hd => h.vacant hd) h hd

theorem Daemon.Vacant.client (h : d.Vacant) (name : Str) : d.client name = none := by
  rw [Daemon.client, h.1]
  rfl

theorem Daemon.Vacant.making (h : d.Vacant) (name : Str) : d.making name = none := by
  rw [Daemon.making, h.client]

/-- The other threads and the periodic work make no clients and no tasks. -/
theorem Daemon.Vacant.step (h : d.Vacant) {a : Action}
    (hmain : ∀ sender request, a ≠ .receive sender request) : (d.step a).Vacant := by
  rw [Daemon.step.eq_def]
  split
  · exact h
  · cases a with
    | receive sender request => exact absurd rfl (hmain sender request)
    | disconnect name =>
      refine ⟨?_, h.2⟩
      show update Client.name name _ d.clients = []
      rw [h.1]
      rfl
    -- without clients there is no worker to act, and without tasks the background waits
    | work name env =>
      show (d.work name env).Vacant
      rw [Daemon.work, h.client]
      exact h
    | endWorker name =>
      show (d.endWorker name).Vacant
      rw [Daemon.endWorker, h.client]
      exact h
    | mountComparison name env =>
      show (d.mountComparison name env).Vacant
      rw [Daemon.mountComparison, h.making]
      exact h
    | finishComparison name env files =>
      show (d.finishComparison name env files).Vacant
      rw [Daemon.finishComparison, h.making]
      exact h
    | failComparison name env failure =>
      show (d.failComparison name env failure).Vacant
      rw [Daemon.failComparison, h.making]
      exact h
    | startTask env =>
      show (d.startTask env).Vacant
      have hcases : d.startTask env = d ∨ _ := startTask_cases
      rcases hcases with hsame | hend | ⟨task, rest, -, htasks, -⟩
      · rw [hsame]
        exact h
      · rw [hend]
        exact h
      · -- there is no task to start
        rw [h.2] at htasks
        cases htasks
    | mountTask env =>
      show (d.mountTask env).Vacant
      have hcases : d.mountTask env = d ∨ _ := mountTask_cases
      rcases hcases with hsame | ⟨d₁, hsteps, hend⟩ |
        ⟨making, num1, num2, d₁, -, -, -, hsteps, -, hmount⟩
      · rw [hsame]
        exact h
      · have hd₁ := steps_vacant hsteps h
        rw [hend]
        exact hd₁
      · have hd₁ := steps_vacant hsteps h
        rw [hmount]
        exact hd₁
    | finishTask env =>
      show (d.finishTask env).Vacant
      have hcases : d.finishTask env = d ∨ _ := finishTask_cases
      rcases hcases with hsame | ⟨d₁, hsteps, hend⟩ |
        ⟨making, num1, num2, d₁, -, -, hsteps, -, hfinish⟩
      · rw [hsame]
        exact h
      · have hd₁ := steps_vacant hsteps h
        rw [hend]
        exact hd₁
      · have hd₁ := steps_vacant hsteps h
        rw [hfinish]
        exact hd₁
    | popTask =>
      show d.popTask.Vacant
      rcases popTask_cases with hsame | ⟨-, hpop⟩
      · rw [hsame]
        exact h
      · rw [hpop]
        exact ⟨h.1, by rw [h.2]; rfl⟩
    | reap name env =>
      show (d.reap name env).Vacant
      rw [Daemon.reap, h.client]
      exact h
    -- an unloaded config is none of the clients or tasks
    | unload id env =>
      show (d.unload id env).Vacant
      have hcases : d.unload id env = d ∨ _ := unload_cases
      rcases hcases with hsame | ⟨-, written, -, -, -, hend⟩ | ⟨m, -, -, -, -, hunload⟩
      · rw [hsame]
        exact h
      · rw [hend]
        exact h
      · rw [hunload]
        exact h
    -- these touch loaded configs only
    | race id num userRequest useCount => exact h
    | spoil id nums => exact h

/-- So does a sequence of such steps. -/
theorem Daemon.Vacant.foldl {α : Type} {f : α → Action} (hf : ∀ a sender request,
    f a ≠ .receive sender request) (l : List α) (h : d.Vacant) :
    (l.foldl (fun d a => d.step (f a)) d).Vacant := by
  induction l generalizing d with
  | nil => exact h
  | cons a l ih => exact ih (h.step (hf a))

end Vacant

/-! ## The idle timeout -/

/-- The timeout is on without clients and tasks only, and the loop is left while it is on. -/
structure MainLoop.Idle (l : MainLoop) : Prop where
  vacant : 0 ≤ l.idleTimeout → l.daemon.Vacant
  left : l.phase = .left → 0 ≤ l.idleTimeout

section Idle

variable {l : MainLoop}

/-- The periodic work turns the timeout on only when neither clients nor tasks are left. -/
theorem MainLoop.Idle.periodic (h : l.Idle) (answers : Periodic) : (l.periodic answers).Idle := by
  refine ⟨fun hon => ?_, nofun⟩
  have hzombies : (l.daemon.removeZombies answers).Vacant := by
    have hon : 0 ≤ (if (l.daemon.removeZombies answers).clients.isEmpty &&
        (l.daemon.removeZombies answers).tasks.isEmpty then idleTime else l.idleTimeout) := hon
    split at hon
    next hempty =>
      rw [Bool.and_eq_true, List.isEmpty_iff, List.isEmpty_iff] at hempty
      exact hempty
    next =>
      -- the timeout was on before
      exact (h.vacant hon).foldl (f := fun name => .reap name (answers.reap name)) nofun _
  exact hzombies.foldl (f := fun id => .unload id (answers.unload id)) nofun _

/-- A method call from a new client turns the timeout off, so it is on only while there is none.
-/
theorem MainLoop.Idle.dispatchIncoming (h : l.Idle) (now : Int) (msg : Incoming) :
    0 ≤ (l.dispatchIncoming now msg).idleTimeout →
      (l.dispatchIncoming now msg).daemon.Vacant := by
  cases msg with
  | methodCall sender request =>
    intro hon
    have hon : 0 ≤ (if (l.daemon.client sender).isNone then -1 else l.idleTimeout) := hon
    split at hon
    next => exact absurd hon (by decide)
    next hknown =>
      -- the timeout was on, although there was a client
      have hnone := (h.vacant hon).client sender
      rw [hnone] at hknown
      exact absurd rfl hknown
  | introspect sender => exact h.vacant
  | disconnected name =>
    intro hon
    exact (h.vacant hon).step nofun
  | signal => exact h.vacant

/-- One iteration of the main loop keeps the invariant. -/
theorem MainLoop.Idle.step (h : l.Idle) (a : LoopAction) : (l.step a).Idle := by
  unfold MainLoop.step
  split
  · exact h
  next hrunning =>
    rw [not_or, not_or] at hrunning
    split
    next a =>
      split
      · exact h
      next hmain =>
        refine ⟨fun hon => (h.vacant hon).step ?_, h.left⟩
        rintro sender request rfl
        exact hmain rfl
    -- only `periodic` and the test of the idle time look at whether the loop is idle
    next answers _ => exact h.periodic answers
    next => exact ⟨h.vacant, nofun⟩
    next msg now _ => exact ⟨h.dispatchIncoming now msg, nofun⟩
    next now _ =>
      -- the loop is left only where the time has passed while it was idle
      refine ⟨h.vacant, fun hleft => ?_⟩
      unfold MainLoop.test at hleft
      dsimp only at hleft
      split at hleft
      next helapsed => exact helapsed.1
      next => cases hleft
    next => exact h

end Idle

/-- The daemon does not end while it has work: in every state of the main loop the idle timeout is
on without clients and background tasks only, and when the loop is left there are none. -/
theorem idle_without_work {d : Daemon} (hd : d.Initial) (now : Int) (actions : List LoopAction) :
    let l := actions.foldl MainLoop.step (.start d now)
    (0 ≤ l.idleTimeout → l.daemon.clients = [] ∧ l.daemon.tasks = []) ∧
      (l.phase = .left → l.daemon.clients = [] ∧ l.daemon.tasks = []) := by
  intro l
  have hstart : (MainLoop.start d now).Idle := ⟨fun _ => ⟨hd.clients, hd.tasks⟩, nofun⟩
  have hidle : l.Idle := foldl_induction (P := fun _ => MainLoop.Idle) hstart
    (fun _ a _ _ h => h.step a) (List.append_nil actions).symm
  exact ⟨hidle.vacant, fun hleft => hidle.vacant (hidle.left hleft)⟩

/-- A daemon that nobody calls ends after a minute. -/
theorem idle_without_work_unused :
    let l := [.periodic ⟨fun _ => true, fun _ => Env.quiet, fun _ => Env.quiet⟩, .incoming none 60,
      .test 60].foldl MainLoop.step (.start Daemon.rootOnly 0)
    (0 ≤ l.idleTimeout → l.daemon.clients = [] ∧ l.daemon.tasks = []) ∧
      (l.phase = .left → l.daemon.clients = [] ∧ l.daemon.tasks = []) :=
  idle_without_work rootOnly_initial 0 _

end Snapper.Server
