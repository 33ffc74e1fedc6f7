import Snapper.Server.Access

/-!
# Requests of users without permission

Every handler looks up its config and checks the permission by itself before it locks,
loads or changes anything.  A user without permission therefore gets one error, and the
error says no more than which configs there are and who may use them.

## Main results

- `handle_refused`: the handler of a refused request throws, in the state it began in
- `refused_learns_nothing`: the state is unchanged but for the error reply, and any other
  state with the same configs and users gives the same reply
-/

namespace Snapper.Server

open General

/-! ## Refused requests -/

/-- The config that a request names. -/
def Request.configName : Request → Str
  | listConfigs | debug => []
  | createConfig configName _ _ _ | getConfig configName | deleteConfig configName => configName
  | lockConfig configName | unlockConfig configName => configName
  | listSnapshots configName | listSnapshotsAtTime configName _ _ => configName
  | getSnapshot configName _ | setSnapshot configName _ _ _ _ => configName
  | createSingleSnapshot configName _ _ _ | createPreSnapshot configName _ _ _ => configName
  | createPostSnapshot configName _ _ _ _ | deleteSnapshots configName _ => configName
  | mountSnapshot configName _ _ | umountSnapshot configName _ _ => configName
  | getMountPoint configName _ | createComparison configName _ _ => configName
  | deleteComparison configName _ _ | getFiles configName _ _ => configName

/-- The user is not root and not a user of the config with this name. -/
def Stranger (uid : UInt32) (configName : Str) (d : Daemon) : Prop :=
  uid ≠ 0 ∧ ∀ m, d.find configName = some m → uid ∉ m.uids

/-- The user may not make the request: some need root, most a user of the config. -/
def Refused (uid : UInt32) (d : Daemon) : Request → Prop
  | .listConfigs => False
  | .createConfig _ _ _ _ | .deleteConfig _ | .debug => uid ≠ 0
  | request => Stranger uid request.configName d

/-- The configs of both states have the same names, and each has the same users. -/
def Daemon.SameUsers (d d' : Daemon) : Prop :=
  ∀ configName,
    (d.find configName).map MetaSnapper.uids = (d'.find configName).map MetaSnapper.uids

/-! ## The exception -/

/-- The bus may not know the sender; else the permission is missing. -/
def denial (env : Env) : Exception :=
  match env.fault (.getUnixUserid false) with
  | some fault => .fault fault
  | none => .Permissions

/-- What a handler throws that finds its config first. -/
def denialOf (env : Env) (configName : Str) (d : Daemon) : Exception :=
  if (d.find configName).isSome then denial env else .UnknownConfig

/-- What the handler of a refused request throws. -/
def refusal (env : Env) (d : Daemon) : Request → Exception
  | .createConfig _ _ _ _ | .debug | .listConfigs => denial env
  | request => denialOf env request.configName d

section Refusing

variable {env : Env} {me : Str} {d : Daemon} {configName : Str} {α : Type}

theorem checkRoot_refused (h : env.uid ≠ 0) : (checkRoot env).run d = (.error (denial env), d) := by
  unfold denial
  cases hbus : env.fault (.getUnixUserid false) with
  | some fault => simp [checkRoot, getUnixUserid, call, Act.run_bind, hbus]
  | none => simp [checkRoot, getUnixUserid, call, Act.run_bind, hbus, Act.throwIf, h]

theorem checkPermission_refused {m : MetaSnapper} (hroot : env.uid ≠ 0) (huser : env.uid ∉ m.uids) :
    (checkPermission env m).run d = (.error (denial env), d) := by
  unfold denial
  cases hbus : env.fault (.getUnixUserid false) with
  | some fault => simp [checkPermission, getUnixUserid, call, Act.run_bind, hbus]
  | none =>
    simp [checkPermission, getUnixUserid, call, Act.run_bind, hbus, Act.throwIf, hroot, huser]

/-- A handler that finds its config and is then denied throws, with nothing changed. -/
theorem findConfig_denied {k : MetaSnapper → Handler α}
    (hk : ∀ m, d.find configName = some m → (k m).run d = (.error (denial env), d)) :
    (findConfig configName >>= k).run d = (.error (denialOf env configName d), d) := by
  unfold denialOf
  cases hfind : d.find configName with
  | none => rw [Act.run_bind_error (findConfig_run_none hfind)]; rfl
  | some m =>
    rw [Act.run_bind_ok (findConfig_run hfind), hk m hfind]
    rfl

/-- The check for the users of the config, made right after the config is found. -/
theorem checked_refused (h : Stranger env.uid configName d) {k : MetaSnapper → Handler α} :
    (findConfig configName >>= fun m => checkPermission env m >>= fun _ => k m).run d =
      (.error (denialOf env configName d), d) :=
  findConfig_denied fun m hfind =>
    Act.run_bind_error (checkPermission_refused h.1 (h.2 m hfind))

/-- The common beginning of most handlers. -/
theorem opened_refused (h : Stranger env.uid configName d) {k : MetaSnapper → Handler α} :
    (openConfig env configName >>= k).run d = (.error (denialOf env configName d), d) :=
  Act.run_bind_error (checked_refused h)

/-- The handler of a refused request throws before it has changed anything. -/
theorem handle_refused {request : Request} (h : Refused env.uid d request) :
    (handle env me request).run d = (.error (refusal env d request), d) := by
  cases request with
  | listConfigs => exact h.elim
  -- root is asked for at once, or after the config is found
  | createConfig => exact Act.run_bind_error (checkRoot_refused h)
  | debug => exact Act.run_bind_error (checkRoot_refused h)
  | deleteConfig =>
    exact findConfig_denied fun m _ => Act.run_bind_error (checkRoot_refused h)
  -- the handlers that do not load the config
  | getConfig => exact checked_refused h
  | lockConfig => exact checked_refused h
  | unlockConfig => exact checked_refused h
  | deleteSnapshots => exact checked_refused h
  -- the handlers that load it
  | listSnapshots => exact opened_refused h
  | listSnapshotsAtTime => exact opened_refused h
  | getSnapshot => exact opened_refused h
  | setSnapshot => exact opened_refused h
  | createSingleSnapshot => exact opened_refused h
  | createPreSnapshot => exact opened_refused h
  | createPostSnapshot => exact opened_refused h
  | mountSnapshot => exact opened_refused h
  | umountSnapshot => exact opened_refused h
  | getMountPoint => exact opened_refused h
  | createComparison => exact opened_refused h
  | deleteComparison => exact opened_refused h
  | getFiles => exact opened_refused h

theorem dispatch_refused {request : Request} (h : Refused env.uid d request) :
    dispatch env me request d = d.send (.error me (refusal env d request).error) := by
  rw [dispatch, handle_refused h]

end Refusing

/-! ## Two states -/

section TwoStates

variable {d d' : Daemon} {configName : Str}

theorem Daemon.SameUsers.isSome (h : d.SameUsers d') :
    (d.find configName).isSome = (d'.find configName).isSome := by
  have hsame := congrArg Option.isSome (h configName)
  rwa [Option.isSome_map, Option.isSome_map] at hsame

theorem Daemon.SameUsers.stranger (h : d.SameUsers d') {uid : UInt32}
    (hd : Stranger uid configName d) : Stranger uid configName d' := by
  refine ⟨hd.1, fun m' hm' => ?_⟩
  have hsame := h configName
  rw [hm', Option.map_some] at hsame
  obtain ⟨m, hm, huids⟩ := Option.map_eq_some_iff.mp hsame
  exact huids ▸ hd.2 m hm

theorem Daemon.SameUsers.refused (h : d.SameUsers d') {uid : UInt32} {request : Request}
    (hd : Refused uid d request) : Refused uid d' request := by
  cases request with
  | listConfigs | createConfig | deleteConfig | debug => exact hd
  | _ => exact h.stranger hd

/-- Two daemons with the same configs and users refuse a request in the same words. -/
theorem Daemon.SameUsers.refusal (h : d.SameUsers d') {env env' : Env}
    (henv : env'.fault (.getUnixUserid false) = env.fault (.getUnixUserid false))
    (request : Request) : refusal env d request = refusal env' d' request := by
  have hdenial : denial env = denial env' := by rw [denial, denial, henv]
  have hdenialOf : ∀ configName, denialOf env configName d = denialOf env' configName d' := by
    intro configName
    rw [denialOf, denialOf, h.isSome, hdenial]
  cases request with
  | listConfigs | createConfig | debug => exact hdenial
  | _ => exact hdenialOf _

end TwoStates

/-- A refused request changes nothing and is answered with one error, which any other state
with the same configs and users gives as well, whatever else differs around it. -/
theorem refused_learns_nothing (env : Env) (me : Str) (request : Request) (d : Daemon)
    (h : Refused env.uid d request) :
    ∃ error, dispatch env me request d = d.send (.error me error) ∧
      ∀ (env' : Env) (d' : Daemon), env'.uid = env.uid →
        env'.fault (.getUnixUserid false) = env.fault (.getUnixUserid false) →
        d.SameUsers d' → dispatch env' me request d' = d'.send (.error me error) := by
  refine ⟨_, dispatch_refused h, fun env' d' huid hfault hsame => ?_⟩
  have h' : Refused env'.uid d' request := huid ▸ hsame.refused h
  rw [dispatch_refused h', hsame.refusal hfault request]

/-- A user that is not listed asks to delete the config `root`. -/
theorem refused_learns_nothing_root :
    ∃ error, dispatch { Env.quiet with uid := 1000 } (str ":1.7") (.deleteConfig (str "root"))
        .rootOnly = Daemon.rootOnly.send (.error (str ":1.7") error) ∧
      ∀ (env' : Env) (d' : Daemon), env'.uid = 1000 →
        env'.fault (.getUnixUserid false) = none → Daemon.rootOnly.SameUsers d' →
        dispatch env' (str ":1.7") (.deleteConfig (str "root")) d' =
          d'.send (.error (str ":1.7") error) :=
  refused_learns_nothing { Env.quiet with uid := 1000 } (str ":1.7") (.deleteConfig (str "root"))
    .rootOnly (by show (1000 : UInt32) ≠ 0; decide)

end Snapper.Server
