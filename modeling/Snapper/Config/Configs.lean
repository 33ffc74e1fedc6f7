import Snapper.Config.Sysconfig
import Snapper.General.Act
import Snapper.Server.Types

/-!
# Creating and deleting configs

The configs are those that `SNAPPER_CONFIGS` in the sysconfig file lists; each has a config file
of its name.  `ConfigEnv` has the answers of everything else.

A config file is found under the name of the config; that names with a slash may lead to the same
file is left out.
-/

namespace Snapper.Config

open General Sysconfig

/-! ## Files and answers -/

/-- The files of the configs, and the configs that `meta_snappers` knows. -/
structure Configs where
  /-- `SYSCONFIGFILE` -/
  sysconfig : Option Str
  /-- `CONFIGSDIR` -/
  files : Str → Option Str
  /-- The readable files in `CONFIGTEMPLATEDIR` -/
  templates : Str → Option Str
  metaSnappers : List ConfigInfo

/-- What the functions of `Snapper.cc` throw around configs, with their texts. -/
inductive ConfigException where
  | Permissions
  | ListConfigsFailedException
  | CreateConfigFailedException (msg : String)
  | DeleteConfigFailedException (msg : String)
  | ConfigNotFoundException
  | InvalidConfigException
  | ProgramNotInstalledException (msg : String)
  | FileNotFoundException
  | IOErrorException
  deriving DecidableEq, Repr

/-- What is outside of the config files. -/
structure ConfigEnv where
  /-- the sender is root -/
  root : Bool
  checkDir : Str → Bool
  /-- `Filesystem::create` of a type and a subvolume: what `fstype()` returns of the object -/
  filesystem : Str → Str → Except ConfigException Str
  /-- what a failed `cp` makes of the config file, `none` where it succeeds -/
  cp : Option (Option Str → Option Str)
  /-- the copied config file can be opened -/
  openConfig : Bool
  /-- `Filesystem::createConfig` -/
  createConfig : Option ConfigException
  /-- the new config file can be opened once more -/
  reopenConfig : Bool
  /-- the constructor of `Snapper` after it has the subvolume, and the deletion of the snapshots -/
  deleteSnapshots : Option ConfigException
  /-- `Filesystem::deleteConfig` -/
  deleteConfig : Option ConfigException
  /-- `rm` succeeds -/
  rm : Bool

abbrev Action := Act Configs ConfigException

/-- `"SNAPPER_CONFIGS"` -/
def configsKey : Str := str "SNAPPER_CONFIGS"

/-- Throw where there is an exception. -/
def throwSome : Option ConfigException → Action PUnit
  | none => pure ⟨⟩
  | some e => throw e

/-! ## Reading -/

/-- `Snapper::getConfig` of a config file -/
def configInfo (configName file : Str) : ConfigInfo where
  configName := configName
  subvolume := (getValue (str "SUBVOLUME") (getlines file)).getD (str "/")
  raw := getAllValues (getlines file)

/-- The names in `SNAPPER_CONFIGS` -/
def configNames (file : Str) : List Str := (getValues configsKey (getlines file)).getD []

/-- `Snapper::getConfigs`; a config whose file is not found is left out. -/
def getConfigs : Action (List ConfigInfo) := do
  let configs ← Act.read id
  match configs.sysconfig with
  | none => throw .ListConfigsFailedException
  | some file =>
    pure ((configNames file).filterMap fun name => (configs.files name).map (configInfo name))

/-! ## Creation -/

/-- `config_name.empty() || config_name.find_first_of(", \t") != npos` -/
def illegalName (configName : Str) : Bool :=
  configName.isEmpty || configName.any fun b => b = 44 ∨ isBlank b

/-- The checks of `Snapper::createConfig`: the template and the type of the file system. -/
def checkConfig (env : ConfigEnv) (configName subvolume fstype templateName : Str) :
    Action (Str × Str) := do
  Act.throwIf (illegalName configName) (.CreateConfigFailedException "illegal config name")
  Act.throwIf (subvolume.head? ≠ some slash || !env.checkDir subvolume)
    (.CreateConfigFailedException "illegal subvolume")
  let configs ← getConfigs
  Act.throwIf (configs.any (·.subvolume = subvolume))
    (.CreateConfigFailedException "subvolume already covered")
  match ← Act.read (·.templates templateName) with
  | none => throw (.CreateConfigFailedException "cannot access template config")
  | some template =>
    match env.filesystem fstype subvolume with
    | .error (.ProgramNotInstalledException msg) => throw (.CreateConfigFailedException msg)
    | .error .InvalidConfigException =>
      throw (.CreateConfigFailedException "invalid filesystem type")
    | .error e => throw e
    | .ok type => pure (template, type)

/-- The config is added to `SNAPPER_CONFIGS`, which the destructor of `SysconfigFile` saves. -/
def registerConfig (configName : Str) : Action PUnit := do
  match ← Act.read (·.sysconfig) with
  | none => throw (.CreateConfigFailedException "sysconfig-file not found")
  | some file =>
    Act.throwIf (configName ∈ configNames file)
      (.CreateConfigFailedException "config already exists")
    Act.modify fun configs =>
      { configs with
        sysconfig := some (Sysconfig.save (setValues configsKey (configNames file ++ [configName])
          (getlines file))) }

/-- Change a config file. -/
def Configs.setFile (configName : Str) (file : Option Str) (configs : Configs) : Configs :=
  { configs with files := Function.update configs.files configName file }

/-- `cp` of the template -/
def copyTemplate (env : ConfigEnv) (configName template : Str) : Action PUnit :=
  match env.cp with
  | some left => do
    Act.modify fun configs => configs.setFile configName (left (configs.files configName))
    throw (.CreateConfigFailedException "copying config-file template failed")
  | none => Act.modify (Configs.setFile configName (some template))

/-- The config file with its own subvolume and file system -/
def edited (template subvolume type : Str) : Str :=
  Sysconfig.save
    (setValue (str "FSTYPE") type (setValue (str "SUBVOLUME") subvolume (getlines template)))

/-- The config file is edited, and saved by the destructor. -/
def editConfig (env : ConfigEnv) (configName template subvolume type : Str) : Action PUnit := do
  Act.throwIf (!env.openConfig) (.CreateConfigFailedException "modifying config failed")
  Act.modify (Configs.setFile configName (some (edited template subvolume type)))

/-- `Snapper::createConfig` -/
def createConfig (env : ConfigEnv) (configName subvolume fstype templateName : Str) :
    Action PUnit := do
  let (template, type) ← checkConfig env configName subvolume fstype templateName
  registerConfig configName
  copyTemplate env configName template
  editConfig env configName template subvolume type
  throwSome env.createConfig

/-! ## Deletion -/

/-- `Snapper::deleteConfig` up to the removal of the config file -/
def clearConfig (env : ConfigEnv) (configName : Str) : Action PUnit := do
  match ← Act.read (·.files configName) with
  | none => throw .ConfigNotFoundException
  | some file => do
    Act.throwIf (getValue (str "SUBVOLUME") (getlines file)).isNone .InvalidConfigException
    throwSome env.deleteSnapshots
    match env.deleteConfig with
    | some (.DeleteConfigFailedException _) =>
      throw (.DeleteConfigFailedException "deleting snapshot failed")
    | e => throwSome e

/-- The config is removed from `SNAPPER_CONFIGS`. -/
def unregisterConfig (configName : Str) : Action PUnit := do
  match ← Act.read (·.sysconfig) with
  | none => throw (.DeleteConfigFailedException "sysconfig-file not found")
  | some file =>
    Act.modify fun configs =>
      { configs with
        sysconfig := some (Sysconfig.save (setValues configsKey
          ((configNames file).filter (· ≠ configName)) (getlines file))) }

/-- `Snapper::deleteConfig` -/
def deleteConfig (env : ConfigEnv) (configName : Str) : Action PUnit := do
  clearConfig env configName
  Act.throwIf (!env.rm) (.DeleteConfigFailedException "deleting config-file failed")
  Act.modify (Configs.setFile configName none)
  unregisterConfig configName

/-! ## The server -/

/-- `MetaSnappers::createConfig` -/
def addConfig (env : ConfigEnv) (configName subvolume fstype templateName : Str) :
    Action PUnit := do
  createConfig env configName subvolume fstype templateName
  match ← Act.read (·.files configName) with
  | none => throw .FileNotFoundException
  | some file => do
    Act.throwIf (!env.reopenConfig) .FileNotFoundException
    Act.modify fun configs =>
      { configs with metaSnappers := configs.metaSnappers ++ [configInfo configName file] }

/-- `Client::create_config` -/
def handleCreateConfig (env : ConfigEnv) (configName subvolume fstype templateName : Str) :
    Action PUnit := do
  Act.throwIf (!env.root) .Permissions
  addConfig env configName subvolume fstype templateName

/-! ## What the steps do -/

section Steps

variable {env : ConfigEnv} {configName subvolume fstype templateName template type file : Str}
  {configs configs' : Configs} {names : List Str}

open Act

/-- An action that changes nothing, however it ends. -/
def Looks {α : Type} (c : Action α) : Prop := ∀ configs, (c.run configs).2 = configs

theorem Looks.pure {α : Type} (a : α) : Looks (pure a : Action α) := fun _ => rfl

theorem Looks.throw {α : Type} (e : ConfigException) : Looks (throw e : Action α) := fun _ => rfl

theorem Looks.read {α : Type} (f : Configs → α) : Looks (Act.read f : Action α) := fun _ => rfl

/-- Two functions that only look do so one after the other. -/
theorem Looks.bind {α β : Type} {c : Action α} {k : α → Action β} (hc : Looks c)
    (hk : ∀ a, Looks (k a)) : Looks (c >>= k) := by
  intro configs
  have hsame := hc configs
  rw [run_bind]
  cases hrun : c.run configs with
  | mk r configs' =>
    rw [hrun] at hsame
    cases r with
    | ok a => exact (hk a configs').trans hsame
    | error e => exact hsame

theorem Looks.throwIf (b : Bool) (e : ConfigException) : Looks (throwIf b e) := by
  cases b with
  | true => exact Looks.throw e
  | false => exact Looks.pure _

theorem getConfigs_looks : Looks getConfigs := by
  apply Looks.bind (Looks.read _)
  intro found
  split
  · exact Looks.throw _
  · exact Looks.pure _

/-- The checks change nothing. -/
theorem checkConfig_looks (env : ConfigEnv) (configName subvolume fstype templateName : Str) :
    Looks (checkConfig env configName subvolume fstype templateName) := by
  apply Looks.bind (Looks.throwIf _ _)
  intro _
  apply Looks.bind (Looks.throwIf _ _)
  intro _
  apply Looks.bind getConfigs_looks
  intro infos
  apply Looks.bind (Looks.throwIf _ _)
  intro _
  apply Looks.bind (Looks.read _)
  intro found
  -- the template is read last
  cases found with
  | none => exact Looks.throw _
  | some template =>
    dsimp only
    split
    · exact Looks.throw _
    · exact Looks.throw _
    · exact Looks.throw _
    · exact Looks.pure _

/-- The files with a config added to `SNAPPER_CONFIGS` -/
def Configs.register (configName file : Str) (configs : Configs) : Configs :=
  { configs with
    sysconfig := some (Sysconfig.save (setValues configsKey (configNames file ++ [configName])
      (getlines file))) }

theorem registerConfig_ok (hfile : configs.sysconfig = some file)
    (hnew : configName ∉ configNames file) :
    (registerConfig configName).run configs = (.ok ⟨⟩, configs.register configName file) := by
  unfold registerConfig
  rw [run_bind_ok (run_read _ configs), hfile]
  simp [hnew, throwIf, run_bind, Configs.register]

/-- Registering is refused, or the config was not in the list and is added. -/
theorem registerConfig_run (configName : Str) (configs : Configs) :
    (∃ e, (registerConfig configName).run configs = (.error e, configs)) ∨
      ∃ file, configs.sysconfig = some file ∧ configName ∉ configNames file ∧
        (registerConfig configName).run configs = (.ok ⟨⟩, configs.register configName file) := by
  cases hfile : configs.sysconfig with
  | none =>
    refine Or.inl ⟨.CreateConfigFailedException "sysconfig-file not found", ?_⟩
    simp [registerConfig, run_bind, hfile]
  | some file =>
    by_cases hmem : configName ∈ configNames file
    · refine Or.inl ⟨.CreateConfigFailedException "config already exists", ?_⟩
      simp [registerConfig, run_bind, hfile, hmem, throwIf]
    · exact Or.inr ⟨file, rfl, hmem, registerConfig_ok hfile hmem⟩

/-- One of the steps after the registration fails. -/
def ConfigEnv.FailsLate (env : ConfigEnv) : Prop :=
  env.cp.isSome ∨ env.openConfig = false ∨ env.createConfig.isSome

/-- What the steps after the registration leave of the config file. -/
def written (env : ConfigEnv) (template subvolume type : Str) (old : Option Str) : Option Str :=
  match env.cp with
  | some left => left old
  | none => if env.openConfig then some (edited template subvolume type) else some template

/-- What the creation does to the file of the config once the config is registered, and when it
fails after that. -/
theorem copyTemplate_run (env : ConfigEnv) (configName template subvolume type : Str)
    (configs : Configs) :
    ((copyTemplate env configName template >>= fun _ => do
        editConfig env configName template subvolume type
        throwSome env.createConfig : Action PUnit).run configs).2 =
      configs.setFile configName (written env template subvolume type (configs.files configName)) ∧
    ((∃ e, ((copyTemplate env configName template >>= fun _ => do
        editConfig env configName template subvolume type
        throwSome env.createConfig : Action PUnit).run configs).1 = .error e) ↔
      env.FailsLate) := by
  have htwice : ∀ a b : Option Str, (configs.setFile configName a).setFile configName b =
      configs.setFile configName b := by
    intro a b
    simp [Configs.setFile]
  unfold copyTemplate written ConfigEnv.FailsLate
  -- cp, opening the copy and the command of the file system, one after the other
  cases hcp : env.cp with
  | some left => simp [run_bind]
  | none =>
    cases hopen : env.openConfig with
    | false => simp [editConfig, hopen, throwIf, run_bind]
    | true =>
      cases hcreate : env.createConfig with
      | none => simp [editConfig, hopen, throwIf, throwSome, run_bind, htwice]
      | some e => simp [editConfig, hopen, throwIf, throwSome, run_bind, htwice]

/-- The checks pass and the config is new: it is registered and its file written, whether the
creation then fails or not. -/
theorem createConfig_run
    (hcheck : (checkConfig env configName subvolume fstype templateName).run configs =
      (.ok (template, type), configs))
    (hfile : configs.sysconfig = some file) (hnew : configName ∉ configNames file) :
    ((createConfig env configName subvolume fstype templateName).run configs).2 =
        (configs.register configName file).setFile configName
          (written env template subvolume type (configs.files configName)) ∧
      ((∃ e, ((createConfig env configName subvolume fstype templateName).run configs).1 =
        .error e) ↔ env.FailsLate) := by
  unfold createConfig
  rw [run_bind_ok hcheck]
  dsimp only
  rw [run_bind_ok (registerConfig_ok hfile hnew)]
  exact copyTemplate_run env configName template subvolume type (configs.register configName file)

/-- Otherwise it is refused before it changes anything. -/
theorem createConfig_cases (env : ConfigEnv) (configName subvolume fstype templateName : Str)
    (configs : Configs) :
    (∃ e, (createConfig env configName subvolume fstype templateName).run configs =
        (.error e, configs)) ∨
      ∃ file template type, configs.sysconfig = some file ∧ configName ∉ configNames file ∧
        (checkConfig env configName subvolume fstype templateName).run configs =
          (.ok (template, type), configs) := by
  -- up to the registration nothing is written
  have hsame := checkConfig_looks env configName subvolume fstype templateName configs
  cases hcheck : (checkConfig env configName subvolume fstype templateName).run configs with
  | mk r configs' =>
    rw [hcheck] at hsame
    obtain rfl : configs' = configs := hsame
    cases r with
    | error e => exact Or.inl ⟨e, run_bind_error hcheck⟩
    | ok found =>
      rcases registerConfig_run configName configs' with ⟨e, herror⟩ | ⟨file, hfile, hnew, -⟩
      · refine Or.inl ⟨e, ?_⟩
        unfold createConfig
        rw [run_bind_ok hcheck]
        exact run_bind_error herror
      · exact Or.inr ⟨file, found.1, found.2, hfile, hnew, rfl⟩

end Steps

end Snapper.Config
