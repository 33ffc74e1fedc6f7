import Snapper.Command.Quote
import Snapper.Config.Sysconfig
import Snapper.General.Replace

/-!
# Names of LVM devices

The device mapper joins the names of volume group and logical volume with a hyphen, after
doubling their own hyphens.  `Lvm` gets the names back with a regular expression, and makes
such names for its snapshots.

## Main results

- `captures_longest`: the first group of the expression is the longest possible
- `captures_separator`: only the separator is a place for the hyphen of the expression
- `names_decoded_iff`: which names come back
-/

namespace Snapper

open General Command

/-- `'-'` -/
def hyphen : UInt8 := 45

/-- `vg_name` and `lv_name` -/
structure Lvm where
  vgName : Str
  lvName : Str
  deriving DecidableEq

namespace Lvm

/-! ## The regular expression -/

/-- What the hyphen between the groups of `(.+[^-])-([^-].+)` may have around it. -/
structure Around (before rest : Str) : Prop where
  before_length : 2 ≤ before.length
  before_last : before.getLast? ≠ some hyphen
  rest_length : 2 ≤ rest.length
  rest_head : rest.head? ≠ some hyphen

instance instDecidableAround (before rest : Str) : Decidable (Around before rest) :=
  decidable_of_iff (2 ≤ before.length ∧ before.getLast? ≠ some hyphen ∧ 2 ≤ rest.length ∧
      rest.head? ≠ some hyphen)
    ⟨fun h => ⟨h.1, h.2.1, h.2.2.1, h.2.2.2⟩, fun h => ⟨h.1, h.2, h.3, h.4⟩⟩

/-- The groups of `(.+[^-])-([^-].+)$` in `before ++ rest` with the hyphen in `rest`.  The first
group is the longest possible, so a later hyphen counts before an earlier one. -/
def captures (before : Str) : Str → Option (Str × Str)
  | [] => none
  | c :: rest =>
    match captures (before ++ [c]) rest with
    | some groups => some groups
    | none => if c = hyphen ∧ Around before rest then some (before, rest) else none

/-- `^/dev/mapper/(.+[^-])-([^-].+)$`; the device is matched as a `const char*` -/
def matchDevice (device : Str) : Option (Str × Str) :=
  if str "/dev/mapper/" <+: cstr device then
    captures [] ((cstr device).drop (str "/dev/mapper/").length)
  else none

/-- A match at a later hyphen, or one at the first character -/
theorem captures_cases {before rest : Str} {c : UInt8} {groups : Str × Str}
    (h : captures before (c :: rest) = some groups) :
    captures (before ++ [c]) rest = some groups ∨
      (groups = (before, rest) ∧ c = hyphen ∧ Around before rest) := by
  rw [captures] at h
  cases hlater : captures (before ++ [c]) rest with
  | some later =>
    rw [hlater] at h
    exact .inl h
  | none =>
    rw [hlater] at h
    dsimp only at h
    split at h
    · next hcond => exact .inr ⟨(Option.some.inj h).symm, hcond⟩
    · cases h

/-- A match has what was passed already in its first group. -/
theorem captures_length {before rest : Str} {groups : Str × Str}
    (h : captures before rest = some groups) : before.length ≤ groups.1.length := by
  induction rest generalizing before with
  | nil => cases h
  | cons c rest ih =>
    obtain hlater | ⟨rfl, -, -⟩ := captures_cases h
    · have hlength := ih hlater
      rw [List.length_append] at hlength
      exact Nat.le_of_add_right_le hlength
    · exact le_rfl

/-- Every other match has a shorter first group. -/
theorem captures_longest {before rest more b : Str} (hsplit : rest = more ++ hyphen :: b)
    (haround : Around (before ++ more) b) :
    ∃ a' b', captures before rest = some (a', b') ∧ (before ++ more).length ≤ a'.length := by
  -- over what follows the part of the first group that is passed already
  induction rest generalizing before more with
  | nil => simp at hsplit
  | cons c rest ih =>
    rw [captures]
    cases more with
    | nil =>
      obtain ⟨rfl, rfl⟩ := List.cons.inj hsplit
      rw [List.append_nil] at haround
      -- at this hyphen: a later one is preferred, as the group is greedy
      cases hlater : captures (before ++ [hyphen]) rest with
      | some groups =>
        have hlength := captures_length hlater
        rw [List.length_append] at hlength
        refine ⟨groups.1, groups.2, rfl, ?_⟩
        rw [List.append_nil]
        exact Nat.le_of_add_right_le hlength
      | none =>
        refine ⟨before, rest, if_pos ⟨rfl, haround⟩, ?_⟩
        rw [List.append_nil]
    | cons c' more =>
      obtain ⟨rfl, hrest⟩ := List.cons.inj hsplit
      have happend : before ++ c :: more = (before ++ [c]) ++ more := by simp
      rw [happend] at haround ⊢
      -- the hyphen is further on
      obtain ⟨a', b', hlater, hlength⟩ := ih hrest haround
      rw [hlater]
      exact ⟨a', b', rfl, hlength⟩

/-! ## Doubled hyphens -/

/-- `boost::replace_all_copy(name, "-", "--")` -/
def double (name : Str) : Str := replaceAll (str "-") (str "--") name

/-- `boost::replace_all_copy(name, "--", "-")` -/
def undouble (name : Str) : Str := replaceAll (str "--") (str "-") name

theorem undouble_double (name : Str) : undouble (double name) = name :=
  replaceAll_double hyphen name

theorem double_cons (c : UInt8) (name : Str) :
    double (c :: name) = (if c = hyphen then [hyphen, hyphen] else [c]) ++ double name :=
  replaceAll_singleton_cons hyphen c _ name

/-- A place for the hyphen of the expression that nothing follows. -/
theorem captures_skip {before rest : Str} {c : UInt8} (h : ¬(c = hyphen ∧ Around before rest)) :
    captures before (c :: rest) = captures (before ++ [c]) rest := by
  rw [captures]
  cases captures (before ++ [c]) rest with
  | some groups => rfl
  | none => exact if_neg h

/-- The hyphens of a name are none for the expression: each has another one beside it. -/
theorem captures_double (before name rest : Str) :
    captures before (double name ++ rest) = captures (before ++ double name) rest := by
  induction name generalizing before with
  | nil => exact congrArg (captures · rest) (List.append_nil before).symm
  | cons c name ih =>
    rw [double_cons]
    split
    · show captures before (hyphen :: hyphen :: (double name ++ rest)) = _
      rw [captures_skip (fun h => h.2.rest_head rfl), captures_skip, ih]
      · simp
      · intro h
        exact h.2.before_last (by simp)
    · next hc =>
      show captures before (c :: (double name ++ rest)) = _
      rw [captures_skip (fun h => hc h.1), ih]
      simp

/-- Of two doubled names the expression finds the hyphen between them, if it finds anything. -/
theorem captures_separator (vg lv : Str) :
    captures [] (double vg ++ hyphen :: double lv) =
      if Around (double vg) (double lv) then some (double vg, double lv) else none := by
  have hlater : captures (double vg ++ [hyphen]) (double lv) = none := by
    have hname := captures_double (double vg ++ [hyphen]) lv []
    rwa [List.append_nil] at hname
  rw [captures_double, List.nil_append, captures, hlater]
  by_cases haround : Around (double vg) (double lv)
  · rw [if_pos haround]
    exact if_pos ⟨rfl, haround⟩
  · rw [if_neg haround]
    exact if_neg fun h => haround h.2

/-! ## Names -/

/-- `[a-zA-Z0-9+_.-]` -/
def isNameChar (c : UInt8) : Bool :=
  isDigit c ∨ (65 ≤ c ∧ c ≤ 90) ∨ (97 ≤ c ∧ c ≤ 122) ∨ c ∈ str "+_.-"

/-- A name that LVM allows, without a hyphen at its end. -/
structure ValidLvmName (name : Str) : Prop where
  ne_nil : name ≠ []
  chars : ∀ c ∈ name, isNameChar c = true
  head : name.head? ≠ some hyphen
  last : name.getLast? ≠ some hyphen

theorem ValidLvmName.no_nul {name : Str} (h : ValidLvmName name) : 0 ∉ name := by
  intro h0
  have hchar := h.chars 0 h0
  revert hchar
  decide

/-- Doubling the hyphens keeps the first byte. -/
theorem head_double (name : Str) : (double name).head? = name.head? := by
  cases name with
  | nil => rfl
  | cons c name =>
    rw [double_cons]
    split
    · next hc => simp [hc]
    · simp

/-- And it keeps the last one. -/
theorem getLast_double (name : Str) : (double name).getLast? = name.getLast? := by
  induction name with
  | nil => rfl
  | cons c name ih =>
    rw [double_cons, List.getLast?_append, ih, List.getLast?_cons]
    split
    · next hc => cases name.getLast? <;> simp [hc]
    · cases name.getLast? <;> simp

/-- And it makes no name shorter. -/
theorem length_le_double (name : Str) : name.length ≤ (double name).length := by
  induction name with
  | nil => exact le_rfl
  | cons c name ih =>
    rw [double_cons, List.length_append]
    split
    · simp only [List.length_cons, List.length_nil]
      omega
    · simp only [List.length_cons, List.length_nil]
      omega

/-- One character other than the hyphen stays one. -/
theorem two_le_double {name : Str} (h : name.head? ≠ some hyphen) :
    2 ≤ (double name).length ↔ 2 ≤ name.length := by
  constructor
  · intro hdouble
    cases name with
    | nil => exact hdouble
    | cons c name =>
      cases name with
      | nil =>
        have hc : c ≠ hyphen := fun hc => h (congrArg some hc)
        rw [double_cons, if_neg hc] at hdouble
        exact hdouble
      | cons c' name => exact Nat.le_add_left 2 name.length
  · exact fun hname => hname.trans (length_le_double name)

/-- The expression wants a byte that is no hyphen and another one on either side of the separator,
which a doubled name has exactly when it has two characters. -/
theorem around_double_iff {vg lv : Str} (hvg : vg.head? ≠ some hyphen)
    (hlast : vg.getLast? ≠ some hyphen) (hlv : lv.head? ≠ some hyphen) :
    Around (double vg) (double lv) ↔ 2 ≤ vg.length ∧ 2 ≤ lv.length := by
  constructor
  · intro h
    exact ⟨(two_le_double hvg).mp h.before_length, (two_le_double hlv).mp h.rest_length⟩
  · intro h
    exact {
      before_length := (two_le_double hvg).mpr h.1
      before_last := by rwa [getLast_double]
      rest_length := (two_le_double hlv).mpr h.2
      rest_head := by rwa [head_double] }

/-- Doubling adds no NUL byte. -/
theorem nul_not_mem_double {name : Str} (h : 0 ∉ name) : 0 ∉ double name := by
  induction name with
  | nil => exact List.not_mem_nil
  | cons c name ih =>
    rw [List.mem_cons, not_or] at h
    rw [double_cons, List.mem_append, not_or]
    refine ⟨?_, ih h.2⟩
    split
    · decide
    · exact fun h0 => h.1 (List.mem_singleton.mp h0)

/-! ## Devices -/

/-- The device of a logical volume. -/
def deviceName (vg lv : Str) : Str := str "/dev/mapper/" ++ double vg ++ str "-" ++ double lv

/-- `Lvm::snapshotLvName` -/
def snapshotLvName (lvm : Lvm) (num : UInt32) : Str :=
  lvm.lvName ++ str "-snapshot" ++ decString num.toNat

/-- `Lvm::getDevice` -/
def getDevice (lvm : Lvm) (num : UInt32) : Str :=
  str "/dev/mapper/" ++ replaceAll (str "-") (str "--") lvm.vgName ++ str "-" ++
    replaceAll (str "-") (str "--") (lvm.snapshotLvName num)

theorem getDevice_eq (lvm : Lvm) (num : UInt32) :
    lvm.getDevice num = deviceName lvm.vgName (lvm.snapshotLvName num) := rfl

section Detect

-- the path of `lvs`, and what the shell makes of a command: its exit code and the lines of
-- its output
variable (lvsbin : Str) (system : Str → Int × List Str)

/-- `Lvm::detectThinVolumeNames` -/
def detectThinVolumeNames (device : Str) (lvm : Lvm) : Bool × Lvm :=
  match matchDevice device with
  | none => (false, lvm)
  | some (group1, group2) =>
    let vgName := replaceAll (str "--") (str "-") group1
    let lvName := replaceAll (str "--") (str "-") group2
    let (retcode, lines) :=
      system (lvsbin ++ str " -o segtype --noheadings " ++ quote (vgName ++ str "/" ++ lvName))
    (retcode = 0 ∧ Sysconfig.trim (lines.headD []) = str "thin", ⟨vgName, lvName⟩)

/-- The pattern accepts the device, and the names are these. -/
def Decodes (device vg lv : Str) : Prop :=
  (matchDevice device).isSome = true ∧
    ∀ lvm, (detectThinVolumeNames lvsbin system device lvm).2 = ⟨vg, lv⟩

theorem decodes_of_match {device group1 group2 : Str}
    (h : matchDevice device = some (group1, group2)) :
    Decodes lvsbin system device (undouble group1) (undouble group2) := by
  refine ⟨by rw [h]; rfl, fun lvm => ?_⟩
  rw [detectThinVolumeNames, h]
  rfl

end Detect

/-- The whole expression matches the name of a device when it matches around the separator. -/
theorem matchDevice_deviceName {vg lv : Str} (hvg : 0 ∉ vg) (hlv : 0 ∉ lv) :
    matchDevice (deviceName vg lv) =
      if Around (double vg) (double lv) then some (double vg, double lv) else none := by
  have hnul : 0 ∉ deviceName vg lv := by
    have hvg' := nul_not_mem_double hvg
    have hlv' := nul_not_mem_double hlv
    have hdev : 0 ∉ str "/dev/mapper/" := by decide
    have hsep : 0 ∉ str "-" := by decide
    simp only [deviceName, List.mem_append, not_or]
    exact ⟨⟨⟨hdev, hvg'⟩, hsep⟩, hlv'⟩
  have hsplit : deviceName vg lv = str "/dev/mapper/" ++ (double vg ++ hyphen :: double lv) := by
    have hsep : str "-" = [hyphen] := rfl
    simp [deviceName, hsep]
  rw [matchDevice, cstr_of_no_nul hnul, hsplit, if_pos (List.prefix_append _ _),
    List.drop_left, captures_separator]

/-- Names are decoded if and only if both are longer than one character. -/
theorem decodes_iff (lvsbin : Str) (system : Str → Int × List Str) {vg lv : Str}
    (hvg : ValidLvmName vg) (hnul : 0 ∉ lv) (hlv : lv.head? ≠ some hyphen) :
    Decodes lvsbin system (deviceName vg lv) vg lv ↔ 2 ≤ vg.length ∧ 2 ≤ lv.length := by
  rw [← around_double_iff hvg.head hvg.last hlv]
  have hmatch := matchDevice_deviceName hvg.no_nul hnul
  constructor
  · intro h
    by_contra haround
    rw [if_neg haround] at hmatch
    have hsome := h.1
    rw [hmatch] at hsome
    cases hsome
  · intro haround
    rw [if_pos haround] at hmatch
    have hdecodes := decodes_of_match lvsbin system hmatch
    rwa [undouble_double, undouble_double] at hdecodes

theorem nul_not_mem_decString (n : Nat) : 0 ∉ decString n := by
  intro h0
  have hdigit := isDigit_of_mem_decString h0
  revert hdigit
  decide

/-! ## Main result -/

/-- For all names that LVM allows and that do not end with a hyphen, the names of a volume and
of the devices of its snapshots come back if and only if both names have more than one
character: the expression wants two on either side of the separator. -/
theorem names_decoded_iff (lvsbin : Str) (system : Str → Int × List Str) (vg lv : Str)
    (hvg : ValidLvmName vg) (hlv : ValidLvmName lv) :
    (Decodes lvsbin system (deviceName vg lv) vg lv ∧
      ∀ num : UInt32, Decodes lvsbin system (getDevice ⟨vg, lv⟩ num) vg
        (lv ++ str "-snapshot" ++ decString num.toNat)) ↔
    2 ≤ vg.length ∧ 2 ≤ lv.length := by
  rw [decodes_iff lvsbin system hvg hlv.no_nul hlv.head]
  constructor
  · exact fun h => h.1
  · intro h
    refine ⟨h, fun num => ?_⟩
    rw [getDevice_eq]
    have hnul : 0 ∉ lv ++ str "-snapshot" ++ decString num.toNat := by
      have hword : 0 ∉ str "-snapshot" := by decide
      simp only [List.mem_append, not_or]
      exact ⟨⟨hlv.no_nul, hword⟩, nul_not_mem_decString _⟩
    -- the name of a snapshot's volume begins as the one of the volume does
    have hhead : (lv ++ str "-snapshot" ++ decString num.toNat).head? ≠ some hyphen := by
      rw [List.append_assoc, List.head?_append_of_ne_nil _ hlv.ne_nil]
      exact hlv.head
    refine (decodes_iff lvsbin system hvg hnul hhead).mpr ⟨h.1, ?_⟩
    simp only [List.length_append]
    omega

theorem valid_vg0 : ValidLvmName (str "vg-0") where
  ne_nil := by decide
  chars := forall_mem_of_all (by decide)
  head := by decide
  last := by decide

theorem valid_root : ValidLvmName (str "root") where
  ne_nil := by decide
  chars := forall_mem_of_all (by decide)
  head := by decide
  last := by decide

theorem valid_v : ValidLvmName (str "v") where
  ne_nil := by decide
  chars := forall_mem_of_all (by decide)
  head := by decide
  last := by decide

/-- `/dev/mapper/vg--0-root` -/
theorem names_decoded_vg0 :
    (Decodes (str "/sbin/lvs") (fun _ => (0, [str "  thin"])) (deviceName (str "vg-0") (str "root"))
        (str "vg-0") (str "root") ∧
      ∀ num : UInt32, Decodes (str "/sbin/lvs") (fun _ => (0, [str "  thin"]))
        (getDevice ⟨str "vg-0", str "root"⟩ num) (str "vg-0")
        (str "root" ++ str "-snapshot" ++ decString num.toNat)) ↔
    2 ≤ (str "vg-0").length ∧ 2 ≤ (str "root").length :=
  names_decoded_iff _ _ (str "vg-0") (str "root") valid_vg0 valid_root

/-- The volume `root` of a group with a name of one letter is refused. -/
theorem name_of_one_letter :
    ValidLvmName (str "v") ∧ ValidLvmName (str "root") ∧
      deviceName (str "v") (str "root") = str "/dev/mapper/v-root" ∧
      matchDevice (str "/dev/mapper/v-root") = none :=
  ⟨valid_v, valid_root, rfl, by decide⟩

end Lvm

end Snapper
