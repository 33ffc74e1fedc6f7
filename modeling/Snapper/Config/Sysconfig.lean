import Mathlib.Data.List.DropRight
import Mathlib.Data.List.Infix
import Snapper.Base.AsciiFile
import Snapper.Base.Number

/-!
# `SysconfigFile`

Files of lines `KEY="value"`.  A value is found by a regular expression, in the classic locale,
and a list of strings is a value with blanks between them.

## Main results

- `matchValue_valueLine`: a value without quotes is read back from its line
- `getlines_setValues`: writing a list changes one line
- `getValues_setValues_iff`: which lists are read back
-/

namespace Snapper

/-! ## Lines -/

/-- `[ \t]`, and what `is_any_of(" \t")` splits at -/
def isBlank (b : UInt8) : Bool := b = 32 ∨ b = 9

/-- `['"]` -/
def isQuote (b : UInt8) : Bool := b = 34 ∨ b = 39

def quotationMark : UInt8 := 34

/-- What `(['"]?)([^'"]*)\1[ \t]*$` captures second: a text in quotes with blanks behind them,
or a text without quotes. -/
def quotedValue (text : Str) : Option Str :=
  match text with
  | [] => some []
  | q :: body =>
    if isQuote q then
      let value := body.takeWhile fun b => !isQuote b
      match body.drop value.length with
      | [] => none
      | b :: rest => if b = q ∧ rest.all isBlank then some value else none
    else if text.any isQuote then none
    else some text

/-- `^[ \t]*KEY=` and the value; the key does not begin with a blank. -/
def matchValue (key line : Str) : Option Str :=
  let text := (cstr line).dropWhile isBlank
  if key ++ str "=" <+: text then quotedValue (text.drop (key.length + 1)) else none

namespace Sysconfig

/-- `getValue` of a string: the value of the first line that matches -/
def getValue (key : Str) (lines : List Str) : Option Str := lines.findSome? (matchValue key)

/-- `key + "=\"" + value + "\""` -/
def valueLine (key value : Str) : Str := key ++ str "=\"" ++ value ++ str "\""

/-- `setValue` of a string: it takes the place of the first line that matches, or is added. -/
def setValue (key value : Str) : List Str → List Str
  | [] => [valueLine key value]
  | line :: lines =>
    if (matchValue key line).isSome then valueLine key value :: lines
    else line :: setValue key value lines

/-- `boost::trim` in the classic locale -/
def trim (s : Str) : Str := (s.dropWhile isSpace).rdropWhile isSpace

/-- `boost::split` at blanks with `token_compress_on`, for a text that neither begins nor ends
with a blank -/
def split (s : Str) : List Str := (s.splitOnP isBlank).filter (· ≠ [])

/-- `boost::join(values, " ")` -/
def join (values : List Str) : Str := [space].intercalate values

/-- The list of strings that a value stands for. -/
def wordsOf (value : Str) : List Str :=
  let value := trim value
  if value ≠ [] then split value else []

/-- `getValue` of a list -/
def getValues (key : Str) (lines : List Str) : Option (List Str) :=
  (getValue key lines).map wordsOf

/-- `setValue` of a list -/
def setValues (key : Str) (values : List Str) (lines : List Str) : List Str :=
  setValue key (join values) lines

/-- `[0-9A-Z_]` -/
def isKeyChar (c : UInt8) : Bool := isDigit c ∨ (65 ≤ c ∧ c ≤ 90) ∨ c = 95

/-- `^[ \t]*([0-9A-Z_]+)=` and the value -/
def matchAny (line : Str) : Option (Str × Str) :=
  let text := (cstr line).dropWhile isBlank
  let key := text.takeWhile isKeyChar
  if key ≠ [] ∧ key ++ str "=" <+: text then
    (quotedValue (text.drop (key.length + 1))).map fun value => (key, value)
  else none

/-- The body of the loop of `getAllValues` -/
def insertLine (ret : StrMap) (line : Str) : StrMap :=
  match matchAny line with
  | some (key, value) => ret.set key value
  | none => ret

/-- `SysconfigFile::getAllValues` -/
def getAllValues (lines : List Str) : StrMap := lines.foldl insertLine .empty

/-- `AsciiFile::save` -/
def save (lines : List Str) : Str := lines.flatMap putline

/-! ## The value of a line -/

variable {key value line : Str} {lines front back : List Str} {values : List Str}

/-- Between two quotation marks a value without quotes is read as it stands. -/
theorem quotedValue_quoted (h : ∀ b ∈ value, isQuote b = false) :
    quotedValue (quotationMark :: value ++ [quotationMark]) = some value := by
  have hclose : isQuote quotationMark = true := rfl
  have htake : (value ++ [quotationMark]).takeWhile (fun b => !isQuote b) = value := by
    rw [List.takeWhile_append_of_pos fun b hb => by simp [h b hb]]
    simp [hclose]
  rw [List.cons_append, quotedValue]
  simp [hclose, htake]

/-- A value has no quotes and stands in the line. -/
theorem of_quotedValue {text : Str} (h : quotedValue text = some value) :
    (∀ b ∈ value, isQuote b = false) ∧ value ⊆ text := by
  unfold quotedValue at h
  split at h
  · cases h
    simp
  next q body =>
    split at h
    · dsimp only at h
      split at h
      · cases h
      · split at h
        · cases h
          constructor
          · intro b hb
            simpa using List.mem_takeWhile_imp hb
          · intro b hb
            exact List.mem_cons_of_mem _ ((List.takeWhile_sublist _).subset hb)
        · cases h
    · split at h
      · cases h
      next hnone =>
        cases h
        exact ⟨by simpa using hnone, fun _ hb => hb⟩

/-- Whatever a line gives for a key has no quote and consists of bytes of the line. -/
theorem of_matchValue (h : matchValue key line = some value) :
    (∀ b ∈ value, isQuote b = false) ∧ value ⊆ line := by
  unfold matchValue at h
  dsimp only at h
  split at h
  · obtain ⟨hquote, hsub⟩ := of_quotedValue h
    refine ⟨hquote, fun b hb => ?_⟩
    have hb := List.mem_of_mem_drop (hsub hb)
    exact mem_of_mem_cstr ((List.dropWhile_sublist _).subset hb)
  · cases h

/-- What a key is for the regular expression and the line. -/
structure ValidKey (key : Str) : Prop where
  ne_nil : key ≠ []
  no_blank : ∀ b ∈ key, isBlank b = false
  no_nul : 0 ∉ key
  no_newline : newline ∉ key

/-- A line written with a value without quotes and NUL has this value. -/
theorem matchValue_valueLine_of (hblank : ∀ b ∈ key, isBlank b = false) (hkey : 0 ∉ key)
    (hnul : 0 ∉ value) (hquote : ∀ b ∈ value, isQuote b = false) :
    matchValue key (valueLine key value) = some value := by
  have hline : valueLine key value =
      (key ++ str "=") ++ (quotationMark :: value ++ [quotationMark]) := by
    simp [valueLine, str, quotationMark]
  -- neither a NUL nor a blank in front changes the line
  have hcstr : cstr (valueLine key value) = valueLine key value := by
    have hmark : (0 : UInt8) ∉ str "=" ∧ (0 : UInt8) ≠ quotationMark := by decide
    apply cstr_of_no_nul
    simp [hline, hkey, hnul, hmark.1, hmark.2]
  have hdrop : (valueLine key value).dropWhile isBlank = valueLine key value := by
    cases key with
    | nil => rfl
    | cons b rest =>
      have hb : isBlank b = false := hblank b (List.mem_cons_self ..)
      simp [valueLine, hb]
  have hlength : key.length + 1 = (key ++ str "=").length := by simp [str]
  unfold matchValue
  dsimp only
  rw [hcstr, hdrop, hline, if_pos (List.prefix_append ..), hlength, List.drop_left,
    quotedValue_quoted hquote]

theorem matchValue_valueLine (hkey : ValidKey key) (hnul : 0 ∉ value)
    (hquote : ∀ b ∈ value, isQuote b = false) :
    matchValue key (valueLine key value) = some value :=
  matchValue_valueLine_of hkey.no_blank hkey.no_nul hnul hquote

/-! ## The lines of a file -/

/-- The file has one line with a value for the key. -/
def OneLine (key : Str) (front : List Str) (line : Str) (back : List Str) : Prop :=
  (matchValue key line).isSome ∧
    (∀ l ∈ front, matchValue key l = none) ∧ ∀ l ∈ back, matchValue key l = none

theorem OneLine.getValue (h : OneLine key front line back) :
    getValue key (front ++ line :: back) = matchValue key line := by
  obtain ⟨hline, hfront, -⟩ := h
  obtain ⟨value, hvalue⟩ := Option.isSome_iff_exists.mp hline
  rw [Sysconfig.getValue, List.findSome?_append, List.findSome?_eq_none_iff.mpr hfront]
  simp [hvalue]

/-- Only this line is changed. -/
theorem OneLine.setValue (h : OneLine key front line back) :
    setValue key value (front ++ line :: back) = front ++ valueLine key value :: back := by
  obtain ⟨hline, hfront, -⟩ := h
  induction front with
  | nil => simp [Sysconfig.setValue, hline]
  | cons l front ih =>
    rw [List.forall_mem_cons] at hfront
    simp [Sysconfig.setValue, hfront.1, ih hfront.2]

/-- A saved file is read back. -/
theorem getlines_save (h : ∀ l ∈ lines, newline ∉ l ∧ 0 ∉ l) :
    getlines (Sysconfig.save lines) = lines :=
  getlines_putline h

/-- The line that is written for a key is one line, without NUL, if key and value are. -/
theorem valueLine_clean (hkey : ValidKey key) (hnl : newline ∉ value) (hnul : 0 ∉ value) :
    newline ∉ valueLine key value ∧ 0 ∉ valueLine key value := by
  have hmark : ∀ b ∈ str "=\"" ++ str "\"", b ≠ newline ∧ b ≠ 0 := forall_mem_of_all (by decide)
  constructor
  · intro h
    simp only [valueLine, List.mem_append] at h
    rcases h with ((h | h) | h) | h
    · exact hkey.no_newline h
    · exact (hmark _ (List.mem_append_left _ h)).1 rfl
    · exact hnl h
    · exact (hmark _ (List.mem_append_right _ h)).1 rfl
  · intro h
    simp only [valueLine, List.mem_append] at h
    rcases h with ((h | h) | h) | h
    · exact hkey.no_nul h
    · exact (hmark _ (List.mem_append_left _ h)).2 rfl
    · exact hnul h
    · exact (hmark _ (List.mem_append_right _ h)).2 rfl

/-! ## Lists of strings -/

/-- What separates strings: a blank. -/
theorem isBlank_space : isBlank space = true := rfl

theorem join_cons_cons (v w : Str) (values : List Str) :
    join (v :: w :: values) = v ++ space :: join (w :: values) := by
  simp [join, List.intercalate_cons_cons]

/-- Without blanks in them, the joined strings are split again. -/
theorem splitOnP_join (h : ∀ v ∈ values, ∀ b ∈ v, isBlank b = false) (hne : values ≠ []) :
    (join values).splitOnP isBlank = values := by
  induction values with
  | nil => exact absurd rfl hne
  | cons v values ih =>
    rw [List.forall_mem_cons] at h
    cases values with
    | nil => simp [join, List.splitOnP_eq_singleton h.1]
    | cons w values =>
      rw [join_cons_cons, List.splitOnP_append_cons_of_forall_mem h.1 space isBlank_space,
        ih h.2 (by simp)]

/-- Splitting loses the separators only. -/
theorem flatten_splitOnP (s : Str) :
    (s.splitOnP isBlank).flatten = s.filter fun b => !isBlank b := by
  induction s with
  | nil => rfl
  | cons b s ih =>
    rw [List.splitOnP_cons_eq_if_modifyHead]
    by_cases hb : isBlank b
    · simp [hb, ih]
    · obtain ⟨v, values, hsplit⟩ := List.exists_cons_of_ne_nil (List.splitOnP_ne_nil isBlank s)
      rw [hsplit] at ih ⊢
      simp [hb, ← ih]

theorem flatten_split (s : Str) : (split s).flatten = s.filter fun b => !isBlank b := by
  rw [← flatten_splitOnP, split]
  exact List.flatten_filter_ne_nil

/-- So does joining. -/
theorem filter_join (h : ∀ v ∈ values, ∀ b ∈ v, isBlank b = false) :
    (join values).filter (fun b => !isBlank b) = values.flatten := by
  induction values with
  | nil => rfl
  | cons v values ih =>
    rw [List.forall_mem_cons] at h
    have hv : v.filter (fun b => !isBlank b) = v := by
      rw [List.filter_eq_self]
      intro b hb
      simp [h.1 b hb]
    cases values with
    | nil => simp [join, hv]
    | cons w values =>
      rw [join_cons_cons, List.filter_append, hv, List.filter_cons_of_neg (by simp [isBlank_space]),
        ih h.2]
      rfl

/-! ## Trimming -/

/-- Neither end is white space. -/
structure Trimmed (s : Str) : Prop where
  head : ∀ b ∈ s.head?, isSpace b = false
  last : ∀ b ∈ s.getLast?, isSpace b = false

/-- Trimming leaves alone what has no white space at its ends. -/
theorem Trimmed.trim_eq {s : Str} (h : Trimmed s) : trim s = s := by
  have hhead : s.dropWhile isSpace = s := by
    cases s with
    | nil => rfl
    | cons b s => simp [h.head b rfl]
  rw [trim, hhead, List.rdropWhile_eq_self_iff]
  intro hne
  simp [h.last (s.getLast hne) (List.getLast?_eq_some_getLast hne)]

/-- An end that is no blank is trimmed away when it is white space. -/
theorem trimmed_of_filter_trim {s : Str} (hhead : ∀ b ∈ s.head?, isBlank b = false)
    (hlast : ∀ b ∈ s.getLast?, isBlank b = false)
    (h : (trim s).filter (fun b => !isBlank b) = s.filter fun b => !isBlank b) : Trimmed s := by
  have hlength := congrArg List.length h
  constructor
  · intro b hb
    obtain ⟨rest, rfl⟩ := List.head?_eq_some_iff.mp hb
    -- else trimming takes this byte, and it is one that the filter keeps: the count goes down
    by_contra hspace
    have hsub : (trim (b :: rest)).Sublist rest := by
      rw [trim, List.dropWhile_cons_of_pos (by simpa using hspace)]
      exact (List.rdropWhile_prefix isSpace _).sublist.trans (List.dropWhile_sublist _)
    have hle := (hsub.filter fun b => !isBlank b).length_le
    rw [hlength, List.filter_cons_of_pos (by simp [hhead b rfl]), List.length_cons] at hle
    omega
  · intro b hb
    obtain ⟨front, rfl⟩ := List.getLast?_eq_some_iff.mp hb
    -- the same at the other end, after the front is trimmed
    by_contra hspace
    have hb : isSpace b = true := by simpa using hspace
    have hsub : (trim (front ++ [b])).Sublist front := by
      rw [trim, List.dropWhile_append]
      split
      · simp [hb]
      · rw [List.rdropWhile_concat_pos _ _ _ hb]
        exact (List.rdropWhile_prefix isSpace _).sublist.trans (List.dropWhile_sublist _)
    have hle := (hsub.filter fun b => !isBlank b).length_le
    have hkept : isBlank b = false := hlast b (by simp)
    rw [hlength, List.filter_append, List.length_append, List.filter_cons_of_pos (by simp [hkept]),
      List.length_cons] at hle
    omega

/-! ## Reading what was written -/

/-- The strings of a list that a line can hold: no quotes, no ends of lines, and no white space at
the ends of the whole. -/
structure Carried (values : List Str) : Prop where
  clean : ∀ v ∈ values, ∀ b ∈ v, isQuote b = false ∧ b ≠ newline ∧ b ≠ 0
  trimmed : Trimmed (join values)

/-- What a string of a list is: not empty and without blanks. -/
def Word (v : Str) : Prop := v ≠ [] ∧ ∀ b ∈ v, isBlank b = false

/-- Only the list without words is written as the empty text. -/
theorem join_eq_nil (h : ∀ v ∈ values, Word v) : join values = [] ↔ values = [] := by
  constructor
  · intro hnil
    have hflat := filter_join fun v hv => (h v hv).2
    rw [hnil, List.filter_nil, eq_comm, List.flatten_eq_nil_iff] at hflat
    cases values with
    | nil => rfl
    | cons v values =>
      exact absurd (hflat v (List.mem_cons_self ..)) (h v (List.mem_cons_self ..)).1
  · rintro rfl
    rfl

/-- A joined text is made of the bytes of its words and of the spaces between them. -/
theorem mem_join {b : UInt8} (h : b ∈ join values) : b = space ∨ ∃ v ∈ values, b ∈ v := by
  induction values with
  | nil => cases h
  | cons v values ih =>
    cases values with
    | nil =>
      have hb : b ∈ v := by simpa [join] using h
      exact Or.inr ⟨v, by simp, hb⟩
    | cons w values =>
      rw [join_cons_cons, List.mem_append, List.mem_cons] at h
      rcases h with hb | rfl | hb
      · exact Or.inr ⟨v, by simp, hb⟩
      · exact Or.inl rfl
      · rcases ih hb with rfl | ⟨u, hu, hb⟩
        · exact Or.inl rfl
        · exact Or.inr ⟨u, List.mem_cons_of_mem _ hu, hb⟩

theorem Carried.join_clean (h : ∀ v ∈ values, ∀ b ∈ v, isQuote b = false ∧ b ≠ newline ∧ b ≠ 0) :
    ∀ b ∈ join values, isQuote b = false ∧ b ≠ newline ∧ b ≠ 0 := by
  intro b hb
  rcases mem_join hb with rfl | ⟨v, hv, hb⟩
  · decide
  · exact h v hv b hb

/-- Splitting a value loses its blanks and the white space at its ends, and no other byte. -/
theorem flatten_wordsOf (value : Str) :
    (wordsOf value).flatten = (trim value).filter fun b => !isBlank b := by
  unfold wordsOf
  dsimp only
  split
  · exact flatten_split _
  next hnil =>
    rw [not_not] at hnil
    rw [hnil]
    rfl

/-- Words that are joined come apart again, if trimming does not get at the first or the last one.
-/
theorem wordsOf_join (h : ∀ v ∈ values, Word v) (htrim : Trimmed (join values)) :
    wordsOf (join values) = values := by
  unfold wordsOf
  dsimp only
  rw [htrim.trim_eq]
  split
  next hne =>
    have hvalues : values ≠ [] := fun hnil => hne ((join_eq_nil h).mpr hnil)
    rw [split, splitOnP_join (fun v hv => (h v hv).2) hvalues, List.filter_eq_self]
    intro v hv
    simpa using (h v hv).1
  next hnil =>
    rw [not_not] at hnil
    exact ((join_eq_nil h).mp hnil).symm

/-- The ends of a joined list are those of its first and its last string. -/
theorem head?_join (h : ∀ v ∈ values, Word v) :
    (join values).head? = values.head?.bind List.head? := by
  cases values with
  | nil => rfl
  | cons v values =>
    obtain ⟨c, rest, rfl⟩ := List.exists_cons_of_ne_nil (h v (List.mem_cons_self ..)).1
    cases values with
    | nil => simp [join]
    | cons w values => simp [join_cons_cons]

/-- The last byte of a joined text is that of the last word. -/
theorem getLast?_join (h : ∀ v ∈ values, Word v) :
    (join values).getLast? = values.getLast?.bind List.getLast? := by
  induction values with
  | nil => rfl
  | cons v values ih =>
    rw [List.forall_mem_cons] at h
    cases values with
    | nil => simp [join]
    | cons w values =>
      have hne : join (w :: values) ≠ [] := fun hnil => by simpa using (join_eq_nil h.2).mp hnil
      obtain ⟨c, hc⟩ := Option.ne_none_iff_exists'.mp (mt List.getLast?_eq_none_iff.mp hne)
      rw [join_cons_cons, List.getLast?_append, List.getLast?_cons_cons, ← ih h.2,
        List.getLast?_cons, hc]
      rfl

/-- A joined list is trimmed when its first word has no white space in front and its last none
behind. -/
theorem trimmed_join_iff (h : ∀ v ∈ values, Word v) :
    Trimmed (join values) ↔
      (∀ v ∈ values.head?, ∀ b ∈ v.head?, isSpace b = false) ∧
        ∀ v ∈ values.getLast?, ∀ b ∈ v.getLast?, isSpace b = false := by
  constructor
  · intro ⟨hhead, hlast⟩
    rw [head?_join h] at hhead
    rw [getLast?_join h] at hlast
    exact ⟨fun v hv b hb => hhead b (Option.mem_bind_iff.mpr ⟨v, hv, hb⟩),
      fun v hv b hb => hlast b (Option.mem_bind_iff.mpr ⟨v, hv, hb⟩)⟩
  · intro ⟨hhead, hlast⟩
    constructor
    · rw [head?_join h]
      intro b hb
      obtain ⟨v, hv, hb⟩ := Option.mem_bind_iff.mp hb
      exact hhead v hv b hb
    · rw [getLast?_join h]
      intro b hb
      obtain ⟨v, hv, hb⟩ := Option.mem_bind_iff.mp hb
      exact hlast v hv b hb

/-- A list that is read back has no white space at its ends. -/
theorem trimmed_of_wordsOf (h : ∀ v ∈ values, Word v) (hread : wordsOf (join values) = values) :
    Trimmed (join values) := by
  have hflat := flatten_wordsOf (join values)
  rw [hread, ← filter_join fun v hv => (h v hv).2] at hflat
  -- the ends belong to strings without blanks
  refine trimmed_of_filter_trim ?_ ?_ hflat.symm
  · rw [head?_join h]
    intro b hb
    obtain ⟨v, hv, hb⟩ := Option.mem_bind_iff.mp hb
    exact (h v (List.mem_of_mem_head? hv)).2 b (List.mem_of_mem_head? hb)
  · rw [getLast?_join h]
    intro b hb
    obtain ⟨v, hv, hb⟩ := Option.mem_bind_iff.mp hb
    exact (h v (List.mem_of_getLast? hv)).2 b (List.mem_of_getLast? hb)

/-- What is read has no quotes and no ends of lines. -/
theorem of_getValues {file : Str} (h : getValues key (getlines file) = some values) :
    ∀ v ∈ values, ∀ b ∈ v, isQuote b = false ∧ b ≠ newline ∧ b ≠ 0 := by
  obtain ⟨value, hvalue, rfl⟩ := Option.map_eq_some_iff.mp h
  obtain ⟨line, hline, hmatch⟩ := List.exists_of_findSome?_eq_some hvalue
  obtain ⟨hquote, hsub⟩ := of_matchValue hmatch
  intro v hv b hb
  have hmem : b ∈ value := by
    have hflat : b ∈ (wordsOf value).flatten := List.mem_flatten.mpr ⟨v, hv, hb⟩
    rw [flatten_wordsOf] at hflat
    have htrim := (List.mem_filter.mp hflat).1
    exact (List.dropWhile_sublist _).subset ((List.rdropWhile_prefix isSpace _).subset htrim)
  refine ⟨hquote b hmem, ?_, ?_⟩
  · rintro rfl
    exact newline_not_mem_of_mem_getlines hline (hsub hmem)
  · rintro rfl
    exact nul_not_mem_of_mem_getlines hline (hsub hmem)

/-- The strings of a list that is read are words. -/
theorem word_of_getValues (h : getValues key lines = some values) : ∀ v ∈ values, Word v := by
  obtain ⟨value, -, rfl⟩ := Option.map_eq_some_iff.mp h
  intro v hv
  unfold wordsOf at hv
  dsimp only at hv
  split at hv
  · obtain ⟨hv, hne⟩ := List.mem_filter.mp hv
    refine ⟨by simpa using hne, fun b hb => ?_⟩
    have hflat : b ∈ ((trim value).splitOnP isBlank).flatten := List.mem_flatten.mpr ⟨v, hv, hb⟩
    rw [flatten_splitOnP] at hflat
    simpa using (List.mem_filter.mp hflat).2
  · cases hv

theorem not_blank_of_not_space {b : UInt8} (h : isSpace b = false) : isBlank b = false := by
  simp only [isSpace, decide_eq_false_iff_not, not_or] at h
  simp only [isBlank, decide_eq_false_iff_not, not_or]
  refine ⟨h.1, ?_⟩
  rintro rfl
  exact h.2 (by decide)

/-- The first string that is read does not begin with white space. -/
theorem head_of_getValues (h : getValues key lines = some values) :
    ∀ v ∈ values.head?, ∀ b ∈ v.head?, isSpace b = false := by
  have hwords := word_of_getValues h
  obtain ⟨value, -, rfl⟩ := Option.map_eq_some_iff.mp h
  intro v hv b hb
  obtain ⟨words, hwordsOf⟩ := List.head?_eq_some_iff.mp hv
  obtain ⟨rest, rfl⟩ := List.head?_eq_some_iff.mp hb
  have hflat := flatten_wordsOf value
  rw [hwordsOf, List.flatten_cons, List.cons_append] at hflat
  -- the first byte of the trimmed value is no blank either, so it is this one
  cases htrim : trim value with
  | nil =>
    rw [htrim] at hflat
    cases hflat
  | cons c t =>
    have hc : isSpace c = false := by
      have hprefix : trim value <+: value.dropWhile isSpace := List.rdropWhile_prefix isSpace _
      rw [htrim] at hprefix
      obtain ⟨t', ht'⟩ := hprefix
      have hnot := List.head?_dropWhile_not isSpace value
      rw [← ht'] at hnot
      simpa using hnot
    rw [htrim, List.filter_cons_of_pos (by simp [not_blank_of_not_space hc])] at hflat
    rw [(List.cons.inj hflat).1]
    exact hc

/-- The file with a new list: one line is replaced, if the list can be carried. -/
theorem getlines_setValues (hkey : ValidKey key) (h : OneLine key front line back)
    (hlines : ∀ l ∈ front ++ back, newline ∉ l ∧ 0 ∉ l)
    (hclean : ∀ v ∈ values, ∀ b ∈ v, isQuote b = false ∧ b ≠ newline ∧ b ≠ 0) :
    getlines (Sysconfig.save (setValues key values (front ++ line :: back))) =
        front ++ valueLine key (join values) :: back ∧
      matchValue key (valueLine key (join values)) = some (join values) := by
  have hjoin := Carried.join_clean hclean
  have hnl : newline ∉ join values := fun hmem => (hjoin _ hmem).2.1 rfl
  have hnul : 0 ∉ join values := fun hmem => (hjoin _ hmem).2.2 rfl
  constructor
  · rw [setValues, h.setValue, getlines_save]
    intro l hl
    simp only [List.mem_append, List.mem_cons] at hl hlines
    rcases hl with hl | rfl | hl
    · exact hlines l (Or.inl hl)
    · exact valueLine_clean hkey hnl hnul
    · exact hlines l (Or.inr hl)
  · exact matchValue_valueLine hkey hnul fun b hb => (hjoin b hb).1

/-- A list of words that is written is read back exactly when a line can hold it. -/
theorem getValues_setValues_iff (hkey : ValidKey key) (h : OneLine key front line back)
    (hlines : ∀ l ∈ front ++ back, newline ∉ l ∧ 0 ∉ l) (hwords : ∀ v ∈ values, Word v) :
    (getValues key (getlines (Sysconfig.save
      (setValues key values (front ++ line :: back))))).getD [] =
      values ↔ Carried values := by
  -- with clean words the line is read back as the words of what was joined
  have hread : (∀ v ∈ values, ∀ b ∈ v, isQuote b = false ∧ b ≠ newline ∧ b ≠ 0) →
      getValues key (getlines (Sysconfig.save (setValues key values (front ++ line :: back)))) =
        some (wordsOf (join values)) := by
    intro hclean
    obtain ⟨hfile, hmatch⟩ := getlines_setValues hkey h hlines hclean
    have hone : OneLine key front (valueLine key (join values)) back :=
      ⟨by rw [hmatch]; rfl, h.2⟩
    rw [hfile, getValues, hone.getValue, hmatch]
    rfl
  constructor
  · intro hsame
    -- what is read is clean, whatever was written
    have hclean : ∀ v ∈ values, ∀ b ∈ v, isQuote b = false ∧ b ≠ newline ∧ b ≠ 0 := by
      cases hget : getValues key
          (getlines (Sysconfig.save (setValues key values (front ++ line :: back)))) with
      | none =>
        rw [hget] at hsame
        rw [← hsame]
        nofun
      | some read =>
        rw [hget] at hsame
        rw [← hsame]
        exact of_getValues hget
    rw [hread hclean] at hsame
    exact ⟨hclean, trimmed_of_wordsOf hwords hsame⟩
  · intro hcarried
    rw [hread hcarried.clean]
    exact wordsOf_join hwords hcarried.trimmed

end Sysconfig

end Snapper
