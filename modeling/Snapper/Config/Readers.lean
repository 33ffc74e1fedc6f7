import Snapper.Config.Sysconfig

/-!
# Reading config files

The values of a config file are read in two ways: one key at a time, and all at once into a
map.  Setting a value changes one line.

## Main results

- `matchAny_iff`: both regular expressions read the same of a line
- `readers_agree_iff`: when both ways give the same value
- `set_get_laws`: what setting a value does to values and lines
-/

namespace Snapper.Sysconfig

open General

variable {key key' value : Str} {line : Str} {lines : List Str}

/-! ## Keys -/

/-- Made of digits, capital letters and underscores. -/
def PlainKey (key : Str) : Prop := ∀ c ∈ key, isKeyChar c = true

/-- What the characters of a key are not. -/
theorem of_isKeyChar {c : UInt8} (h : isKeyChar c = true) : isBlank c = false ∧ c ≠ 0 := by
  constructor
  · cases hblank : isBlank c with
    | false => rfl
    | true =>
      have hc : c = 32 ∨ c = 9 := by simpa [isBlank] using hblank
      obtain rfl | rfl := hc
      · revert h
        decide
      · revert h
        decide
  · intro h0
    subst h0
    revert h
    decide

/-- A line behind its blanks, as the regular expressions see it -/
def textOf (line : Str) : Str := (cstr line).dropWhile isBlank

theorem matchValue_eq (key line : Str) :
    matchValue key line =
      if key ++ str "=" <+: textOf line then quotedValue ((textOf line).drop (key.length + 1))
      else none := rfl

/-- A plain key is all that comes before its equal sign. -/
theorem takeWhile_key (h : PlainKey key) (rest : Str) :
    (key ++ str "=" ++ rest).takeWhile isKeyChar = key := by
  have heq : isKeyChar 61 = false := by decide
  have hsign : str "=" = [61] := rfl
  rw [List.append_assoc, List.takeWhile_append_of_pos h, hsign]
  simp [heq]

/-- Before the equal sign of a line there is no other key. -/
theorem key_of_match (h : PlainKey key) (hmatch : (matchValue key line).isSome = true) :
    (textOf line).takeWhile isKeyChar = key := by
  rw [matchValue_eq] at hmatch
  split at hmatch
  · next hsign =>
    obtain ⟨rest, hrest⟩ := hsign
    rw [← hrest]
    exact takeWhile_key h rest
  · cases hmatch

/-- A line is for one plain key only. -/
theorem not_match_of_match (h : PlainKey key) (h' : PlainKey key') (hne : key ≠ key')
    (hmatch : (matchValue key line).isSome = true) : matchValue key' line = none := by
  cases hother : matchValue key' line with
  | none => rfl
  | some value =>
    have hkey := key_of_match h hmatch
    have hkey' := key_of_match h' (Option.isSome_iff_exists.mpr ⟨value, hother⟩)
    exact absurd (hkey.symm.trans hkey') hne

/-! ## All values -/

/-- The expression for any key reads what the one for the key reads. -/
theorem matchAny_iff (h : PlainKey key) (hne : key ≠ []) (line value : Str) :
    matchAny line = some (key, value) ↔ matchValue key line = some value := by
  constructor
  · intro hany
    unfold matchAny at hany
    dsimp only at hany
    split at hany
    · next hcond =>
      obtain ⟨value', hvalue, hpair⟩ := Option.map_eq_some_iff.mp hany
      obtain ⟨hkey, rfl⟩ := Prod.mk.inj hpair
      rw [hkey] at hcond hvalue
      rw [matchValue_eq, textOf, if_pos hcond.2]
      exact hvalue
    · cases hany
  · intro hmatch
    -- what stands before the sign is all of the key, as a plain key is taken to its end
    have hkey := key_of_match h (Option.isSome_iff_exists.mpr ⟨value, hmatch⟩)
    rw [matchValue_eq] at hmatch
    split at hmatch
    · next hsign =>
      unfold matchAny
      dsimp only
      rw [textOf] at hkey hsign hmatch
      rw [hkey, if_pos ⟨hne, hsign⟩, hmatch]
      rfl
    · cases hmatch

/-- The key of a value is not empty. -/
theorem ne_nil_of_matchAny (h : matchAny line = some (key, value)) : key ≠ [] := by
  unfold matchAny at h
  dsimp only at h
  split at h
  · next hcond =>
    obtain ⟨_, -, hpair⟩ := Option.map_eq_some_iff.mp h
    exact (Prod.mk.inj hpair).1 ▸ hcond.1
  · cases h

/-- One line of the loop: the map has the value of the line for its key. -/
theorem find_insertLine (h : PlainKey key) (hne : key ≠ []) (ret : StrMap) (line : Str) :
    (insertLine ret line).find key = (matchValue key line).or (ret.find key) := by
  unfold insertLine
  cases hany : matchAny line with
  | none =>
    -- a line that matches for one key matches for any
    have hnone : matchValue key line = none := by
      cases hmatch : matchValue key line with
      | none => rfl
      | some value =>
        rw [(matchAny_iff h hne line value).mpr hmatch] at hany
        cases hany
    rw [hnone]
    rfl
  | some entry =>
    obtain ⟨key', value⟩ := entry
    show (ret.set key' value).find key = _
    rw [SortedMap.find_set]
    -- the key of the line is this key or another one
    by_cases hkey : key = key'
    · subst hkey
      rw [if_pos rfl, (matchAny_iff h hne line value).mp hany]
      rfl
    · rw [if_neg hkey]
      have hnone : matchValue key line = none := by
        cases hmatch : matchValue key line with
        | none => rfl
        | some value' =>
          rw [(matchAny_iff h hne line value').mpr hmatch] at hany
          exact absurd (Prod.mk.inj (Option.some.inj hany)).1 hkey
      rw [hnone]
      rfl

/-- The map has the value of the last line that matches. -/
theorem find_getAllValues (h : PlainKey key) (hne : key ≠ []) (lines : List Str) :
    (getAllValues lines).find key = lines.reverse.findSome? (matchValue key) := by
  have hloop (ret : StrMap) : (lines.foldl insertLine ret).find key =
      (lines.reverse.findSome? (matchValue key)).or (ret.find key) := by
    induction lines generalizing ret with
    | nil => rfl
    | cons line lines ih =>
      rw [List.foldl_cons, ih, find_insertLine h hne, List.reverse_cons, List.findSome?_append,
        Option.or_assoc]
      congr 1
      cases hmatch : matchValue key line <;> simp [hmatch]
  rw [getAllValues, hloop]
  exact Option.or_none

/-- No line has the empty key, as the expression wants a character in front of the sign. -/
theorem find_getAllValues_nil (lines : List Str) : (getAllValues lines).find [] = none := by
  have hloop (ret : StrMap) (h : ret.find [] = none) :
      (lines.foldl insertLine ret).find [] = none := by
    induction lines generalizing ret with
    | nil => exact h
    | cons line lines ih =>
      refine ih _ ?_
      unfold insertLine
      cases hany : matchAny line with
      | none => exact h
      | some entry =>
        show (ret.set entry.1 entry.2).find [] = none
        rw [SortedMap.find_set, if_neg (Ne.symm (ne_nil_of_matchAny hany))]
        exact h
  exact hloop .empty rfl

/-- The first and the last line with a value for the key have the same value. -/
def SameEnds (key : Str) (lines : List Str) : Prop :=
  ∀ before line between line' after,
    lines = before ++ line :: (between ++ line' :: after) →
    (∀ l ∈ before, matchValue key l = none) → (∀ l ∈ after, matchValue key l = none) →
    (matchValue key line).isSome = true → (matchValue key line').isSome = true →
    matchValue key line = matchValue key line'

/-- The value of the first line against the value of the last one. -/
theorem first_eq_last_iff (key : Str) (lines : List Str) :
    lines.findSome? (matchValue key) = lines.reverse.findSome? (matchValue key) ↔
      SameEnds key lines := by
  constructor
  · intro hsame before line between line' after hsplit hbefore hafter hline hline'
    -- the two lines are the first match and the last
    obtain ⟨value, hvalue⟩ := Option.isSome_iff_exists.mp hline
    obtain ⟨value', hvalue'⟩ := Option.isSome_iff_exists.mp hline'
    have hfirst : lines.findSome? (matchValue key) = some value :=
      List.findSome?_eq_some_iff.mpr ⟨before, line, _, hsplit, hvalue, hbefore⟩
    have hlast : lines.reverse.findSome? (matchValue key) = some value' := by
      refine List.findSome?_eq_some_iff.mpr ⟨after.reverse, line',
        between.reverse ++ line :: before.reverse, by simp [hsplit], hvalue', fun l hl => ?_⟩
      exact hafter l (List.mem_reverse.mp hl)
    rw [hfirst, hlast] at hsame
    rw [hvalue, hvalue', hsame]
  · intro h
    cases hfirst : lines.findSome? (matchValue key) with
    | none =>
      refine (List.findSome?_eq_none_iff.mpr fun l hl => ?_).symm
      exact List.findSome?_eq_none_iff.mp hfirst l (List.mem_reverse.mp hl)
    | some value =>
      obtain ⟨before, line, rest, rfl, hvalue, hbefore⟩ := List.findSome?_eq_some_iff.mp hfirst
      rw [List.reverse_append, List.reverse_cons, List.append_assoc, List.findSome?_append]
      -- one match is both the first and the last
      cases hlast : rest.reverse.findSome? (matchValue key) with
      | none => simp [hvalue]
      | some value' =>
        obtain ⟨after, line', between, hrest, hvalue', hafter⟩ :=
          List.findSome?_eq_some_iff.mp hlast
        have hsplit : rest = between.reverse ++ line' :: after.reverse := by
          rw [← List.reverse_reverse rest, hrest]
          simp
        have hsame := h before line between.reverse line' after.reverse (by rw [hsplit]) hbefore
          (fun l hl => hafter l (List.mem_reverse.mp hl)) (by rw [hvalue]; rfl)
          (by rw [hvalue']; rfl)
        rw [hvalue, hvalue'] at hsame
        rw [← hsame]
        rfl

/-- `getValue` and `getAllValues` agree on a key if and only if the first and the last line for
it have the same value.  The empty key is never in the map. -/
theorem readers_agree_iff (key : Str) (lines : List Str) (h : PlainKey key) :
    getValue key lines = (getAllValues lines).find key ↔
      SameEnds key lines ∧ (key = [] → ∀ line ∈ lines, matchValue key line = none) := by
  by_cases hne : key = []
  · subst hne
    rw [find_getAllValues_nil, getValue, List.findSome?_eq_none_iff]
    constructor
    · intro hnone
      refine ⟨fun before line between line' after hsplit _ _ hline _ => ?_, fun _ => hnone⟩
      have hmem : line ∈ lines := by
        rw [hsplit]
        exact List.mem_append_right _ (List.mem_cons_self ..)
      rw [hnone line hmem] at hline
      cases hline
    · exact fun hcond => hcond.2 rfl
  · rw [find_getAllValues h hne, getValue, first_eq_last_iff]
    constructor
    · exact fun hends => ⟨hends, fun hnil => absurd hnil hne⟩
    · exact fun hcond => hcond.1

theorem plain_subvolume : PlainKey (str "SUBVOLUME") := forall_mem_of_all (by decide)

/-- A key with its value in quotes and another key. -/
theorem readers_agree_subvolume :
    getValue (str "SUBVOLUME") [str "SUBVOLUME=\"/\"", str "FSTYPE=btrfs"] =
        (getAllValues [str "SUBVOLUME=\"/\"", str "FSTYPE=btrfs"]).find (str "SUBVOLUME") ↔
      SameEnds (str "SUBVOLUME") [str "SUBVOLUME=\"/\"", str "FSTYPE=btrfs"] ∧
        (str "SUBVOLUME" = [] → ∀ line ∈ [str "SUBVOLUME=\"/\"", str "FSTYPE=btrfs"],
          matchValue (str "SUBVOLUME") line = none) :=
  readers_agree_iff _ _ plain_subvolume

/-- With two lines for a key, one reader takes the first and one the last. -/
theorem readers_differ :
    getValue (str "SUBVOLUME") [str "SUBVOLUME=\"/a\"", str "SUBVOLUME=\"/b\""] = some (str "/a") ∧
      (getAllValues [str "SUBVOLUME=\"/a\"", str "SUBVOLUME=\"/b\""]).find (str "SUBVOLUME") =
        some (str "/b") := by
  constructor
  · decide
  · rw [find_getAllValues plain_subvolume (by decide)]
    decide

/-! ## Setting values -/

variable {front back : List Str} {values : List Str}

/-- Where `setValue` puts its line: in the place of the first line that matches, or behind all
lines if there is none. -/
inductive Place (key : Str) (lines front back : List Str) : Prop where
  | replaced (line : Str) (hlines : lines = front ++ line :: back)
      (hmatch : (matchValue key line).isSome = true)
  | appended (hlines : lines = front) (hback : back = [])

/-- The line is set at its place, whatever the value is. -/
theorem exists_place (key : Str) (lines : List Str) :
    ∃ front back, Place key lines front back ∧ (∀ l ∈ front, matchValue key l = none) ∧
      ∀ value, setValue key value lines = front ++ valueLine key value :: back := by
  -- the first line that matches, or the end
  induction lines with
  | nil => exact ⟨[], [], .appended rfl rfl, by simp, fun value => rfl⟩
  | cons line lines ih =>
    cases hmatch : matchValue key line with
    | some value' =>
      have hsome : (matchValue key line).isSome = true := by rw [hmatch]; rfl
      refine ⟨[], lines, .replaced line rfl hsome, by simp, fun value => ?_⟩
      rw [setValue, if_pos hsome]
      rfl
    | none =>
      obtain ⟨front, back, hplace, hfront, hset⟩ := ih
      have hnone : ¬(matchValue key line).isSome = true := by rw [hmatch]; simp
      refine ⟨line :: front, back, ?_, List.forall_mem_cons.mpr ⟨hmatch, hfront⟩, fun value => ?_⟩
      · cases hplace with
        | replaced line' hlines hmatch' =>
          exact .replaced line' (congrArg (line :: ·) hlines) hmatch'
        | appended hlines hback => exact .appended (congrArg (line :: ·) hlines) hback
      · rw [setValue, if_neg hnone, hset]
        rfl

/-- A line that matches, behind lines that do not. -/
theorem setValue_at (hfront : ∀ l ∈ front, matchValue key l = none)
    (hmatch : (matchValue key line).isSome = true) (value : Str) :
    setValue key value (front ++ line :: back) = front ++ valueLine key value :: back := by
  induction front with
  | nil => exact if_pos hmatch
  | cons l front ih =>
    obtain ⟨hl, hrest⟩ := List.forall_mem_cons.mp hfront
    have hnone : ¬(matchValue key l).isSome = true := by rw [hl]; simp
    rw [List.cons_append, setValue, if_neg hnone, ih hrest]
    rfl

theorem getValue_at (hfront : ∀ l ∈ front, matchValue key l = none)
    (hmatch : matchValue key line = some value) :
    getValue key (front ++ line :: back) = some value :=
  List.findSome?_eq_some_iff.mpr ⟨front, line, back, rfl, hmatch, hfront⟩

/-- Lines in the place of each other that do not match make no difference. -/
theorem getValue_skip (hmatch : matchValue key line = none) :
    getValue key (front ++ line :: back) = getValue key (front ++ back) := by
  rw [getValue, getValue, List.findSome?_append, List.findSome?_append, List.findSome?_cons, hmatch]

theorem match_plain (h : PlainKey key) (hnul : 0 ∉ value)
    (hquote : ∀ b ∈ value, isQuote b = false) :
    matchValue key (valueLine key value) = some value :=
  matchValue_valueLine_of (fun b hb => (of_isKeyChar (h b hb)).1)
    (fun h0 => (of_isKeyChar (h 0 h0)).2 rfl) hnul hquote

theorem getValue_setValue (h : PlainKey key) (hnul : 0 ∉ value)
    (hquote : ∀ b ∈ value, isQuote b = false) (lines : List Str) :
    getValue key (setValue key value lines) = some value := by
  obtain ⟨front, back, -, hfront, hset⟩ := exists_place key lines
  rw [hset]
  exact getValue_at hfront (match_plain h hnul hquote)

/-- Setting one plain key leaves the values of all others. -/
theorem getValue_setValue_ne (h : PlainKey key) (h' : PlainKey key') (hne : key ≠ key')
    (hnul : 0 ∉ value) (hquote : ∀ b ∈ value, isQuote b = false) (lines : List Str) :
    getValue key' (setValue key value lines) = getValue key' lines := by
  obtain ⟨front, back, hplace, -, hset⟩ := exists_place key lines
  have hvalue : (matchValue key (valueLine key value)).isSome = true := by
    rw [match_plain h hnul hquote]
    rfl
  rw [hset, getValue_skip (not_match_of_match h h' hne hvalue)]
  cases hplace with
  | replaced line hlines hmatch =>
    rw [hlines, getValue_skip (not_match_of_match h h' hne hmatch)]
  | appended hlines hback => rw [hlines, hback, List.append_nil]

/-! ### Lists -/

/-- A string that a list in a config file can have. -/
structure PlainWord (v : Str) : Prop where
  ne_nil : v ≠ []
  no_space : ∀ b ∈ v, isSpace b = false
  no_quote : ∀ b ∈ v, isQuote b = false
  no_nul : 0 ∉ v

/-- A plain word is a word that the list can hold. -/
theorem PlainWord.word {v : Str} (h : PlainWord v) : Word v := by
  refine ⟨h.ne_nil, fun b hb => ?_⟩
  have hspace := h.no_space b hb
  simp only [isSpace, decide_eq_false_iff_not, not_or] at hspace
  simp only [isBlank, decide_eq_false_iff_not, not_or]
  refine ⟨hspace.1, fun htab => hspace.2 ?_⟩
  subst htab
  decide

/-- A list of plain words is read as it was set. -/
theorem getValues_setValues (h : PlainKey key) (hwords : ∀ v ∈ values, PlainWord v)
    (lines : List Str) : getValues key (setValues key values lines) = some values := by
  have hword : ∀ v ∈ values, Word v := fun v hv => (hwords v hv).word
  -- plain words have no white space that trimming could take
  have htrimmed : Trimmed (join values) := by
    refine (trimmed_join_iff hword).mpr ⟨fun v hv b hb => ?_, fun v hv b hb => ?_⟩
    · exact (hwords v (List.mem_of_mem_head? hv)).no_space b (List.mem_of_mem_head? hb)
    · exact (hwords v (List.mem_of_getLast? hv)).no_space b (List.mem_of_getLast? hb)
  have hnul : 0 ∉ join values := by
    intro h0
    obtain hspace | hmem := mem_join h0
    · cases hspace
    · obtain ⟨v, hv, hv0⟩ := hmem
      exact (hwords v hv).no_nul hv0
  have hquote : ∀ b ∈ join values, isQuote b = false := by
    intro b hb
    obtain rfl | hmem := mem_join hb
    · rfl
    · obtain ⟨v, hv, hb⟩ := hmem
      exact (hwords v hv).no_quote b hb
  rw [getValues, setValues, getValue_setValue h hnul hquote, Option.map_some,
    wordsOf_join hword htrimmed]

/-! ### The laws -/

/-- For all lines: a value that was set is read, other keys keep theirs, only the first line
for the key is changed or one is appended, setting the key again changes the same line, and a
list that was set is read. -/
theorem set_get_laws (lines : List Str) (key key' value : Str) (h : PlainKey key)
    (h' : PlainKey key') (hne : key ≠ key') (hquote : ∀ b ∈ value, isQuote b = false)
    (hnul : 0 ∉ value) :
    getValue key (setValue key value lines) = some value ∧
    getValue key' (setValue key value lines) = getValue key' lines ∧
    (∃ front back, Place key lines front back ∧ (∀ l ∈ front, matchValue key l = none) ∧
      setValue key value lines = front ++ valueLine key value :: back ∧
      ∀ value', setValue key value' (setValue key value lines) =
        front ++ valueLine key value' :: back) ∧
    ∀ values, (∀ v ∈ values, PlainWord v) →
      getValues key (setValues key values lines) = some values := by
  refine ⟨getValue_setValue h hnul hquote lines, getValue_setValue_ne h h' hne hnul hquote lines,
    ?_, fun values hwords => getValues_setValues h hwords lines⟩
  -- setting the key again finds the line that was written
  obtain ⟨front, back, hplace, hfront, hset⟩ := exists_place key lines
  refine ⟨front, back, hplace, hfront, hset value, fun value' => ?_⟩
  have hmatch : (matchValue key (valueLine key value)).isSome = true := by
    rw [match_plain h hnul hquote]
    rfl
  rw [hset value]
  exact setValue_at hfront hmatch value'

theorem plain_fstype : PlainKey (str "FSTYPE") := forall_mem_of_all (by decide)

/-- The subvolume is set in a file that has a line for the file system only. -/
theorem set_get_laws_subvolume :
    getValue (str "SUBVOLUME") (setValue (str "SUBVOLUME") (str "/") [str "FSTYPE=btrfs"]) =
        some (str "/") ∧
      getValue (str "FSTYPE") (setValue (str "SUBVOLUME") (str "/") [str "FSTYPE=btrfs"]) =
        getValue (str "FSTYPE") [str "FSTYPE=btrfs"] :=
  have hlaws := set_get_laws [str "FSTYPE=btrfs"] (str "SUBVOLUME") (str "FSTYPE") (str "/")
    plain_subvolume plain_fstype (by decide) (forall_mem_of_all (by decide)) (by decide)
  ⟨hlaws.1, hlaws.2.1⟩

/-- A value with a NUL is not read: the line ends there for the regular expression. -/
theorem nul_not_read :
    (∀ b ∈ [(0 : UInt8)], isQuote b = false ∧ b ≠ newline) ∧ PlainKey (str "SUBVOLUME") ∧
      getValue (str "SUBVOLUME") (setValue (str "SUBVOLUME") [0] []) = none :=
  ⟨forall_mem_of_all (by decide), plain_subvolume, by decide⟩

end Snapper.Sysconfig
