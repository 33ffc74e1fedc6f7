import Snapper.Config.Sysconfig
import Snapper.Server.Snapshots

/-!
# Userdata as text

The client shows userdata as `key=value, key=value` and reads it from the command line: it
splits at commas, cuts each piece at its first equal sign and trims both parts.  What is read
changes the userdata that was there; a key without a value is erased.

## Main results

- `split_show`: the pieces of what is shown
- `read_show`: what is shown is read back
-/

namespace Snapper.Client

open General

/-- `','` -/
def comma : UInt8 := 44

/-- `'='` -/
def equalSign : UInt8 := 61

/-- Of several separators in a row one is left. -/
def squeeze (c : UInt8) : Str → Str
  | [] => []
  | b :: s => if b = c ∧ s.head? = some c then squeeze c s else b :: squeeze c s

/-- `boost::split` with `token_compress_on`.  Separators at an end make an empty piece there, and
the empty text is one piece. -/
def splitCompress (c : UInt8) (s : Str) : List Str := (squeeze c s).splitOn c

/-- The body of the loop of `read_userdata`, `none` for `exit` -/
def readEntry (userdata : StrMap) (piece : Str) : Option StrMap :=
  if equalSign ∉ piece then none
  else
    let key := Sysconfig.trim (piece.takeWhile (· ≠ equalSign))
    let value := Sysconfig.trim (piece.dropWhile (· ≠ equalSign)).tail
    if key = [] then none
    else if value = [] then some (userdata.erase key)
    else some (userdata.set key value)

/-- `read_userdata` -/
def readUserdata (s : Str) (old : StrMap) : Option StrMap :=
  let tmp := splitCompress comma s
  if tmp = [] then none else tmp.foldlM readEntry old

/-- `it->first + "=" + it->second` -/
def showEntry (entry : Str × Str) : Str := entry.1 ++ str "=" ++ entry.2

/-- `show_userdata` -/
def showUserdata (userdata : StrMap) : Str :=
  userdata.entries.foldl (fun s entry =>
    (if s = [] then s else s ++ str ", ") ++ showEntry entry) []

/-! ## Splitting -/

theorem squeeze_of_not_mem {c : UInt8} {s : Str} (h : c ∉ s) : squeeze c s = s := by
  induction s with
  | nil => rfl
  | cons b s ih =>
    rw [List.mem_cons, not_or] at h
    have hb : ¬(b = c ∧ s.head? = some c) := fun hcond => h.1 hcond.1.symm
    rw [squeeze, if_neg hb, ih h.2]

/-- A piece and one separator. -/
theorem squeeze_piece {c : UInt8} {s t : Str} (h : c ∉ s) (ht : t.head? ≠ some c) :
    squeeze c (s ++ c :: t) = s ++ c :: squeeze c t := by
  induction s with
  | nil =>
    have hc : ¬(c = c ∧ t.head? = some c) := fun hcond => ht hcond.2
    rw [List.nil_append, squeeze, if_neg hc]
    rfl
  | cons b s ih =>
    rw [List.mem_cons, not_or] at h
    have hb : ¬(b = c ∧ (s ++ c :: t).head? = some c) := fun hcond => h.1 hcond.1.symm
    rw [List.cons_append, squeeze, if_neg hb, ih h.2]
    rfl

theorem split_last {c : UInt8} {s : Str} (h : c ∉ s) : splitCompress c s = [s] := by
  rw [splitCompress, squeeze_of_not_mem h, List.splitOn_eq_singleton h]

theorem split_piece {c : UInt8} {s t : Str} (h : c ∉ s) (ht : t.head? ≠ some c) :
    splitCompress c (s ++ c :: t) = s :: splitCompress c t := by
  rw [splitCompress, squeeze_piece h ht, List.splitOn_append_cons_self_of_not_mem h]
  rfl

/-- Pieces with comma and blank between them. -/
theorem split_pieces {piece : Str} {pieces : List Str} (h : ∀ p ∈ piece :: pieces, comma ∉ p) :
    splitCompress comma (piece ++ pieces.flatMap fun p => str ", " ++ p) =
      piece :: pieces.map (space :: ·) := by
  have hsep : str ", " = [comma, space] := rfl
  have hblank (p : Str) (hp : comma ∉ p) : comma ∉ space :: p := by
    rw [List.mem_cons, not_or]
    exact ⟨by decide, hp⟩
  -- the piece in front changes in the induction: it is the next one with its blank
  suffices hall : ∀ piece, comma ∉ piece → splitCompress comma
      (piece ++ pieces.flatMap fun p => str ", " ++ p) = piece :: pieces.map (space :: ·) from
    hall piece (h piece (List.mem_cons_self ..))
  have hpieces := (List.forall_mem_cons.mp h).2
  clear h
  induction pieces with
  | nil =>
    intro piece hpiece
    rw [List.flatMap_nil, List.append_nil, split_last hpiece]
    rfl
  | cons p pieces ih =>
    intro piece hpiece
    obtain ⟨hp, hrest⟩ := List.forall_mem_cons.mp hpieces
    rw [List.flatMap_cons, hsep]
    show splitCompress comma (piece ++ comma :: (space :: p ++ _)) = _
    rw [split_piece hpiece (by simp [space, comma]), ← hsep, ih hrest (space :: p) (hblank p hp)]
    rfl

/-! ## Entries -/

/-- What the server accepts, with keys and values that neither are empty nor have white space at
an end. -/
structure Shown (userdata : StrMap) : Prop where
  valid : validUserdata userdata = true
  value_ne_nil : ∀ e ∈ userdata.entries, e.2 ≠ []
  key_trimmed : ∀ e ∈ userdata.entries, Sysconfig.Trimmed e.1
  value_trimmed : ∀ e ∈ userdata.entries, Sysconfig.Trimmed e.2

/-- An entry that is read as it was written. -/
structure Plain (entry : Str × Str) : Prop where
  key_ne_nil : entry.1 ≠ []
  value_ne_nil : entry.2 ≠ []
  key_trimmed : Sysconfig.Trimmed entry.1
  value_trimmed : Sysconfig.Trimmed entry.2
  key_sign : equalSign ∉ entry.1
  no_comma : comma ∉ showEntry entry

theorem not_mem_of_hasSeparator {s : Str} (h : hasSeparator s = false) :
    comma ∉ s ∧ equalSign ∉ s := by
  simp only [hasSeparator, List.any_eq_false, decide_eq_true_eq, not_or] at h
  exact ⟨fun hmem => (h comma hmem).1 rfl, fun hmem => (h equalSign hmem).2 rfl⟩

/-- Entries that can be told apart in the text are plain: none has a comma, a sign in its key or a
blank at an end. -/
theorem Shown.plain {userdata : StrMap} (h : Shown userdata) :
    ∀ e ∈ userdata.entries, Plain e := by
  intro e he
  have hvalid := List.all_eq_true.mp h.valid e he
  simp only [Bool.and_eq_true, Bool.not_eq_true', List.isEmpty_eq_false_iff] at hvalid
  obtain ⟨⟨hkey, hkeySep⟩, hvalueSep⟩ := hvalid
  obtain ⟨hkeyComma, hkeySign⟩ := not_mem_of_hasSeparator hkeySep
  obtain ⟨hvalueComma, -⟩ := not_mem_of_hasSeparator hvalueSep
  have hsign : comma ∉ str "=" := by decide
  refine ⟨hkey, h.value_ne_nil e he, h.key_trimmed e he, h.value_trimmed e he, hkeySign, ?_⟩
  simp only [showEntry, List.mem_append, not_or]
  exact ⟨⟨hkeyComma, hsign⟩, hvalueComma⟩

theorem trim_space (s : Str) : Sysconfig.trim (space :: s) = Sysconfig.trim s := by
  rw [Sysconfig.trim, List.dropWhile_cons_of_pos (show isSpace space = true by decide)]
  rfl

/-- A piece that is an entry, with the blank in front or without. -/
theorem readEntry_show {entry : Str × Str} (h : Plain entry) (userdata : StrMap) :
    readEntry userdata (showEntry entry) = some (userdata.set entry.1 entry.2) ∧
      readEntry userdata (space :: showEntry entry) = some (userdata.set entry.1 entry.2) := by
  have hall : ∀ b ∈ entry.1, decide (b ≠ equalSign) = true := by
    intro b hb
    exact decide_eq_true fun heq => h.key_sign (heq ▸ hb)
  -- the sign that parts key and value is the first one, as the key has none
  have hshow : showEntry entry = entry.1 ++ equalSign :: entry.2 := by
    have hsign : str "=" = [equalSign] := rfl
    simp [showEntry, hsign]
  have hmem : equalSign ∈ showEntry entry := by simp [hshow]
  have hspace : space ≠ equalSign := by decide
  have htake : (showEntry entry).takeWhile (· ≠ equalSign) = entry.1 := by
    rw [hshow, List.takeWhile_append_of_pos hall]
    simp
  have hdrop : (showEntry entry).dropWhile (· ≠ equalSign) = equalSign :: entry.2 := by
    rw [hshow, List.dropWhile_append_of_pos hall]
    simp
  constructor
  · unfold readEntry
    dsimp only
    rw [if_neg (not_not_intro hmem), htake, hdrop, List.tail_cons, h.key_trimmed.trim_eq,
      h.value_trimmed.trim_eq, if_neg h.key_ne_nil, if_neg h.value_ne_nil]
  · unfold readEntry
    dsimp only
    rw [if_neg (not_not_intro (List.mem_cons_of_mem _ hmem)),
      List.takeWhile_cons_of_pos (by simpa using hspace),
      List.dropWhile_cons_of_pos (by simpa using hspace), htake, hdrop, List.tail_cons, trim_space,
      h.key_trimmed.trim_eq, h.value_trimmed.trim_eq, if_neg h.key_ne_nil, if_neg h.value_ne_nil]

/-! ## The whole text -/

theorem showEntry_ne_nil (entry : Str × Str) : showEntry entry ≠ [] := by
  have hsign : str "=" = [equalSign] := rfl
  simp [showEntry, hsign]

/-- The first entry, and the others after comma and blank. -/
theorem showUserdata_eq {userdata : StrMap} {entry : Str × Str} {entries : List (Str × Str)}
    (h : userdata.entries = entry :: entries) :
    showUserdata userdata =
      showEntry entry ++ (entries.map showEntry).flatMap fun piece => str ", " ++ piece := by
  have hloop (s : Str) (hs : s ≠ []) :
      entries.foldl (fun s entry => (if s = [] then s else s ++ str ", ") ++ showEntry entry) s =
        s ++ (entries.map showEntry).flatMap fun piece => str ", " ++ piece := by
    clear h
    induction entries generalizing s with
    | nil => exact (List.append_nil s).symm
    | cons e entries ih =>
      rw [List.foldl_cons, if_neg hs, List.map_cons, List.flatMap_cons]
      rw [ih _ fun hnil => showEntry_ne_nil e (List.append_eq_nil_iff.mp hnil).2]
      simp
  rw [showUserdata, h, List.foldl_cons, if_pos rfl, List.nil_append]
  exact hloop _ (showEntry_ne_nil entry)

/-- The text is cut into the entries again, all but the first with the blank that follows the
comma. -/
theorem split_show {userdata : StrMap} {entry : Str × Str} {entries : List (Str × Str)}
    (h : userdata.entries = entry :: entries) (hplain : ∀ e ∈ userdata.entries, Plain e) :
    splitCompress comma (showUserdata userdata) =
      showEntry entry :: (entries.map showEntry).map (space :: ·) := by
  rw [showUserdata_eq h]
  refine split_pieces fun piece hpiece => ?_
  rw [h] at hplain
  obtain ⟨e, he, rfl⟩ := List.mem_map.mp (List.map_cons ▸ hpiece :
    piece ∈ (entry :: entries).map showEntry)
  exact (hplain e he).no_comma

/-- Reading the pieces sets the entries one after the other. -/
theorem foldlM_readEntry {entries : List (Str × Str)} (h : ∀ e ∈ entries, Plain e)
    (userdata : StrMap) :
    ((entries.map showEntry).map (space :: ·)).foldlM readEntry userdata =
      some (entries.foldl (fun r e => r.set e.1 e.2) userdata) := by
  induction entries generalizing userdata with
  | nil => rfl
  | cons e entries ih =>
    obtain ⟨he, hrest⟩ := List.forall_mem_cons.mp h
    rw [List.map_cons, List.map_cons, List.foldlM_cons, (readEntry_show he userdata).2]
    exact ih hrest (userdata.set e.1 e.2)

/-- What is shown is read back over what was there before. -/
theorem readUserdata_show {userdata : StrMap} (hne : userdata.entries ≠ [])
    (h : ∀ e ∈ userdata.entries, Plain e) (old : StrMap) :
    readUserdata (showUserdata userdata) old = some (old.override userdata) := by
  obtain ⟨entry, entries, hentries⟩ := List.exists_cons_of_ne_nil hne
  have hsplit := split_show hentries h
  rw [readUserdata, hsplit]
  rw [hentries] at h
  obtain ⟨hentry, hrest⟩ := List.forall_mem_cons.mp h
  show (showEntry entry :: _).foldlM readEntry old = _
  rw [List.foldlM_cons, (readEntry_show hentry old).1, SortedMap.override, hentries]
  exact foldlM_readEntry hrest _

/-! ## Main result -/

/-- Userdata that is shown is read back, and read into other userdata it overrides it. -/
theorem read_show (userdata : StrMap) (hne : userdata ≠ .empty) (h : Shown userdata) :
    readUserdata (showUserdata userdata) .empty = some userdata ∧
      ∀ old : StrMap, ∃ result, readUserdata (showUserdata userdata) old = some result ∧
        ∀ key, result.find key = (userdata.find key).or (old.find key) := by
  have hentries : userdata.entries ≠ [] := fun hnil => hne (SortedMap.ext hnil)
  constructor
  · rw [readUserdata_show hentries h.plain, SortedMap.override_empty]
  · intro old
    refine ⟨_, readUserdata_show hentries h.plain old, fun key => ?_⟩
    exact SortedMap.find_override old userdata key

/-- Two entries. -/
def someUserdata : StrMap :=
  (SortedMap.empty.set (str "important") (str "yes")).set (str "reason") (str "before update")

theorem someUserdata_entries :
    someUserdata.entries =
      [(str "important", str "yes"), (str "reason", str "before update")] := by decide

/-- A text that begins and ends with something else than white space is trimmed. -/
theorem trimmed_of_ends {s : Str} {a b : UInt8} (hhead : s.head? = some a) (ha : isSpace a = false)
    (hlast : s.getLast? = some b) (hb : isSpace b = false) : Sysconfig.Trimmed s where
  head c hc := by
    obtain rfl := Option.some.inj (hhead.symm.trans hc)
    exact ha
  last c hc := by
    obtain rfl := Option.some.inj (hlast.symm.trans hc)
    exact hb

/-- Userdata as a client may give it. -/
theorem shown_someUserdata : Shown someUserdata where
  valid := by decide
  value_ne_nil := by
    rw [someUserdata_entries]
    exact List.forall_mem_cons.mpr ⟨by decide, List.forall_mem_singleton.mpr (by decide)⟩
  key_trimmed := by
    rw [someUserdata_entries]
    exact List.forall_mem_cons.mpr ⟨trimmed_of_ends rfl rfl rfl rfl,
      List.forall_mem_singleton.mpr (trimmed_of_ends rfl rfl rfl rfl)⟩
  value_trimmed := by
    rw [someUserdata_entries]
    exact List.forall_mem_cons.mpr ⟨trimmed_of_ends rfl rfl rfl rfl,
      List.forall_mem_singleton.mpr (trimmed_of_ends rfl rfl rfl rfl)⟩

/-- Two keys, one with a blank in its value, are printed and read again. -/
theorem read_show_some :
    readUserdata (showUserdata someUserdata) .empty = some someUserdata :=
  (read_show someUserdata (fun h => by cases congrArg SortedMap.entries h) shown_someUserdata).1

end Snapper.Client
