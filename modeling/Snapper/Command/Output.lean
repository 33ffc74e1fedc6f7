import Snapper.Base.AsciiFile

/-!
# Lines of the output of a command

The output arrives in pieces: every time the command wrote something to one of its two
streams, both are read until there is no more.  A line that is not complete is carried from
one call to the next by the last line of the vector and the flag `NewLine_br`.

`feed` is what the pieces should do, byte by byte.

## Main results

- `getUntilEOF_eq`: a call that gets something feeds it
- `lines_iff`: when the lines are those of the whole text
-/

namespace Snapper.Command

/-- `Lines_aC[Idx_ii]` and `NewLineSeen_ab[Idx_ii]` -/
structure Stream where
  lines : List Str
  newLine : Bool
  deriving DecidableEq

namespace Stream

/-- `SystemCmd::invalidate`, for one of the streams -/
def invalidate : Stream := ⟨[], true⟩

/-- `SystemCmd::addLine` -/
def addLine (text : Str) (s : Stream) : Stream := { s with lines := s.lines ++ [text] }

/-- `Lines_Cr[Lines_Cr.size()-1] += text`, undefined without lines -/
def appendLine (text : Str) (s : Stream) : Option Stream :=
  if s.lines = [] then none
  else some { s with lines := s.lines.dropLast ++ [s.lines.getLastD [] ++ text] }

/-- A new line, or the rest of the last one. -/
def put (text : Str) (s : Stream) : Option Stream :=
  if s.newLine then some (s.addLine text) else s.appendLine text

/-- `while ((Idx_ii=Text_Cr.find('\n')) != string::npos)` of `extractNewline`, with fuel -/
def extractLoop : Nat → Str → Stream → Option (Str × Stream)
  | 0, _, _ => none
  | fuel + 1, text, s =>
    if newline ∈ text then do
      let s ← s.put (text.takeWhile (· ≠ newline))
      extractLoop fuel (text.dropWhile (· ≠ newline)).tail { s with newLine := true }
    else some (text, s)

/-- `SystemCmd::extractNewline`; the buffer is a `const char*` -/
def extractNewline (buf text : Str) (s : Stream) : Option (Str × Stream) :=
  extractLoop ((text ++ cstr buf).length + 1) (text ++ cstr buf) s

/-- `sizeof(Buf_ti)-1` -/
def bufLen : Nat := 255

/-- `while ((Char_ii=fgetc(File_Cr)) != EOF)`: a full buffer is extracted. -/
def readChars : (chars buf text : Str) → Stream → Option (Str × Str × Stream)
  | [], buf, text, s => some (buf, text, s)
  | c :: chars, buf, text, s =>
    if (buf ++ [c]).length = bufLen then do
      let (text, s) ← extractNewline (buf ++ [c]) text s
      readChars chars [] text s
    else readChars chars (buf ++ [c]) text s

/-- The end of `getUntilEOF`: what is left becomes a line that is not complete. -/
def finish (text : Str) (s : Stream) : Option Stream :=
  if 0 < text.length then do
    let s ← s.put text
    some { s with newLine := false }
  else some { s with newLine := true }

/-- `SystemCmd::getUntilEOF` where the pipe has `chunk` -/
def getUntilEOF (s : Stream) (chunk : Str) : Option Stream := do
  let (buf, text, s) ← readChars chunk [] [] s
  if 0 < buf.length then do
    let (text, s) ← extractNewline buf text s
    finish text s
  else finish text s

/-- One call for every chunk. -/
def getAll (chunks : List Str) (s : Stream) : Option Stream := chunks.foldlM getUntilEOF s

/-! ## Byte by byte -/

/-- The last line goes on, or there is a new one. -/
def putLine (text : Str) (s : Stream) : List Str :=
  if s.newLine then s.lines ++ [text]
  else s.lines.dropLast ++ [s.lines.getLastD [] ++ text]

def feedChar (s : Stream) (c : UInt8) : Stream :=
  if c = newline then ⟨s.putLine [], true⟩ else ⟨s.putLine [c], false⟩

def feed (s : Stream) (text : Str) : Stream := text.foldl feedChar s

/-- A line that is not complete is there. -/
def Good (s : Stream) : Prop := s.newLine = false → s.lines ≠ []

theorem putLine_ne_nil (text : Str) (s : Stream) : s.putLine text ≠ [] := by
  unfold putLine
  split <;> simp

theorem put_eq {s : Stream} (h : s.Good) (text : Str) :
    s.put text = some ⟨s.putLine text, s.newLine⟩ := by
  cases hnew : s.newLine with
  | true => simp [put, putLine, addLine, hnew]
  | false => simp [put, putLine, appendLine, hnew, h hnew]

theorem feed_append (s : Stream) (text text' : Str) :
    s.feed (text ++ text') = (s.feed text).feed text' := List.foldl_append

theorem feedChar_good (s : Stream) (c : UInt8) : (s.feedChar c).Good := by
  intro _
  unfold feedChar
  split
  · exact putLine_ne_nil _ s
  · exact putLine_ne_nil _ s

theorem feed_good {s : Stream} (h : s.Good) (text : Str) : (s.feed text).Good := by
  induction text generalizing s with
  | nil => exact h
  | cons c text ih => exact ih (feedChar_good s c)

/-- Two pieces of one line. -/
theorem putLine_putLine (s : Stream) (text text' : Str) :
    putLine text' ⟨s.putLine text, false⟩ = s.putLine (text ++ text') := by
  cases hnew : s.newLine with
  | true => simp [putLine, hnew]
  | false => simp [putLine, hnew]

/-- A line, or a part of it -/
theorem feed_part {text : Str} (h : newline ∉ text) (hne : text ≠ []) (s : Stream) :
    s.feed text = ⟨s.putLine text, false⟩ := by
  induction text generalizing s with
  | nil => exact absurd rfl hne
  | cons c text ih =>
    rw [List.mem_cons, not_or] at h
    obtain ⟨hc, htext⟩ := h
    have hchar : s.feedChar c = ⟨s.putLine [c], false⟩ := if_neg (Ne.symm hc)
    show (s.feedChar c).feed text = _
    rw [hchar]
    by_cases hnil : text = []
    · rw [hnil]
      rfl
    · rw [ih htext hnil, putLine_putLine]
      rfl

/-- A line with its newline -/
theorem feed_line {text : Str} (h : newline ∉ text) (s : Stream) :
    s.feed (text ++ [newline]) = ⟨s.putLine text, true⟩ := by
  rw [feed_append]
  by_cases hnil : text = []
  · rw [hnil]
    rfl
  · rw [feed_part h hnil]
    show (⟨putLine [] ⟨s.putLine text, false⟩, true⟩ : Stream) = _
    rw [putLine_putLine, List.append_nil]

/-! ## One call -/

/-- What is left has no newline, and if nothing is left the last line is complete. -/
structure Settled (text : Str) (s : Stream) : Prop where
  noNewline : newline ∉ text
  complete : text = [] → s.newLine = true
  good : s.Good

/-- At the first newline. -/
theorem cut_newline {text : Str} (h : newline ∈ text) :
    text = text.takeWhile (· ≠ newline) ++ [newline] ++ (text.dropWhile (· ≠ newline)).tail ∧
      newline ∉ text.takeWhile (· ≠ newline) := by
  obtain ⟨line, rest, rfl, hline⟩ := List.eq_append_cons_of_mem h
  have hall : ∀ c ∈ line, decide (c ≠ newline) = true := by
    intro c hc
    exact decide_eq_true fun heq => hline (heq ▸ hc)
  rw [List.takeWhile_append_of_pos hall, List.dropWhile_append_of_pos hall]
  simpa using hline

/-- The loop takes lines out of the text until there is no newline left, and loses nothing. -/
theorem extractLoop_spec {fuel : Nat} {text : Str} {s : Stream} (hfuel : text.length < fuel)
    (hgood : s.Good) (hcomplete : text = [] → s.newLine = true) :
    ∃ text' s', extractLoop fuel text s = some (text', s') ∧ Settled text' s' ∧
      s'.feed text' = s.feed text := by
  induction fuel generalizing text s with
  | zero => exact absurd hfuel (Nat.not_lt_zero _)
  | succ fuel ih =>
    -- up to the first newline it is a line; the rest is shorter
    by_cases hmem : newline ∈ text
    · obtain ⟨htext, hline⟩ := cut_newline hmem
      have hshort : (text.dropWhile (· ≠ newline)).tail.length < fuel := by
        have hlength := congrArg List.length htext
        simp only [List.length_append, List.length_singleton] at hlength
        omega
      obtain ⟨text', s', hrun, hsettled, hfeed⟩ :=
        ih (s := ⟨s.putLine (text.takeWhile (· ≠ newline)), true⟩) hshort
          (fun h => by cases h) fun _ => rfl
      refine ⟨text', s', ?_, hsettled, ?_⟩
      · rw [extractLoop, if_pos hmem, put_eq hgood]
        exact hrun
      · conv_rhs => rw [htext, feed_append, feed_line hline]
        exact hfeed
    · exact ⟨text, s, if_neg hmem, ⟨hmem, hcomplete, hgood⟩, rfl⟩

theorem extractNewline_spec {buf : Str} (hne : buf ≠ []) (hnul : 0 ∉ buf) (text : Str)
    {s : Stream} (hgood : s.Good) :
    ∃ text' s', extractNewline buf text s = some (text', s') ∧ Settled text' s' ∧
      s'.feed text' = s.feed (text ++ buf) := by
  rw [extractNewline, cstr_of_no_nul hnul]
  exact extractLoop_spec (Nat.lt_succ_self _) hgood fun hnil =>
    absurd (List.append_eq_nil_iff.mp hnil).2 hne

/-- The loop leaves less than a buffer; what it extracted is fed. -/
theorem readChars_spec {chars buf text : Str} {s : Stream} (hgood : s.Good)
    (hnul : 0 ∉ buf ++ chars) (hsettled : buf = [] → chars = [] → Settled text s) :
    ∃ buf' text' s', readChars chars buf text s = some (buf', text', s') ∧ s'.Good ∧ 0 ∉ buf' ∧
      (buf' = [] → Settled text' s') ∧
      s'.feed (text' ++ buf') = s.feed (text ++ (buf ++ chars)) := by
  -- over the bytes that are read, with what is in the buffer
  induction chars generalizing buf text s with
  | nil =>
    rw [List.append_nil] at hnul
    refine ⟨buf, text, s, rfl, hgood, hnul, fun hnil => hsettled hnil rfl, ?_⟩
    rw [List.append_nil]
  | cons c chars ih =>
    have happend : buf ++ c :: chars = (buf ++ [c]) ++ chars := by
      rw [List.append_assoc, List.singleton_append]
    have hconcat : buf ++ [c] ≠ [] := by simp
    rw [happend] at hnul ⊢
    rw [readChars]
    split
    -- the buffer is full and is handed over
    · have hfull : 0 ∉ buf ++ [c] := fun h0 => hnul (List.mem_append_left _ h0)
      obtain ⟨text', s', hrun, hsettled', hfeed⟩ := extractNewline_spec hconcat hfull text hgood
      rw [hrun]
      have hrest : 0 ∉ [] ++ chars := fun h0 => hnul (List.mem_append_right _ h0)
      obtain ⟨buf'', text'', s'', hrun', hgood', hnul', hempty, hfeed'⟩ :=
        ih hsettled'.good hrest fun _ _ => hsettled'
      refine ⟨buf'', text'', s'', hrun', hgood', hnul', hempty, ?_⟩
      rw [hfeed', List.nil_append, feed_append, hfeed, ← feed_append, List.append_assoc]
    · exact ih hgood hnul fun hnil => absurd hnil hconcat

/-- At the end of the output what is left is put as a line without its newline. -/
theorem finish_eq {text : Str} {s : Stream} (h : Settled text s) :
    finish text s = some (s.feed text) := by
  unfold finish
  by_cases hnil : text = []
  · subst hnil
    have hnew := h.complete rfl
    cases s with
    | mk lines newLine =>
      cases hnew
      rfl
  · rw [if_pos (List.length_pos_iff.mpr hnil), put_eq h.good, feed_part h.noNewline hnil]
    rfl

theorem getUntilEOF_nil (s : Stream) : s.getUntilEOF [] = some { s with newLine := true } := rfl

/-- A call that gets something feeds it, whatever the buffer cuts. -/
theorem getUntilEOF_eq {chunk : Str} (hne : chunk ≠ []) (hnul : 0 ∉ chunk) {s : Stream}
    (hgood : s.Good) : s.getUntilEOF chunk = some (s.feed chunk) := by
  obtain ⟨buf, text, s', hread, hgood', hnul', hempty, hfeed⟩ :=
    @readChars_spec chunk [] [] s hgood hnul fun _ hnil => absurd hnil hne
  rw [List.nil_append, List.nil_append] at hfeed
  rw [getUntilEOF, hread]
  show (if 0 < buf.length then _ else _) = _
  by_cases hnil : buf = []
  · subst hnil
    rw [List.append_nil] at hfeed
    rw [List.length_nil, if_neg (Nat.lt_irrefl 0), finish_eq (hempty rfl), hfeed]
  · rw [if_pos (List.length_pos_iff.mpr hnil)]
    obtain ⟨text'', s'', hrun, hsettled, hfeed'⟩ := extractNewline_spec hnil hnul' text hgood'
    rw [hrun]
    show finish text'' s'' = _
    rw [finish_eq hsettled, hfeed', hfeed]

/-! ## All calls -/

/-- What a call does: one that gets nothing takes the last line for complete. -/
def call (s : Stream) (chunk : Str) : Stream :=
  if chunk = [] then { s with newLine := true } else s.feed chunk

theorem call_good {s : Stream} (h : s.Good) (chunk : Str) : (s.call chunk).Good := by
  unfold call
  split
  · intro hnew
    cases hnew
  · exact feed_good h chunk

theorem getUntilEOF_eq_call {chunk : Str} (hnul : 0 ∉ chunk) {s : Stream} (hgood : s.Good) :
    s.getUntilEOF chunk = some (s.call chunk) := by
  by_cases hnil : chunk = []
  · rw [hnil, getUntilEOF_nil]
    rfl
  · rw [getUntilEOF_eq hnil hnul hgood, call, if_neg hnil]

/-- Without NUL bytes the loop over the chunks is the loop over the calls. -/
theorem getAll_eq {chunks : List Str} (hnul : 0 ∉ chunks.flatten) {s : Stream} (hgood : s.Good) :
    s.getAll chunks = some (chunks.foldl call s) := by
  induction chunks generalizing s with
  | nil => rfl
  | cons chunk chunks ih =>
    rw [List.flatten_cons, List.mem_append, not_or] at hnul
    rw [getAll, List.foldlM_cons, getUntilEOF_eq_call hnul.1 hgood]
    exact ih hnul.2 (call_good hgood chunk)

/-- `s` has `n` lines more than `s'`, or more: where `s` goes on with its last line, `s'` does. -/
structure Ahead (n : Nat) (s s' : Stream) : Prop where
  length : s'.lines.length + n ≤ s.lines.length
  newLine : s'.newLine = true → s.newLine = true

/-- How many lines there are after a byte. -/
theorem length_feedChar {s : Stream} (h : s.Good) (c : UInt8) :
    (s.feedChar c).lines.length = s.lines.length + if s.newLine then 1 else 0 := by
  have hput (text : Str) : (s.putLine text).length =
    s.lines.length + if s.newLine then 1 else 0 := by
    cases hnew : s.newLine with
    | true => simp [putLine, hnew]
    | false =>
      have hpos := List.length_pos_iff.mpr (h hnew)
      simp only [putLine, hnew, List.length_append, List.length_dropLast, List.length_singleton,
        Bool.false_eq_true, if_false]
      omega
  unfold feedChar
  split
  · exact hput []
  · exact hput [c]

theorem newLine_feedChar (s : Stream) (c : UInt8) :
    (s.feedChar c).newLine = decide (c = newline) := by
  unfold feedChar
  split <;> simp_all

section

variable {n : Nat} {s s' : Stream}

/-- The lead of one stream over another is kept by each further byte. -/
theorem Ahead.feedChar (h : Ahead n s s') (hgood : s.Good) (hgood' : s'.Good) (c : UInt8) :
    Ahead n (s.feedChar c) (s'.feedChar c) := by
  refine ⟨?_, fun hnew => ?_⟩
  · rw [length_feedChar hgood, length_feedChar hgood']
    have hlength := h.length
    cases hnew' : s'.newLine with
    | true =>
      rw [h.newLine hnew']
      simp only [if_true]
      omega
    | false =>
      simp only [Bool.false_eq_true, if_false]
      omega
  · rwa [newLine_feedChar] at hnew ⊢

/-- Where only `s` takes its last line for complete, the next byte makes it one line more. -/
theorem Ahead.feedChar_succ (h : Ahead n s s') (hgood : s.Good) (hgood' : s'.Good)
    (hnew : s.newLine = true) (hnew' : s'.newLine = false) (c : UInt8) :
    Ahead (n + 1) (s.feedChar c) (s'.feedChar c) := by
  refine ⟨?_, (h.feedChar hgood hgood' c).newLine⟩
  rw [length_feedChar hgood, length_feedChar hgood', hnew, hnew']
  have hlength := h.length
  simp only [Bool.false_eq_true, if_false, if_true]
  omega

theorem Ahead.feed (h : Ahead n s s') (hgood : s.Good) (hgood' : s'.Good) (text : Str) :
    Ahead n (s.feed text) (s'.feed text) := by
  induction text generalizing s s' with
  | nil => exact h
  | cons c text ih =>
    exact ih (h.feedChar hgood hgood' c) (feedChar_good s c) (feedChar_good s' c)

/-- And so it is by a call for the one and the same text for the other. -/
theorem Ahead.call (h : Ahead n s s') (hgood : s.Good) (hgood' : s'.Good) (chunk : Str) :
    Ahead n (s.call chunk) (s'.feed chunk) := by
  unfold Stream.call
  split
  · next hnil =>
    subst hnil
    exact ⟨h.length, fun _ => rfl⟩
  · exact h.feed hgood hgood' chunk

/-- The calls against the text as a whole. -/
theorem Ahead.calls (h : Ahead n s s') (hgood : s.Good) (hgood' : s'.Good) (chunks : List Str) :
    Ahead n (chunks.foldl Stream.call s) (s'.feed chunks.flatten) := by
  induction chunks generalizing s s' with
  | nil => exact h
  | cons chunk chunks ih =>
    rw [List.foldl_cons, List.flatten_cons, feed_append]
    exact ih (h.call hgood hgood' chunk) (call_good hgood chunk) (feed_good hgood' chunk)

/-- A line that was taken for complete and is not makes one line more, and nothing takes
that back. -/
theorem Ahead.calls_succ (h : Ahead n s s') (hgood : s.Good) (hgood' : s'.Good)
    (hnew : s.newLine = true) (hnew' : s'.newLine = false) {chunks : List Str}
    (hmore : chunks.flatten ≠ []) :
    Ahead (n + 1) (chunks.foldl Stream.call s) (s'.feed chunks.flatten) := by
  induction chunks generalizing s with
  | nil => exact absurd rfl hmore
  | cons chunk chunks ih =>
    cases chunk with
    | nil => exact ih ⟨h.length, fun _ => rfl⟩ (fun hfalse => by cases hfalse) rfl hmore
    | cons c chunk =>
      have hfirst := h.feedChar_succ hgood hgood' hnew hnew' c
      have hchunk := hfirst.feed (feedChar_good s c) (feedChar_good s' c) chunk
      rw [List.foldl_cons, List.flatten_cons, feed_append]
      exact hchunk.calls (feed_good (feedChar_good s c) chunk)
        (feed_good (feedChar_good s' c) chunk) chunks

end

/-- The text does not end with a complete line. -/
def Unterminated (text : Str) : Prop := ∃ c, text.getLast? = some c ∧ c ≠ newline

/-- After a text the next byte begins a line unless the text ends in the middle of one. -/
theorem newLine_feed_invalidate (text : Str) :
    (invalidate.feed text).newLine = false ↔ Unterminated text := by
  obtain rfl | ⟨text, c, rfl⟩ := List.eq_nil_or_concat text
  · constructor
    · intro h
      cases h
    · intro h
      obtain ⟨c, hc, -⟩ := h
      cases hc
  · have hlast : invalidate.feed (text ++ [c]) = (invalidate.feed text).feedChar c :=
      feed_append invalidate text [c]
    rw [List.concat_eq_append, hlast, newLine_feedChar]
    simp [Unterminated]

/-- A call that gets nothing comes in the middle of a line: the rest of the line arrives
after it. -/
def Interrupted (chunks : List Str) : Prop :=
  ∃ before after, chunks = before ++ [] :: after ∧ Unterminated before.flatten ∧
    after.flatten ≠ []

/-- The calls give the state that the text gives, up to the flag after the end of the text. -/
theorem calls_lines {chunks : List Str} {s : Stream} {done : Str}
    (hlines : s.lines = (invalidate.feed done).lines)
    (hnew : chunks.flatten ≠ [] → s.newLine = (invalidate.feed done).newLine)
    (h : ∀ before after, chunks = before ++ [] :: after →
      Unterminated (done ++ before.flatten) → after.flatten = []) :
    (chunks.foldl Stream.call s).lines = (invalidate.feed (done ++ chunks.flatten)).lines := by
  induction chunks generalizing s done with
  | nil => rwa [List.flatten_nil, List.append_nil]
  | cons chunk chunks ih =>
    rw [List.foldl_cons, List.flatten_cons]
    by_cases hnil : chunk = []
    · subst hnil
      rw [List.nil_append]
      refine ih hlines (fun hmore => ?_) fun before after hsplit => ?_
      · -- more is to come, so the line before the call was complete
        show true = _
        by_contra hfalse
        have hopen := (newLine_feed_invalidate done).mp (Bool.eq_false_iff.mpr (Ne.symm hfalse))
        refine hmore (h [] chunks rfl ?_)
        rwa [List.flatten_nil, List.append_nil]
      · exact h ([] :: before) after (congrArg ([] :: ·) hsplit)
    · have hmore : (chunk :: chunks).flatten ≠ [] := by
        rw [List.flatten_cons]
        exact fun h => hnil (List.append_eq_nil_iff.mp h).1
      -- the stream is as one that never saw an empty call
      have hsame : s = invalidate.feed done := by
        cases s with
        | mk lines newLine =>
          obtain rfl : lines = _ := hlines
          obtain rfl : newLine = _ := hnew hmore
          rfl
      have hcall : s.call chunk = invalidate.feed (done ++ chunk) := by
        rw [call, if_neg hnil, hsame, feed_append]
      rw [hcall, ← List.append_assoc]
      refine ih rfl (fun _ => rfl) fun before after hsplit hopen => ?_
      refine h (chunk :: before) after (congrArg (chunk :: ·) hsplit) ?_
      rwa [List.flatten_cons, ← List.append_assoc]

/-- The lines are those of the whole text if and only if no call that got nothing came in
the middle of a line. -/
theorem calls_lines_iff (chunks : List Str) :
    (chunks.foldl call invalidate).lines = (invalidate.feed chunks.flatten).lines ↔
      ¬Interrupted chunks := by
  have hgood : invalidate.Good := fun h => by cases h
  constructor
  · intro hlines hinterrupted
    obtain ⟨before, after, rfl, hopen, hmore⟩ := hinterrupted
    -- up to the empty call the buffer is level with the one that gets the whole text, after it
    -- there is one line more, and the lead is never lost
    have hstart : Ahead 0 invalidate invalidate := ⟨le_rfl, id⟩
    have hbefore := hstart.calls hgood hgood before
    have hgood' := feed_good hgood before.flatten
    have hflag := (newLine_feed_invalidate before.flatten).mpr hopen
    have hafter := Ahead.calls_succ (s := { before.foldl call invalidate with newLine := true })
      ⟨hbefore.length, fun _ => rfl⟩ (fun h => by cases h) hgood' rfl hflag hmore
    have hlength := hafter.length
    rw [List.foldl_append, List.foldl_cons, List.flatten_append, List.flatten_cons,
      List.nil_append, feed_append] at hlines
    have hcall : (before.foldl call invalidate).call [] =
        { before.foldl call invalidate with newLine := true } := rfl
    rw [hcall] at hlines
    rw [hlines] at hlength
    omega
  · intro h
    -- without such a call every chunk continues where the text stands
    have hnone : ∀ before after, chunks = before ++ [] :: after →
        Unterminated ([] ++ before.flatten) → after.flatten = [] := by
      intro before after hsplit hopen
      by_contra hmore
      exact h ⟨before, after, hsplit, hopen, hmore⟩
    exact calls_lines rfl (fun _ => rfl) hnone

/-! ## The lines of a text -/

/-- A text split at newlines; the last piece counts if it is not empty. -/
def splitLines (text : Str) : List Str :=
  let pieces := text.splitOn newline
  if pieces.getLast? = some [] then pieces.dropLast else pieces

/-- A line and its newline are taken off a text as one entry. -/
theorem splitLines_line {line : Str} (h : newline ∉ line) (text : Str) :
    splitLines (line ++ newline :: text) = line :: splitLines text := by
  have hne : text.splitOn newline ≠ [] := List.splitOn_ne_nil newline text
  unfold splitLines
  rw [List.splitOn_append_cons_self_of_not_mem h]
  cases hpieces : text.splitOn newline with
  | nil => exact absurd hpieces hne
  | cons piece pieces =>
    dsimp only
    rw [List.getLast?_cons_cons, List.dropLast_cons_cons]
    split
    · rfl
    · rfl

theorem splitLines_last {line : Str} (h : newline ∉ line) (hne : line ≠ []) :
    splitLines line = [line] := by
  have hlast : [line].getLast? ≠ some [] := fun hnil => hne (Option.some.inj hnil)
  unfold splitLines
  rw [List.splitOn_eq_singleton h]
  exact if_neg hlast

/-- From the beginning of a line. -/
theorem feed_lines (lines : List Str) (text : Str) :
    (feed ⟨lines, true⟩ text).lines = lines ++ splitLines text := by
  induction hlen : text.length using Nat.strongRecOn generalizing lines text with
  | ind n ih =>
    by_cases hmem : newline ∈ text
    · obtain ⟨line, rest, rfl, hline⟩ := List.eq_append_cons_of_mem hmem
      have hshort : rest.length < n := by
        rw [← hlen, List.length_append, List.length_cons]
        omega
      have hsplit : line ++ newline :: rest = (line ++ [newline]) ++ rest := by simp
      rw [splitLines_line hline, hsplit, feed_append, feed_line hline]
      have hrest := ih _ hshort (lines ++ [line]) rest rfl
      rwa [List.append_assoc] at hrest
    · by_cases hnil : text = []
      · rw [hnil]
        exact (List.append_nil lines).symm
      · rw [feed_part hmem hnil, splitLines_last hmem hnil]
        rfl

/-! ## Main result -/

/-- For every output and every way it arrives the lines are those of the text, if and only if
no call gets nothing between two pieces of a line. -/
theorem lines_iff (chunks : List Str) (h : 0 ∉ chunks.flatten) :
    (∃ s, invalidate.getAll chunks = some s ∧ s.lines = splitLines chunks.flatten) ↔
      ¬Interrupted chunks := by
  have hgood : invalidate.Good := fun hfalse => by cases hfalse
  have htext := feed_lines [] chunks.flatten
  rw [List.nil_append] at htext
  rw [getAll_eq h hgood, ← calls_lines_iff, ← htext]
  constructor
  · intro hlines
    obtain ⟨s, hs, hlines⟩ := hlines
    obtain rfl := Option.some.inj hs
    exact hlines
  · intro hlines
    exact ⟨_, rfl, hlines⟩

/-- A line in two pieces. -/
theorem lines_iff_pieces :
    (∃ s, invalidate.getAll [str "a", str "b\n"] = some s ∧
      s.lines = splitLines [str "a", str "b\n"].flatten) ↔ ¬Interrupted [str "a", str "b\n"] :=
  lines_iff [str "a", str "b\n"] (by decide)

/-- The two pieces become two lines when the other stream has data in between. -/
theorem lines_interrupted :
    invalidate.getAll [str "a", [], str "b"] = some ⟨[str "a", str "b"], false⟩ ∧
      splitLines [str "a", [], str "b"].flatten = [str "ab"] := by
  constructor
  · rfl
  · rfl

end Stream

end Snapper.Command
