import Mathlib.Data.List.Basic

/-!
# Words of a shell

How a POSIX shell cuts a command line into words, as far as it needs no expansion: blanks
separate words, between quotes everything is literal, and outside an escape makes the next
character literal.  Anything else with a meaning to the shell is refused.

## Main results

- `words_literal`, `words_quote`: characters of a word and quotes around them
- `words_of_reads`: texts that read as words, with blanks between them
-/

namespace Snapper.General.Shell

universe u

variable {α : Type u}

/-- What a character does outside of quotes. -/
inductive Role where
  | blank
  | newline
  | quote
  | escape
  | special
  | plain
  deriving DecidableEq

/-- Where the tokenizer stands. -/
inductive Mode where
  | outside
  | quoted
  | escaped
  deriving DecidableEq

/-- One more character of a word; `none` is between words. -/
def add (word : Option (List α)) (c : α) : Option (List α) := some (word.getD [] ++ [c])

/-- The words of a text, with the word that has begun. -/
def words (role : α → Role) : Mode → Option (List α) → List α → Option (List (List α))
  | .outside, word, [] => some word.toList
  | .quoted, _, [] => none
  | .escaped, _, [] => none
  | .quoted, word, c :: t =>
    if role c = .quote then words role .outside word t
    else words role .quoted (add word c) t
  | .escaped, word, c :: t =>
    -- an escaped newline joins two lines
    if role c = .newline then words role .outside word t
    else words role .outside (add word c) t
  | .outside, word, c :: t =>
    match role c with
    | .blank => (words role .outside none t).map (word.toList ++ ·)
    | .quote => words role .quoted (some (word.getD [])) t
    | .escape => words role .escaped word t
    | .plain => words role .outside (add word c) t
    | .newline => none
    | .special => none

/-- The words of a command line. -/
def tokenize (role : α → Role) (t : List α) : Option (List (List α)) :=
  words role .outside none t

section

variable {role : α → Role} {c : α} {word : Option (List α)} {t : List α}

theorem words_open (h : role c = .quote) :
    words role .outside word (c :: t) = words role .quoted (some (word.getD [])) t := by
  simp [words, h]

theorem words_close (h : role c = .quote) :
    words role .quoted word (c :: t) = words role .outside word t := by
  simp [words, h]

theorem words_literal (h : role c ≠ .quote) :
    words role .quoted word (c :: t) = words role .quoted (add word c) t := by
  simp [words, h]

theorem words_escape {e : α} (he : role e = .escape) (hc : role c ≠ .newline) :
    words role .outside word (e :: c :: t) = words role .outside (add word c) t := by
  simp [words, he, hc]

theorem words_blank (h : role c = .blank) :
    words role .outside word (c :: t) =
      (words role .outside none t).map (word.toList ++ ·) := by
  simp [words, h]

/-- Wherever a word may begin or go on, the text adds `s` to it. -/
def Reads (role : α → Role) (text s : List α) : Prop :=
  ∀ word t, words role .outside word (text ++ t) =
    words role .outside (some (word.getD [] ++ s)) t

/-- A text that reads as a word, alone. -/
theorem Reads.tokenize {text s : List α} (h : Reads role text s) :
    Shell.tokenize role text = some [s] := by
  have hread := h none []
  rwa [List.append_nil] at hread

/-- Texts that read as words, each after a blank. -/
theorem words_of_reads {text : List α → List α} {blank : α} (hblank : role blank = .blank)
    (htext : ∀ s, Reads role (text s) s) (s : List α) (l : List (List α)) :
    words role .outside (some s) (l.flatMap fun s => blank :: text s) = some (s :: l) := by
  induction l generalizing s with
  | nil => rfl
  | cons s' l ih =>
    rw [List.flatMap_cons, List.cons_append, words_blank hblank, htext s', ih]
    rfl

end

end Snapper.General.Shell
