import Snapper.Base.AsciiFile
import Snapper.General.Replace
import Snapper.General.Shell

/-!
# Quoting for the shell

Commands are run by a shell from a text, so names are put into them with `quote`.  A quote in
a name closes the quoting, stands escaped, and opens the quoting again.
-/

namespace Snapper.Command

open General

/-- `'\''` -/
def apostrophe : UInt8 := 39

/-- `'\\'` -/
def backslash : UInt8 := 92

/-- `SystemCmd::quote(const string&)` -/
def quote (s : Str) : Str :=
  str "'" ++ replaceAll (str "'") (str "'\\''") s ++ str "'"

/-- `SystemCmd::quote(const list<string>&)`: a blank before each string but the first -/
def quoteList : List Str → Str
  | [] => []
  | s :: strs => quote s ++ strs.flatMap fun s => str " " ++ quote s

/-! ## The shell -/

/-- What is not a blank, a newline, the quote or the backslash but has a meaning to a POSIX
shell outside of quotes, in some place at least. -/
def specials : Str := str "|&;<>()$`\"*?[]#~=%!\x7b\x7d^"

/-- The bytes as a POSIX shell takes them.  It never sees a NUL. -/
def role (c : UInt8) : Shell.Role :=
  if c = space ∨ c = 9 then .blank
  else if c = newline then .newline
  else if c = apostrophe then .quote
  else if c = backslash then .escape
  else if c = 0 ∨ c ∈ specials then .special
  else .plain

/-- The apostrophe is the only byte that the shell reads as a quote inside of single quotes. -/
theorem role_eq_quote (c : UInt8) : role c = .quote ↔ c = apostrophe := by
  constructor
  · intro h
    unfold role at h
    split_ifs at h with _ _ hquote
    exact hquote
  · rintro rfl
    rfl

theorem role_apostrophe : role apostrophe = .quote := rfl

theorem role_backslash : role backslash = .escape := rfl

theorem role_space : role space = .blank := rfl

/-- Inside of the quotes, up to the one that closes them.  The induction goes along the name:
after every byte, also a quote, the shell is inside of quotes again. -/
theorem words_quoted (s : Str) (word : Option Str) (t : Str) :
    Shell.words role .quoted (some (word.getD []))
        (replaceAll (str "'") (str "'\\''") s ++ apostrophe :: t) =
      Shell.words role .outside (some (word.getD [] ++ s)) t := by
  induction s generalizing word with
  | nil => rw [replaceAll_nil, List.nil_append, Shell.words_close role_apostrophe, List.append_nil]
  | cons c s ih =>
    have hone : str "'" = [apostrophe] := rfl
    have hadd : word.getD [] ++ c :: s = (Shell.add word c).getD [] ++ s := by
      simp [Shell.add]
    rw [hone, replaceAll_singleton_cons, ← hone]
    by_cases hc : c = apostrophe
    · subst hc
      have hplain : role apostrophe ≠ .newline := by
        rw [role_apostrophe]
        intro h
        cases h
      rw [if_pos rfl]
      show Shell.words role .quoted (some (word.getD []))
        (apostrophe :: backslash :: apostrophe :: apostrophe :: _) = _
      -- the quote closes, the escaped one is part of the word, the last one opens again
      rw [Shell.words_close role_apostrophe, Shell.words_escape role_backslash hplain,
        Shell.words_open role_apostrophe, hadd]
      exact ih (Shell.add word apostrophe)
    · have hliteral : role c ≠ .quote := fun h => hc ((role_eq_quote c).mp h)
      rw [if_neg hc, List.singleton_append, List.cons_append, Shell.words_literal hliteral, hadd]
      exact ih (Shell.add word c)

/-- A quoted name is part of a word, wherever it stands. -/
theorem reads_quote (s : Str) : Shell.Reads role (quote s) s := by
  intro word t
  have hopen : quote s ++ t =
      apostrophe :: (replaceAll (str "'") (str "'\\''") s ++ apostrophe :: t) := by
    have hone : str "'" = [apostrophe] := rfl
    simp [quote, hone]
  rw [hopen, Shell.words_open role_apostrophe]
  exact words_quoted s word t

/-! ## NUL -/

/-- Quoting adds no NUL. -/
theorem nul_not_mem_quote {s : Str} (h : 0 ∉ s) : 0 ∉ quote s := by
  have hone : str "'" = [apostrophe] := rfl
  rw [quote, hone, replaceAll_singleton]
  simp only [List.mem_append, List.mem_flatMap, not_or, not_exists, not_and]
  refine ⟨⟨by decide, fun c hc => ?_⟩, by decide⟩
  split
  · decide
  · intro h0
    exact h (List.mem_singleton.mp h0 ▸ hc)

theorem nul_not_mem_quoteList {strs : List Str} (h : ∀ s ∈ strs, 0 ∉ s) : 0 ∉ quoteList strs := by
  cases strs with
  | nil => exact List.not_mem_nil
  | cons s strs =>
    obtain ⟨hs, hstrs⟩ := List.forall_mem_cons.mp h
    simp only [quoteList, List.mem_append, List.mem_flatMap, not_or, not_exists, not_and]
    refine ⟨nul_not_mem_quote hs, fun s' hs' => ⟨by decide, nul_not_mem_quote (hstrs s' hs')⟩⟩

/-! ## Main result -/

/-- The words that the shell reads of a list of quoted names are the names, and a quoted name
is one word.  It gets the text as a `const char*`. -/
theorem quote_exact (strs : List Str) (h : ∀ s ∈ strs, 0 ∉ s) :
    Shell.tokenize role (cstr (quoteList strs)) = some strs ∧
      ∀ s, 0 ∉ s → Shell.tokenize role (cstr (quote s)) = some [s] := by
  constructor
  · rw [cstr_of_no_nul (nul_not_mem_quoteList h)]
    cases strs with
    | nil => rfl
    | cons s strs =>
      show Shell.words role .outside none (quote s ++ _) = _
      rw [reads_quote s]
      exact Shell.words_of_reads role_space reads_quote s strs
  · intro s hs
    rw [cstr_of_no_nul (nul_not_mem_quote hs)]
    exact (reads_quote s).tokenize

/-- A name of quotes only, an empty one and one that would be a command. -/
theorem quote_exact_names :
    Shell.tokenize role (cstr (quoteList [str "''", [], str "a; rm -rf /"])) =
      some [str "''", [], str "a; rm -rf /"] :=
  (quote_exact [str "''", [], str "a; rm -rf /"] (by simp [str])).1

end Snapper.Command
