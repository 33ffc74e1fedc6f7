import Snapper.Dbus.Codec

/-!
# The escapes in strings

`unescape` reads a grammar: a string is a sequence of items, each a byte that stands for
itself, an escaped backslash, or a number of one or two hexadecimal digits.  Numbers are
ambiguous, and the parser takes the second digit wherever there is one.

`Walk` is the loop of the source with its iterator, where looking or moving past the end is
undefined.  It does what `unescape` says, so it is never undefined.
-/

namespace Snapper.DBus

open General

/-! ## The grammar -/

/-- What stands for one byte. -/
inductive Item where
  | literal (c : UInt8)
  | backslash
  | digit (d : UInt8)
  | digits (d d' : UInt8)
  deriving DecidableEq

namespace Item

/-- As it is written. -/
def text : Item → Str
  | literal c => [c]
  | backslash => [DBus.backslash, DBus.backslash]
  | digit d => [DBus.backslash, letterX, d]
  | digits d d' => [DBus.backslash, letterX, d, d']

/-- The bytes are those that the constructor stands for. -/
def Valid : Item → Prop
  | literal c => c ≠ DBus.backslash
  | backslash => True
  | digit d => isxdigit d = true
  | digits d d' => isxdigit d = true ∧ isxdigit d' = true

/-- The byte it stands for. -/
def value : Item → UInt8
  | literal c => c
  | backslash => DBus.backslash
  | digit d => hexValue d
  | digits d d' => 16 * hexValue d + hexValue d'

theorem text_length_pos (item : Item) : 0 < item.text.length := by
  cases item <;> exact Nat.succ_pos _

/-- Nothing of what follows could have been part of the item. -/
def Complete (rest : Str) : Item → Prop
  | digit _ => ∀ d', rest.head? = some d' → isxdigit d' = false
  | _ => True

end Item

/-- The text of a sequence of items. -/
def itemsText (items : List Item) : Str := items.flatMap Item.text

/-- Numbers have two digits whenever the second is available. -/
def Greedy : List Item → Prop
  | [] => True
  | item :: items => item.Complete (itemsText items) ∧ Greedy items

@[simp] theorem itemsText_cons (item : Item) (items : List Item) :
    itemsText (item :: items) = item.text ++ itemsText items := List.flatMap_cons

/-- `items` is how the parser is to read `t`. -/
structure Parses (t : Str) (items : List Item) : Prop where
  valid : ∀ item ∈ items, item.Valid
  greedy : Greedy items
  text : itemsText items = t

theorem Parses.nil : Parses [] [] where
  valid := by simp
  greedy := trivial
  text := rfl

theorem Parses.cons {t : Str} {item : Item} {items : List Item} (h : Parses t items)
    (hvalid : item.Valid) (hcomplete : item.Complete t) :
    Parses (item.text ++ t) (item :: items) where
  valid := List.forall_mem_cons.mpr ⟨hvalid, h.valid⟩
  greedy := ⟨h.text.symm ▸ hcomplete, h.greedy⟩
  text := by rw [itemsText_cons, h.text]

/-! ### One item -/

/-- A number of one digit ends before a byte that is no hexadecimal digit. -/
theorem unescape_digit {d : UInt8} (hd : isxdigit d = true) {t : Str}
    (ht : ∀ d', t.head? = some d' → isxdigit d' = false) :
    unescape (backslash :: letterX :: d :: t) = (unescape t).map (hexValue d :: ·) := by
  have hx : letterX ≠ backslash := by decide
  cases t with
  | nil =>
    rw [unescape.eq_def]
    simp [hx, hd, unescape]
  | cons d' t =>
    have hd' : isxdigit d' = false := ht d' rfl
    rw [unescape.eq_def]
    simp [hx, hd, hd']

/-- A complete item in front is one more byte. -/
theorem unescape_item {item : Item} (hvalid : item.Valid) {t : Str} (hcomplete : item.Complete t) :
    unescape (item.text ++ t) = (unescape t).map (item.value :: ·) := by
  cases item with
  | literal c => exact unescape_cons hvalid t
  | backslash => exact unescape_backslash t
  | digit d => exact unescape_digit hvalid hcomplete
  | digits d d' => exact unescape_hex hvalid.1 hvalid.2 t

/-- A text that parses is decoded item by item. -/
theorem unescape_of_parses {t : Str} {items : List Item} (h : Parses t items) :
    unescape t = some (items.map Item.value) := by
  obtain ⟨hvalid, hgreedy, rfl⟩ := h
  induction items with
  | nil => rfl
  | cons item items ih =>
    obtain ⟨hcomplete, hrest⟩ := hgreedy
    obtain ⟨hitem, hitems⟩ := List.forall_mem_cons.mp hvalid
    rw [itemsText_cons, unescape_item hitem hcomplete, ih hitems hrest]
    rfl

/-! ### Parsing -/

/-- A number is one digit, or two if the second is available. -/
theorem digit_cases {d : UInt8} (hd : isxdigit d = true) (t : Str) :
    ∃ (item : Item) (rest : Str), item.Valid ∧ item.Complete rest ∧
      item.text ++ rest = backslash :: letterX :: d :: t := by
  cases t with
  | nil => exact ⟨.digit d, [], hd, by simp [Item.Complete], rfl⟩
  | cons d' t =>
    cases hd' : isxdigit d' with
    | true => exact ⟨.digits d d', t, ⟨hd, hd'⟩, trivial, rfl⟩
    | false =>
      refine ⟨.digit d, d' :: t, hd, ?_, rfl⟩
      intro c hc
      obtain rfl := Option.some.inj hc
      exact hd'

/-- What does not begin with an item. -/
inductive Stuck : Str → Prop where
  | short : Stuck [backslash]
  | letter {c : UInt8} (hback : c ≠ backslash) (hx : c ≠ letterX) (t : Str) :
      Stuck (backslash :: c :: t)
  | shortNumber : Stuck [backslash, letterX]
  | number {d : UInt8} (hd : isxdigit d = false) (t : Str) : Stuck (backslash :: letterX :: d :: t)

/-- A string is empty, begins with an item or is not an escaped string. -/
theorem front_cases (t : Str) :
    t = [] ∨ (∃ (item : Item) (rest : Str), item.Valid ∧ item.Complete rest ∧
      item.text ++ rest = t) ∨ Stuck t := by
  cases t with
  | nil => exact .inl rfl
  | cons c t =>
    -- what is not a backslash stands for itself
    by_cases hc : c = backslash
    · subst hc
      cases t with
      | nil => exact .inr (.inr .short)
      | cons c' t =>
        by_cases hback : c' = backslash
        · subst hback
          exact .inr (.inl ⟨.backslash, t, trivial, trivial, rfl⟩)
        · by_cases hx : c' = letterX
          · subst hx
            cases t with
            | nil => exact .inr (.inr .shortNumber)
            | cons d t =>
              cases hd : isxdigit d with
              | true => exact .inr (.inl (digit_cases hd t))
              | false => exact .inr (.inr (.number hd t))
          · exact .inr (.inr (.letter hback hx t))
    · exact .inr (.inl ⟨.literal c, t, hc, trivial, rfl⟩)

/-- A text that is stuck at its front is not decoded at all. -/
theorem unescape_of_stuck {t : Str} (h : Stuck t) : unescape t = none := by
  have hletter : letterX ≠ backslash := by decide
  cases h with
  | short => rfl
  | letter hback hx t =>
    rw [unescape.eq_def]
    simp [hback, hx]
  | shortNumber => rfl
  | number hd t =>
    rw [unescape.eq_def]
    simp [hletter, hd]

/-- What is read has been written by items, with the second digits taken. -/
theorem parses_of_unescape {t s : Str} (h : unescape t = some s) : ∃ items, Parses t items := by
  induction hlen : t.length using Nat.strongRecOn generalizing t s with
  | ind n ih =>
    obtain rfl | ⟨item, rest, hvalid, hcomplete, rfl⟩ | hstuck := front_cases t
    · exact ⟨[], .nil⟩
    · rw [unescape_item hvalid hcomplete] at h
      obtain ⟨s', hs', -⟩ := Option.map_eq_some_iff.mp h
      have hshort : rest.length < n := by
        rw [← hlen, List.length_append]
        have hpos := item.text_length_pos
        omega
      obtain ⟨items, hitems⟩ := ih _ hshort hs' rfl
      exact ⟨item :: items, hitems.cons hvalid hcomplete⟩
    · rw [unescape_of_stuck hstuck] at h
      cases h

/-! ### Other ways to read the numbers -/

/-- Take the second digits. -/
def regroup : List Item → List Item
  | [] => []
  | [item] => [item]
  | .digit d :: .literal d' :: items =>
    if isxdigit d' then .digits d d' :: regroup items
    else .digit d :: regroup (.literal d' :: items)
  | item :: item' :: items => item :: regroup (item' :: items)

theorem itemsText_regroup (items : List Item) : itemsText (regroup items) = itemsText items := by
  fun_induction regroup items with
  | case1 => rfl
  | case2 => rfl
  | case3 d d' items hd' ih => simp [ih, Item.text]
  | case4 d d' items hd' ih => simp [ih]
  | case5 item item' items _ ih => simp [ih]

/-- Regrouping two digits into one number keeps the items valid. -/
theorem valid_regroup {items : List Item} (h : ∀ item ∈ items, item.Valid) :
    ∀ item ∈ regroup items, item.Valid := by
  fun_induction regroup items with
  | case1 => exact h
  | case2 => exact h
  | case3 d d' items hd' ih =>
    obtain ⟨hd, hrest⟩ := List.forall_mem_cons.mp h
    exact List.forall_mem_cons.mpr ⟨⟨hd, hd'⟩, ih (List.forall_mem_cons.mp hrest).2⟩
  | case4 d d' items hd' ih =>
    obtain ⟨hd, hrest⟩ := List.forall_mem_cons.mp h
    exact List.forall_mem_cons.mpr ⟨hd, ih hrest⟩
  | case5 item item' items _ ih =>
    obtain ⟨hitem, hrest⟩ := List.forall_mem_cons.mp h
    exact List.forall_mem_cons.mpr ⟨hitem, ih hrest⟩

/-- The numbers that are not complete are followed by a digit. -/
theorem complete_of_not_literal {item item' : Item} {items : List Item}
    (h : ∀ d d', item = .digit d → item' = .literal d' → isxdigit d' = false) :
    item.Complete (itemsText (item' :: items)) := by
  have hback : isxdigit backslash = false := by decide
  -- only a number of one digit can be continued, and only by a literal digit
  cases item with
  | digit d =>
    intro c hc
    cases item' with
    | literal d' =>
      obtain rfl := Option.some.inj hc
      exact h d _ rfl rfl
    | backslash =>
      obtain rfl := Option.some.inj hc
      exact hback
    | digit d' =>
      obtain rfl := Option.some.inj hc
      exact hback
    | digits d' d'' =>
      obtain rfl := Option.some.inj hc
      exact hback
  | literal c => exact trivial
  | backslash => exact trivial
  | digits d d' => exact trivial

/-- After regrouping no item can take in the byte that follows it. -/
theorem greedy_regroup (items : List Item) : Greedy (regroup items) := by
  fun_induction regroup items with
  | case1 => exact trivial
  | case2 item =>
    refine ⟨?_, trivial⟩
    cases item with
    | digit d => exact fun _ hd' => by cases hd'
    | literal c => exact trivial
    | backslash => exact trivial
    | digits d d' => exact trivial
  | case3 d d' items hd' ih => exact ⟨trivial, ih⟩
  | case4 d d' items hd' ih =>
    refine ⟨?_, ih⟩
    rw [itemsText_regroup]
    refine complete_of_not_literal fun _ c _ hc => ?_
    obtain rfl := Item.literal.inj hc
    exact Bool.eq_false_iff.mpr hd'
  | case5 item item' items hnot ih =>
    refine ⟨?_, ih⟩
    rw [itemsText_regroup]
    exact complete_of_not_literal fun d d' hd hd' => absurd hd' (hnot d d' hd)

theorem parses_regroup {t : Str} {items : List Item} (hvalid : ∀ item ∈ items, item.Valid)
    (htext : itemsText items = t) : Parses t (regroup items) where
  valid := valid_regroup hvalid
  greedy := greedy_regroup items
  text := (itemsText_regroup items).trans htext

/-- Only one item is in front. -/
theorem front_unique {item item' : Item} {t t' : Str} (hvalid : item.Valid)
    (hvalid' : item'.Valid) (hcomplete : item.Complete t) (hcomplete' : item'.Complete t')
    (h : item.text ++ t = item'.text ++ t') : item = item' ∧ t = t' := by
  have hletter : letterX ≠ backslash := by decide
  cases item with
  | literal c => cases item' <;> simp_all [Item.text, Item.Valid]
  | backslash => cases item' <;> simp_all [Item.text, Item.Valid]
  | digit d => cases item' <;> simp_all [Item.text, Item.Valid, Item.Complete]
  | digits d d' =>
    cases item' with
    | digit c =>
      obtain ⟨-, rfl⟩ : d = c ∧ d' :: t = t' := by simpa [Item.text] using h
      have hd' : isxdigit d' = true := hvalid.2
      simp [hcomplete' d' rfl] at hd'
    | literal c => simp_all [Item.text, Item.Valid]
    | backslash => simp_all [Item.text]
    | digits c c' => simp_all [Item.text]

theorem Parses.tail {t : Str} {item : Item} {items : List Item} (h : Parses t (item :: items)) :
    Parses (itemsText items) items where
  valid := (List.forall_mem_cons.mp h.valid).2
  greedy := h.greedy.2
  text := rfl

/-- A text is parsed in one way: each item is as long as it can be. -/
theorem Parses.unique {t : Str} {items items' : List Item} (h : Parses t items)
    (h' : Parses t items') : items = items' := by
  -- every item has a text
  have hempty (item : Item) (items : List Item) : itemsText (item :: items) ≠ [] := by
    have hpos := item.text_length_pos
    rw [itemsText_cons]
    intro hnil
    rw [(List.append_eq_nil_iff.mp hnil).1] at hpos
    exact Nat.lt_irrefl 0 hpos
  induction items generalizing t items' with
  | nil =>
    cases items' with
    | nil => rfl
    | cons item' items' => exact absurd (h'.text.trans h.text.symm) (hempty item' items')
  | cons item items ih =>
    cases items' with
    | nil => exact absurd (h.text.trans h'.text.symm) (hempty item items)
    | cons item' items' =>
      have hsame := h.text.trans h'.text.symm
      rw [itemsText_cons, itemsText_cons] at hsame
      obtain ⟨rfl, hrest⟩ := front_unique (List.forall_mem_cons.mp h.valid).1
        (List.forall_mem_cons.mp h'.valid).1 h.greedy.1 h'.greedy.1 hsame
      rw [ih h.tail (hrest ▸ h'.tail)]

/-! ## The iterator -/

/-- What ends the loop early: the exception, or a step of the iterator that is undefined. -/
inductive Stop where
  | MarshallingException
  | pastEnd
  | outOfFuel
  deriving DecidableEq

/-- `string::const_iterator it`, as the bytes from it to the end -/
abbrev Walk := Act Str Stop

namespace Walk

/-- `*(it + n)` -/
def deref (n : Nat) : Walk UInt8 := do
  match (← Act.read id)[n]? with
  | none => throw .pastEnd
  | some c => pure c

/-- `++it` -/
def advance : Walk PUnit := do
  match ← Act.read id with
  | [] => throw .pastEnd
  | _ :: rest => Act.modify fun _ => rest

/-- `it + n == in.end()` -/
def atEnd (n : Nat) : Walk Bool := do
  let len ← Act.read List.length
  if len < n then throw .pastEnd
  else pure (len = n)

/-- `(it + 1) != in.end() && isxdigit(*(it + 1))` -/
def secondDigit : Walk Bool := do
  if ← atEnd 1 then pure false
  else do
    pure (isxdigit (← deref 1))

/-- The body of the loop; `out` is what is read so far. -/
def body (out : Str) : Walk Str := do
  if (← deref 0) = backslash then do
    advance
    if ← atEnd 0 then throw .MarshallingException
    else do
      if (← deref 0) = backslash then pure (out ++ [backslash])
      else do
        if (← deref 0) = letterX then do
          advance
          if ← atEnd 0 then throw .MarshallingException
          else do
            let d ← deref 0
            if isxdigit d then do
              if ← secondDigit then do
                advance
                let d' ← deref 0
                pure (out ++ [16 * hexValue d + hexValue d'])
              else pure (out ++ [hexValue d])
            else throw .MarshallingException
        else throw .MarshallingException
  else do
    pure (out ++ [← deref 0])

/-- `for (it = in.begin(); it != in.end(); ++it)`, with fuel -/
def loop : Nat → Str → Walk Str
  | 0, _ => throw .outOfFuel
  | fuel + 1, out => do
    if ← atEnd 0 then pure out
    else do
      let out ← body out
      advance
      loop fuel out

/-- `Hihi::unescape` with its iterator -/
def unescape (t : Str) : Except Stop Str := ((loop (t.length + 1) []).run t).1

@[simp] theorem run_deref_zero (c : UInt8) (t : Str) : (deref 0).run (c :: t) = (.ok c, c :: t) :=
  rfl

@[simp] theorem run_deref_one (c d : UInt8) (t : Str) :
    (deref 1).run (c :: d :: t) = (.ok d, c :: d :: t) := rfl

@[simp] theorem run_advance (c : UInt8) (t : Str) : advance.run (c :: t) = (.ok ⟨⟩, t) := rfl

@[simp] theorem run_atEnd_zero (t : Str) : (atEnd 0).run t = (.ok (t.length = 0), t) := by
  simp [atEnd, Act.run_bind]

@[simp] theorem run_atEnd_one (c : UInt8) (t : Str) :
    (atEnd 1).run (c :: t) = (.ok (t.length = 0), c :: t) := by
  simp [atEnd, Act.run_bind]

@[simp] theorem run_secondDigit (c : UInt8) (t : Str) :
    secondDigit.run (c :: t) = (.ok (t.head?.any isxdigit), c :: t) := by
  cases t with
  | nil => simp [secondDigit, Act.run_bind]
  | cons d t => simp [secondDigit, Act.run_bind]

/-- After the body the iterator is at the last byte of the item. -/
theorem run_body_item {item : Item} (hvalid : item.Valid) {t : Str} (hcomplete : item.Complete t)
    (out : Str) :
    ∃ c, (body out).run (item.text ++ t) = (.ok (out ++ [item.value]), c :: t) := by
  have hx : letterX ≠ backslash := by decide
  cases item with
  | literal c =>
    have hc : c ≠ backslash := hvalid
    exact ⟨c, by simp [body, Act.run_bind, Item.text, Item.value, hc]⟩
  | backslash => exact ⟨backslash, by simp [body, Act.run_bind, Item.text, Item.value]⟩
  | digit d =>
    have hd : isxdigit d = true := hvalid
    have hnone : t.head?.any isxdigit = false := by
      cases t with
      | nil => rfl
      | cons d' t => exact hcomplete d' rfl
    exact ⟨d, by simp [body, Act.run_bind, Item.text, Item.value, hx, hd, hnone]⟩
  | digits d d' =>
    obtain ⟨hd, hd'⟩ := hvalid
    exact ⟨d', by simp [body, Act.run_bind, Item.text, Item.value, hx, hd, hd']⟩

/-- Where the text is stuck the body of the loop throws, and it throws this exception. -/
theorem run_body_stuck {t : Str} (h : Stuck t) (out : Str) :
    ((body out).run t).1 = .error .MarshallingException := by
  have hletter : letterX ≠ backslash := by decide
  cases h with
  | short => simp [body, Act.run_bind]
  | letter hback hx t => simp [body, Act.run_bind, hback, hx]
  | shortNumber => simp [body, Act.run_bind, hletter]
  | number hd t => simp [body, Act.run_bind, hletter, hd]

/-- One round of the loop on an item. -/
theorem run_loop_item {item : Item} (hvalid : item.Valid) {t : Str} (hcomplete : item.Complete t)
    (fuel : Nat) (out : Str) :
    (loop (fuel + 1) out).run (item.text ++ t) = (loop fuel (out ++ [item.value])).run t := by
  obtain ⟨c, hbody⟩ := run_body_item hvalid hcomplete out
  have hne : item.text ≠ [] := List.ne_nil_of_length_pos item.text_length_pos
  simp [loop, Act.run_bind, hbody, hne]

/-- And so does the loop, whatever it has put out before. -/
theorem run_loop_stuck {t : Str} (h : Stuck t) (fuel : Nat) (out : Str) :
    ((loop (fuel + 1) out).run t).1 = .error .MarshallingException := by
  have hbody := run_body_stuck h out
  have hne : t ≠ [] := by
    intro hnil
    subst hnil
    cases h
  cases hrun : (body out).run t with
  | mk r t' =>
    rw [hrun] at hbody
    obtain rfl : r = .error .MarshallingException := hbody
    simp [loop, Act.run_bind, hne, hrun]

/-- A run of the loop: what `unescape` gives is appended, and there is always enough fuel. -/
theorem run_loop {t : Str} {fuel : Nat} (hfuel : t.length < fuel) (out : Str) :
    ((loop fuel out).run t).1 =
      ((DBus.unescape t).map fun s => .ok (out ++ s)).getD (.error .MarshallingException) := by
  induction fuel generalizing t out with
  | zero => exact absurd hfuel (Nat.not_lt_zero _)
  | succ fuel ih =>
    obtain rfl | ⟨item, rest, hvalid, hcomplete, rfl⟩ | hstuck := front_cases t
    · simp [loop, Act.run_bind, DBus.unescape]
    · have hshort : rest.length < fuel := by
        have hpos := item.text_length_pos
        rw [List.length_append] at hfuel
        omega
      rw [run_loop_item hvalid hcomplete, ih hshort, unescape_item hvalid hcomplete]
      cases DBus.unescape rest with
      | none => rfl
      | some s => simp
    · rw [run_loop_stuck hstuck, unescape_of_stuck hstuck]
      rfl

/-- The loop does what `unescape` does on the bytes ahead, and no step of it is undefined. -/
theorem unescape_eq (t : Str) :
    unescape t = ((DBus.unescape t).map .ok).getD (.error .MarshallingException) := by
  have hrun := run_loop (Nat.lt_succ_self t.length) []
  rw [unescape, hrun]
  rfl

theorem unescape_of_none {t : Str} (h : DBus.unescape t = none) :
    unescape t = .error .MarshallingException := by
  rw [unescape_eq, h]
  rfl

theorem unescape_of_some {t s : Str} (h : DBus.unescape t = some s) : unescape t = .ok s := by
  rw [unescape_eq, h]
  rfl

/-- The other way around. -/
theorem unescape_ok_iff (t s : Str) : unescape t = .ok s ↔ DBus.unescape t = some s := by
  constructor
  · intro h
    cases hres : DBus.unescape t with
    | none =>
      rw [unescape_of_none hres] at h
      cases h
    | some s' =>
      rw [unescape_of_some hres] at h
      cases h
      rfl
  · exact unescape_of_some

end Walk

/-! ## Main results -/

/-- Escaping loses nothing, whatever the bytes next to each other are, and gives ASCII. -/
theorem escape_lossless (s : Str) :
    (∀ c ∈ escape s, c < 128) ∧ unescape (escape s) = some s :=
  ⟨fun _ hc => escape_lt hc, unescape_escape s⟩

/-- `Hihi::unescape` accepts the sequences of items and nothing else.  It gives one byte for
each item of the parse that takes the second digits, and everywhere else it throws: the
iterator stays in the string. -/
theorem unescape_accepts (t : Str) :
    ((∃ s, Walk.unescape t = .ok s) ↔
      ∃ items : List Item, (∀ item ∈ items, item.Valid) ∧ itemsText items = t) ∧
    (∀ s, Walk.unescape t = .ok s →
      ∃ items, Parses t items ∧ (∀ items', Parses t items' → items' = items) ∧
        s = items.map Item.value) ∧
    ∀ e, Walk.unescape t = .error e → e = .MarshallingException := by
  refine ⟨⟨?_, ?_⟩, ?_, ?_⟩
  · intro hok
    obtain ⟨s, hs⟩ := hok
    obtain ⟨items, hitems⟩ := parses_of_unescape ((Walk.unescape_ok_iff t s).mp hs)
    exact ⟨items, hitems.valid, hitems.text⟩
  · intro hitems
    obtain ⟨items, hvalid, htext⟩ := hitems
    -- any items of the text can be put together the way the walk reads them
    have hparses := parses_regroup hvalid htext
    exact ⟨_, Walk.unescape_of_some (unescape_of_parses hparses)⟩
  · intro s hs
    have hread := (Walk.unescape_ok_iff t s).mp hs
    obtain ⟨items, hitems⟩ := parses_of_unescape hread
    rw [unescape_of_parses hitems] at hread
    exact ⟨items, hitems, fun items' h' => h'.unique hitems, (Option.some.inj hread).symm⟩
  · intro e he
    cases hres : unescape t with
    | none =>
      rw [Walk.unescape_of_none hres] at he
      cases he
      rfl
    | some s =>
      rw [Walk.unescape_of_some hres] at he
      cases he

end Snapper.DBus
