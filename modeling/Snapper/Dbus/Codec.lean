import Snapper.Dbus.Types

/-!
# The codecs agree

What one side puts into a message the other side extracts: every operator appends values
that the operator of the receiver takes, in the same order and of the signatures it checks.
-/

namespace Snapper.DBus

open General

/-! ## Escapes -/

/-- The two digits of a byte are hexadecimal, have its value together, and are ASCII. -/
theorem hexDigits (c : UInt8) :
    isxdigit (hexDigit (c / 16)) = true ∧ isxdigit (hexDigit (c % 16)) = true ∧
      16 * hexValue (hexDigit (c / 16)) + hexValue (hexDigit (c % 16)) = c ∧
      hexDigit (c / 16) < 128 ∧ hexDigit (c % 16) < 128 ∧
      hexDigit (c / 16) ≠ 0 ∧ hexDigit (c % 16) ≠ 0 := by
  have hall : ∀ n : Fin 256, (fun c : UInt8 =>
      isxdigit (hexDigit (c / 16)) = true ∧ isxdigit (hexDigit (c % 16)) = true ∧
      16 * hexValue (hexDigit (c / 16)) + hexValue (hexDigit (c % 16)) = c ∧
      hexDigit (c / 16) < 128 ∧ hexDigit (c % 16) < 128 ∧
      hexDigit (c / 16) ≠ 0 ∧ hexDigit (c % 16) ≠ 0) (UInt8.ofFin n) := by
    decide +kernel
  exact hall c.toFin

theorem escape_cons (c : UInt8) (s : Str) :
    escape (c :: s) =
      (if c = backslash then [backslash, backslash]
        else if 127 < c then [backslash, letterX, hexDigit (c / 16), hexDigit (c % 16)]
        else [c]) ++ escape s := List.flatMap_cons

/-- Every byte string comes back from its escaped form. -/
theorem unescape_escape (s : Str) : unescape (escape s) = some s := by
  induction s with
  | nil => rfl
  | cons c s ih =>
    rw [escape_cons]
    split_ifs with hback hbig
    · rw [hback, List.cons_append, List.singleton_append, unescape_backslash, ih]
      rfl
    · -- both digits are there, so `unescape` takes two
      obtain ⟨hhigh, hlow, hvalue, -⟩ := hexDigits c
      show unescape (backslash :: letterX :: hexDigit (c / 16) :: hexDigit (c % 16) :: escape s) = _
      rw [unescape_hex hhigh hlow, ih, hvalue]
      rfl
    · rw [List.singleton_append, unescape_cons hback, ih]
      rfl

/-- What is sent for a string is ASCII, as `libdbus` demands valid UTF-8. -/
theorem escape_lt {s : Str} {c : UInt8} (h : c ∈ escape s) : c < 128 := by
  obtain ⟨c', -, hmem⟩ := List.mem_flatMap.mp h
  obtain ⟨-, -, -, hhigh, hlow, -⟩ := hexDigits c'
  split_ifs at hmem with hback hbig
  · simp only [List.mem_cons, List.not_mem_nil, or_false, or_self] at hmem
    simp [hmem, backslash]
  · simp only [List.mem_cons, List.not_mem_nil, or_false] at hmem
    obtain rfl | rfl | rfl | rfl := hmem
    · decide
    · decide
    · exact hhigh
    · exact hlow
  · obtain rfl := List.mem_singleton.mp hmem
    exact lt_of_le_of_lt (not_lt.mp hbig) (by decide)

/-- Escaping adds no NUL byte. -/
theorem nul_not_mem_escape {s : Str} (h : 0 ∉ s) : 0 ∉ escape s := by
  intro h0
  obtain ⟨c, hc, hmem⟩ := List.mem_flatMap.mp h0
  obtain ⟨-, -, -, -, -, hhigh, hlow⟩ := hexDigits c
  split_ifs at hmem with hback hbig
  · simp [backslash] at hmem
  · simp [backslash, letterX, hhigh.symm, hlow.symm] at hmem
  · exact h (List.mem_singleton.mp hmem ▸ hc)

/-! ## Agreement -/

section Agreement

variable {α β γ : Type} {sig sigs : Str} {c c' : Encode PUnit} {d : Decode α} {d' : α → Decode β}
  {a : α} {b : β}

/-- The values that an action appends to the innermost open container. -/
def Appends (c : Encode PUnit) (vs : List Value) : Prop :=
  ∀ container vals rest,
    c.run ⟨(container, vals) :: rest⟩ = (.ok ⟨⟩, ⟨(container, vals ++ vs) :: rest⟩)

/-- What `c` appends is what `d` reads as `a`, whatever follows. -/
def Agree (c : Encode PUnit) (d : Decode α) (a : α) : Prop :=
  ∃ vs, Appends c vs ∧ (∀ v ∈ vs, v.WellFormed) ∧
    ∀ more rest, d.run ⟨(vs ++ more) :: rest⟩ = (.ok a, ⟨more :: rest⟩)

/-- `Agree` on one value, which has this signature. -/
def AgreeAs (sig : Str) (c : Encode PUnit) (d : Decode α) (a : α) : Prop :=
  ∃ v, Appends c [v] ∧ v.WellFormed ∧ v.sig = sig ∧ Reads d v (.ok a)

/-- `Agree` on the fields of a struct, up to its end. -/
def AgreeFields (sigs : Str) (c : Encode PUnit) (d : Decode α) (a : α) : Prop :=
  ∃ vs, (∀ vals container outer rest,
      c.run ⟨(.struct, vals) :: (container, outer) :: rest⟩ =
        (.ok ⟨⟩, ⟨(container, outer ++ [.struct (vals ++ vs)]) :: rest⟩)) ∧
    (∀ v ∈ vs, v.WellFormed) ∧ Value.sigs vs = sigs ∧
    ∀ v more rest, d.run ⟨vs :: (v :: more) :: rest⟩ = (.ok a, ⟨more :: rest⟩)

theorem AgreeAs.agree (h : AgreeAs sig c d a) : Agree c d a := by
  obtain ⟨v, happends, hwf, -, hreads⟩ := h
  refine ⟨[v], happends, ?_, hreads⟩
  intro w hw
  obtain rfl := List.mem_singleton.mp hw
  exact hwf

theorem Agree.pure (a : α) : Agree (pure ⟨⟩) (pure a) a := by
  refine ⟨[], ?_, ?_, ?_⟩
  · intro container vals rest
    simp
  · simp
  · intro more rest
    rfl

/-- Client and daemon agree on two arguments in a row if they do on each. -/
theorem Agree.seq (h : Agree c d a) (h' : Agree c' (d' a) b) :
    Agree (c >>= fun _ => c') (d >>= d') b := by
  obtain ⟨vs, happends, hwf, hreads⟩ := h
  obtain ⟨vs', happends', hwf', hreads'⟩ := h'
  refine ⟨vs ++ vs', ?_, ?_, ?_⟩
  · intro container vals rest
    rw [Act.run_bind_ok (happends _ _ _), happends', List.append_assoc]
  · intro v hv
    exact (List.mem_append.mp hv).elim (hwf v) (hwf' v)
  · intro more rest
    rw [List.append_assoc, Act.run_bind_ok (hreads _ _), hreads']

/-- The last value of a message, and what the receiver makes of it. -/
theorem Agree.last (h : Agree c d a) (f : α → β) :
    Agree c (d >>= fun a => Pure.pure (f a)) (f a) := by
  obtain ⟨vs, happends, hwf, hreads⟩ := h
  refine ⟨vs, happends, hwf, ?_⟩
  intro more rest
  rw [Act.run_bind_ok (hreads _ _)]
  rfl

theorem AgreeAs.map (h : AgreeAs sig c d a) (f : α → β) :
    AgreeAs sig c (d >>= fun a => Pure.pure (f a)) (f a) := by
  obtain ⟨v, happends, hwf, hsig, hreads⟩ := h
  refine ⟨v, happends, hwf, hsig, ?_⟩
  intro vs rest
  rw [Act.run_bind_ok (hreads _ _)]
  rfl

/-! ### Structs -/

/-- At the end of a struct the one closes the container that the other leaves. -/
theorem AgreeFields.close (a : α) :
    AgreeFields [] closeContainer (Act.modify Hihi.closeRecurse >>= fun _ => Pure.pure a) a := by
  refine ⟨[], ?_, ?_, rfl, ?_⟩
  · intro vals container outer rest
    simp [closeContainer, Act.run_bind, Hoho.closed, Container.close, Hoho.append]
  · simp
  · intro v more rest
    rfl

/-- They agree on a field and the fields after it. -/
theorem AgreeFields.field (h : AgreeAs sig c d a) (h' : AgreeFields sigs c' (d' a) b) :
    AgreeFields (sig ++ sigs) (c >>= fun _ => c') (d >>= d') b := by
  obtain ⟨v, happends, hwf, hsig, hreads⟩ := h
  obtain ⟨vs, happends', hwf', hsigs, hreads'⟩ := h'
  refine ⟨v :: vs, ?_, ?_, ?_, ?_⟩
  · intro vals container outer rest
    rw [Act.run_bind_ok (happends _ _ _), happends', List.append_assoc, List.singleton_append]
  · exact List.forall_mem_cons.mpr ⟨hwf, hwf'⟩
  · rw [Value.sigs, hsig, hsigs]
  · intro w more rest
    rw [Act.run_bind_ok (hreads _ _), hreads']

/-- They agree on a struct if they do on its fields. -/
theorem AgreeFields.struct (h : AgreeFields sigs c d a) :
    AgreeAs (str "(" ++ (sigs ++ str ")")) (openContainer .struct >>= fun _ => c)
      (Act.modify Hihi.openRecurse >>= fun _ => d) a := by
  obtain ⟨vs, happends, hwf, hsigs, hreads⟩ := h
  refine ⟨.struct vs, ?_, ?_, ?_, ?_⟩
  · intro container vals rest
    exact happends [] container vals rest
  · rw [Value.WellFormed, Value.allWellFormed_iff]
    exact hwf
  · rw [Value.sig, hsigs]
  · intro more rest
    exact hreads (.struct vs) more rest

/-! ### Arrays -/

/-- What a run of the operator on a value alone reads. -/
def readAlone (d : Decode α) (v : Value) : Except Nat α :=
  match (d.run ⟨[[v]]⟩).1 with
  | .ok a => .ok a
  | .error _ => .error 0

theorem readAlone_eq {v : Value} (h : Reads d v (.ok a)) : readAlone d v = .ok a := by
  simp [readAlone, h [] []]

/-- Each element is put as one value, which an iteration of the receiver takes. -/
def AgreeElement (sig : Str) (c : Encode PUnit) (body : α → Decode α) (next : α → α) : Prop :=
  ∃ v, Appends c [v] ∧ v.WellFormed ∧ v.sig = sig ∧ ∀ data, Reads (body data) v (.ok (next data))

/-- The elements in a row. -/
private theorem agree_elements {putOne : γ → Encode PUnit} {body : α → Decode α}
    {next : α → γ → α} {l : List γ}
    (h : ∀ x ∈ l, AgreeElement sig (putOne x) body fun data => next data x) :
    ∃ vs, Appends (putAll putOne l) vs ∧ (∀ v ∈ vs, v.WellFormed ∧ v.sig = sig) ∧
      (∀ v ∈ vs, ∀ data, Reads (body data) v (readAlone (body data) v)) ∧
      ∀ data, vs.foldlM (fun data v => readAlone (body data) v) data =
        .ok (l.foldl next data) := by
  -- element by element, each appended to the array that is open
  induction l with
  | nil =>
    refine ⟨[], ?_, by simp, by simp, fun data => rfl⟩
    intro container vals rest
    simp [putAll]
  | cons x l ih =>
    obtain ⟨v, happends, hwf, hsig, hreads⟩ := h x (List.mem_cons_self ..)
    obtain ⟨vs, happends', hwf', hreads', hfold⟩ := ih fun y hy => h y (List.mem_cons_of_mem x hy)
    refine ⟨v :: vs, ?_, ?_, ?_, ?_⟩
    · intro container vals rest
      rw [putAll, Act.run_bind_ok (happends _ _ _), happends', List.append_assoc,
        List.singleton_append]
    · exact List.forall_mem_cons.mpr ⟨⟨hwf, hsig⟩, hwf'⟩
    · refine List.forall_mem_cons.mpr ⟨fun data => ?_, hreads'⟩
      rw [readAlone_eq (hreads data)]
      exact hreads data
    · intro data
      rw [List.foldlM_cons, readAlone_eq (hreads data)]
      exact hfold (next data x)

/-- An array is written and read alike if its elements are. -/
theorem AgreeAs.array {putOne : γ → Encode PUnit} {body : α → Decode α} {next : α → γ → α}
    {l : List γ} (h : ∀ x ∈ l, AgreeElement sig (putOne x) body fun data => next data x)
    (data : α) :
    AgreeAs (str "a" ++ sig) (putArray sig putOne l) (extractArray body data)
      (l.foldl next data) := by
  obtain ⟨vs, happends, hwf, hreads, hfold⟩ := agree_elements h
  refine ⟨.array sig vs, ?_, ?_, rfl, ?_⟩
  · intro container vals rest
    have hopened := happends (.array sig) [] ((container, vals) :: rest)
    -- the container is opened, filled and closed into one value
    have hrun : (putArray sig putOne l).run ⟨(container, vals) :: rest⟩ =
        (putAll putOne l >>= fun _ => closeContainer).run
          ⟨(.array sig, []) :: (container, vals) :: rest⟩ := rfl
    rw [hrun, Act.run_bind_ok hopened]
    simp [closeContainer, Act.run_bind, Hoho.closed, Container.close, Hoho.append]
  · rw [Value.WellFormed, Value.allWellFormed_iff]
    exact ⟨fun v hv => (hwf v hv).2, fun v hv => (hwf v hv).1⟩
  · have harray : Reads (extractArray body data) (.array sig vs) _ :=
      extractArray_reads hreads data
    rw [hfold data] at harray
    exact harray

end Agreement

/-! ## The types -/

section Types

variable {α β : Type}

/-- They agree on a basic value that is appended and read as one of the same type. -/
theorem agree_basic [Put α] [Extract α] {v : Value} {get : Value → Option α} {a : α}
    (hput : (put a : Encode PUnit) = appendBasic v) (hextract : (extract : Decode α) = getBasic get)
    (hget : get v = some a) (hwf : v.WellFormed) :
    AgreeAs v.sig (put a) (extract : Decode α) a := by
  refine ⟨v, ?_, hwf, rfl, ?_⟩
  · intro container vals rest
    rw [hput]
    rfl
  · rw [hextract]
    exact getBasic_run_some hget

theorem agree_bool (b : Bool) : AgreeAs (str "b") (put b) (extract : Decode Bool) b :=
  agree_basic (v := .boolean b) rfl rfl rfl trivial

theorem agree_uint16 (n : UInt16) : AgreeAs (str "q") (put n) (extract : Decode UInt16) n :=
  agree_basic (v := .uint16 n) rfl rfl rfl trivial

theorem agree_uint32 (n : UInt32) : AgreeAs (str "u") (put n) (extract : Decode UInt32) n :=
  agree_basic (v := .uint32 n) rfl rfl rfl trivial

theorem agree_time (n : Int64) : AgreeAs (str "x") (put n) (extract : Decode Int64) n :=
  agree_basic (v := .int64 n) rfl rfl rfl trivial

theorem reads_escape {s : Str} (h : 0 ∉ s) :
    Reads (extract : Decode Str) (.string (cstr (escape s))) (.ok s) := by
  have hreads := extract_string_reads (.string (cstr (escape s)))
  rw [cstr_of_no_nul (nul_not_mem_escape h)] at hreads ⊢
  rw [stringValue, unescape_escape] at hreads
  exact hreads

theorem agree_string {s : Str} (h : 0 ∉ s) :
    AgreeAs (str "s") (put s) (extract : Decode Str) s := by
  refine ⟨.string (cstr (escape s)), ?_, trivial, rfl, reads_escape h⟩
  intro container vals rest
  rfl

theorem agree_type (type : SnapshotType) :
    AgreeAs (str "q") (put type) (extract : Decode SnapshotType) type := by
  have hnumber : typeOfNumber (typeNumber type) = type := by cases type <;> rfl
  have hagree := (agree_uint16 (typeNumber type)).map typeOfNumber
  rw [hnumber] at hagree
  exact hagree

/-- A map without NUL in its keys and values. -/
def NulFreeMap (m : StrMap) : Prop := ∀ e ∈ m.entries, 0 ∉ e.1 ∧ 0 ∉ e.2

instance (m : StrMap) : Decidable (NulFreeMap m) :=
  inferInstanceAs (Decidable (∀ e ∈ m.entries, 0 ∉ e.1 ∧ 0 ∉ e.2))

/-- A dictionary entry is written as a struct of two strings and read into the map. -/
private theorem agree_entry {e : Str × Str} (h : 0 ∉ e.1 ∧ 0 ∉ e.2) :
    AgreeElement (str "{ss}") (putEntry e) extractEntry fun data => data.set e.1 e.2 := by
  refine ⟨.dictEntry (.string (cstr (escape e.1))) (.string (cstr (escape e.2))), ?_,
    ⟨trivial, trivial⟩, Value.sig_eq_ss.mpr ⟨_, _, rfl⟩, ?_⟩
  · intro container vals rest
    rfl
  · intro data
    have hreads := extractEntry_reads data
      (.dictEntry (.string (cstr (escape e.1))) (.string (cstr (escape e.2))))
    rw [cstr_of_no_nul (nul_not_mem_escape h.1), cstr_of_no_nul (nul_not_mem_escape h.2)] at *
    simp only [entryStep, unescape_escape] at hreads
    exact hreads

/-- They agree on a map: its entries are written in order, and reading them one by one makes it
again. -/
theorem agree_map {m : StrMap} (h : NulFreeMap m) :
    AgreeAs (str "a{ss}") (put m) (extract : Decode StrMap) m := by
  have hagree := AgreeAs.array (fun e he => agree_entry (h e he)) (.empty : StrMap)
  -- the receiver makes the map again from its entries
  have hmade : m.entries.foldl (fun data e => data.set e.1 e.2) .empty = m :=
    SortedMap.ofList_entries m
  rw [hmade] at hagree
  exact hagree

/-- They agree on a list of records if they do on each, where the reader makes its own view of
them. -/
theorem agree_list [TypeInfo α] [TypeInfo β] [Put α] [Extract β] {l : List α} (view : α → β)
    (hsig : TypeInfo.signature α = TypeInfo.signature β)
    (h : ∀ x ∈ l, AgreeAs (TypeInfo.signature α) (put x) (extract : Decode β) (view x)) :
    AgreeAs (str "a" ++ TypeInfo.signature α) (put l) (extract : Decode (List β))
      (l.map view) := by
  have helement : ∀ x ∈ l, AgreeElement (TypeInfo.signature α) (put x)
      (extractElement : List β → Decode (List β)) fun data => data ++ [view x] := by
    intro x hx
    obtain ⟨v, happends, hwf, hv, hreads⟩ := h x hx
    exact ⟨v, happends, hwf, hv, extractElement_reads (hv.trans hsig) hreads⟩
  have hagree := AgreeAs.array helement []
  have hfold : ∀ data : List β,
      l.foldl (fun data x => data ++ [view x]) data = data ++ l.map view := by
    clear h helement hagree
    induction l with
    | nil => simp
    | cons x l ih => simp [ih]
  rw [hfold, List.nil_append] at hagree
  exact hagree

end Types

/-! ## Replies -/

/-- What the client has of a config. -/
def toXConfigInfo (data : ConfigInfo) : XConfigInfo where
  configName := data.configName
  subvolume := data.subvolume
  raw := data.raw

/-- What the client has of a snapshot. -/
def toXSnapshot (data : Snapshot) : XSnapshot where
  type := data.type
  num := data.num.toNat
  date := data.date.toInt
  uid := data.uid.toNat
  preNum := data.preNum.toNat
  description := data.description
  cleanup := data.cleanup
  userdata := data.userdata

/-- What the client has of a file. -/
def toXFile (data : SentFile) : XFile where
  name := data.name
  status := data.preToPostStatus.toNat

structure NulFreeConfig (data : ConfigInfo) : Prop where
  configName : 0 ∉ data.configName
  subvolume : 0 ∉ data.subvolume
  raw : NulFreeMap data.raw

structure NulFreeSnapshot (data : Snapshot) : Prop where
  description : 0 ∉ data.description
  cleanup : 0 ∉ data.cleanup
  userdata : NulFreeMap data.userdata

/-- They agree on the data of a config. -/
theorem agree_config {data : ConfigInfo} (h : NulFreeConfig data) :
    AgreeAs (str "(ssa{ss})") (put data) (extract : Decode XConfigInfo) (toXConfigInfo data) := by
  show AgreeAs (str "(" ++ ((str "s" ++ (str "s" ++ (str "a{ss}" ++ []))) ++ str ")")) _ _ _
  apply AgreeFields.struct
  apply AgreeFields.field (agree_string h.configName)
  apply AgreeFields.field (agree_string h.subvolume)
  apply AgreeFields.field (agree_map h.raw)
  exact AgreeFields.close (toXConfigInfo data)

/-- They agree on the data of a snapshot. -/
theorem agree_snapshot {data : Snapshot} (h : NulFreeSnapshot data) :
    AgreeAs (str "(uquxussa{ss})") (put data) (extract : Decode XSnapshot) (toXSnapshot data) := by
  show AgreeAs (str "(" ++ ((str "u" ++ (str "q" ++ (str "u" ++ (str "x" ++ (str "u" ++
    (str "s" ++ (str "s" ++ (str "a{ss}" ++ [])))))))) ++ str ")")) _ _ _
  apply AgreeFields.struct
  apply AgreeFields.field (agree_uint32 data.num)
  apply AgreeFields.field (agree_type data.type)
  apply AgreeFields.field (agree_uint32 data.preNum)
  apply AgreeFields.field (agree_time data.date)
  apply AgreeFields.field (agree_uint32 data.uid)
  apply AgreeFields.field (agree_string h.description)
  apply AgreeFields.field (agree_string h.cleanup)
  apply AgreeFields.field (agree_map h.userdata)
  exact AgreeFields.close (toXSnapshot data)

theorem agree_file {data : SentFile} (h : 0 ∉ data.name) :
    AgreeAs (str "(su)") (put data) (extract : Decode XFile) (toXFile data) := by
  show AgreeAs (str "(" ++ ((str "s" ++ (str "u" ++ [])) ++ str ")")) _ _ _
  apply AgreeFields.struct
  apply AgreeFields.field (agree_string h)
  apply AgreeFields.field (agree_uint32 data.preToPostStatus)
  exact AgreeFields.close (toXFile data)

/-! ## Requests -/

namespace Command

/-- What the handler of the method is to get. -/
def vals : (command : Command) → Args (command.method.args.getD [])
  | listXconfigs => ()
  | getXconfig configName => (configName, ())
  | createXconfig configName subvolume fstype templateName =>
    (configName, subvolume, fstype, templateName, ())
  | deleteXconfig configName => (configName, ())
  | listXsnapshots configName => (configName, ())
  | getXsnapshot configName num => (configName, num, ())
  | setXsnapshot configName num data =>
    (configName, num, data.description, data.cleanup, data.userdata, ())
  | createSingleXsnapshot configName description cleanup userdata =>
    (configName, description, cleanup, userdata, ())
  | createPreXsnapshot configName description cleanup userdata =>
    (configName, description, cleanup, userdata, ())
  | createPostXsnapshot configName prenum description cleanup userdata =>
    (configName, prenum, description, cleanup, userdata, ())
  | deleteXsnapshots configName nums => (configName, nums, ())
  | mountXsnapshots configName num userRequest => (configName, num, userRequest, ())
  | umountXsnapshots configName num userRequest => (configName, num, userRequest, ())
  | getXmountPoint configName num => (configName, num, ())
  | createXcomparison configName number1 number2 => (configName, number1, number2, ())
  | getXfiles configName number1 number2 => (configName, number1, number2, ())
  | xdebug => ()

/-- The strings of the arguments are without NUL. -/
def NulFree : Command → Prop
  | listXconfigs => True
  | getXconfig configName => 0 ∉ configName
  | createXconfig configName subvolume fstype templateName =>
    0 ∉ configName ∧ 0 ∉ subvolume ∧ 0 ∉ fstype ∧ 0 ∉ templateName
  | deleteXconfig configName => 0 ∉ configName
  | listXsnapshots configName => 0 ∉ configName
  | getXsnapshot configName _ => 0 ∉ configName
  | setXsnapshot configName _ data =>
    0 ∉ configName ∧ 0 ∉ data.description ∧ 0 ∉ data.cleanup ∧ NulFreeMap data.userdata
  | createSingleXsnapshot configName description cleanup userdata =>
    0 ∉ configName ∧ 0 ∉ description ∧ 0 ∉ cleanup ∧ NulFreeMap userdata
  | createPreXsnapshot configName description cleanup userdata =>
    0 ∉ configName ∧ 0 ∉ description ∧ 0 ∉ cleanup ∧ NulFreeMap userdata
  | createPostXsnapshot configName _ description cleanup userdata =>
    0 ∉ configName ∧ 0 ∉ description ∧ 0 ∉ cleanup ∧ NulFreeMap userdata
  | deleteXsnapshots configName _ => 0 ∉ configName
  | mountXsnapshots configName _ _ => 0 ∉ configName
  | umountXsnapshots configName _ _ => 0 ∉ configName
  | getXmountPoint configName _ => 0 ∉ configName
  | createXcomparison configName _ _ => 0 ∉ configName
  | getXfiles configName _ _ => 0 ∉ configName
  | xdebug => True

end Command

section Requests

variable {arg : Arg} {args : List Arg} {sig : Str} {c c' : Encode PUnit} {val : arg.Val}
  {vals : Args args}

/-- One more argument in front. -/
theorem agree_arg (h : AgreeAs sig c arg.extract val) (h' : Agree c' (extractArgs args) vals) :
    Agree (c >>= fun _ => c') (extractArgs (arg :: args)) (val, vals) :=
  h.agree.seq (h'.last fun vals => (val, vals))

/-- The last argument. -/
theorem agree_arg_last (h : AgreeAs sig c arg.extract val) :
    Agree c (extractArgs [arg]) (val, ()) :=
  h.agree.last fun val => (val, ())

theorem agree_numbers (nums : List UInt32) :
    AgreeAs (str "au") (put nums) (extract : Decode (List UInt32)) nums := by
  have hagree : AgreeAs _ (put nums) (extract : Decode (List UInt32)) (nums.map id) :=
    agree_list id rfl fun n _ => agree_uint32 n
  rw [List.map_id] at hagree
  exact hagree

/-- Client and daemon agree on the arguments of every command: what is appended is what the
handler extracts, argument by argument. -/
theorem agree_command {command : Command} (h : command.NulFree) :
    Agree command.append (extractArgs (command.method.args.getD [])) command.vals := by
  -- the nesting is the order of the arguments; the last one ends the message
  cases command with
  | listXconfigs => exact .pure _
  | getXconfig configName => exact agree_arg_last (agree_string h)
  | createXconfig configName subvolume fstype templateName =>
    obtain ⟨hname, hsubvolume, hfstype, htemplate⟩ := h
    exact agree_arg (agree_string hname) (agree_arg (agree_string hsubvolume)
      (agree_arg (agree_string hfstype) (agree_arg_last (agree_string htemplate))))
  | deleteXconfig configName => exact agree_arg_last (agree_string h)
  | listXsnapshots configName => exact agree_arg_last (agree_string h)
  | getXsnapshot configName num =>
    exact agree_arg (agree_string h) (agree_arg_last (agree_uint32 num))
  | setXsnapshot configName num data =>
    obtain ⟨hname, hdescription, hcleanup, huserdata⟩ := h
    exact agree_arg (agree_string hname) (agree_arg (agree_uint32 num)
      (agree_arg (agree_string hdescription) (agree_arg (agree_string hcleanup)
        (agree_arg_last (agree_map huserdata)))))
  | createSingleXsnapshot configName description cleanup userdata =>
    obtain ⟨hname, hdescription, hcleanup, huserdata⟩ := h
    exact agree_arg (agree_string hname) (agree_arg (agree_string hdescription)
      (agree_arg (agree_string hcleanup) (agree_arg_last (agree_map huserdata))))
  | createPreXsnapshot configName description cleanup userdata =>
    obtain ⟨hname, hdescription, hcleanup, huserdata⟩ := h
    exact agree_arg (agree_string hname) (agree_arg (agree_string hdescription)
      (agree_arg (agree_string hcleanup) (agree_arg_last (agree_map huserdata))))
  | createPostXsnapshot configName prenum description cleanup userdata =>
    obtain ⟨hname, hdescription, hcleanup, huserdata⟩ := h
    exact agree_arg (agree_string hname) (agree_arg (agree_uint32 prenum)
      (agree_arg (agree_string hdescription) (agree_arg (agree_string hcleanup)
        (agree_arg_last (agree_map huserdata)))))
  | deleteXsnapshots configName nums =>
    exact agree_arg (agree_string h) (agree_arg_last (agree_numbers nums))
  | mountXsnapshots configName num userRequest =>
    exact agree_arg (agree_string h) (agree_arg (agree_uint32 num)
      (agree_arg_last (agree_bool userRequest)))
  | umountXsnapshots configName num userRequest =>
    exact agree_arg (agree_string h) (agree_arg (agree_uint32 num)
      (agree_arg_last (agree_bool userRequest)))
  | getXmountPoint configName num =>
    exact agree_arg (agree_string h) (agree_arg_last (agree_uint32 num))
  | createXcomparison configName number1 number2 =>
    exact agree_arg (agree_string h) (agree_arg (agree_uint32 number1)
      (agree_arg_last (agree_uint32 number2)))
  | getXfiles configName number1 number2 =>
    exact agree_arg (agree_string h) (agree_arg (agree_uint32 number1)
      (agree_arg_last (agree_uint32 number2)))
  | xdebug => exact .pure _

end Requests

/-! ## Messages -/

/-- Appending with `c` makes a message with well-formed arguments, from which `d` reads `a`
and then stands at the end. -/
def Transmits {α : Type} (c : Encode PUnit) (d : Decode α) (a : α) : Prop :=
  ∃ args, c.run ⟨[(.message, [])]⟩ = (.ok ⟨⟩, ⟨[(.message, args)]⟩) ∧
    Value.AllWellFormed args ∧ d.run ⟨[args]⟩ = (.ok a, ⟨[[]]⟩)

theorem Agree.transmits {α : Type} {c : Encode PUnit} {d : Decode α} {a : α} (h : Agree c d a) :
    Transmits c d a := by
  obtain ⟨vs, happends, hwf, hreads⟩ := h
  refine ⟨vs, happends _ _ _, Value.allWellFormed_iff.mpr hwf, ?_⟩
  have hread := hreads [] []
  rwa [List.append_nil] at hread

/-- What is put into the replies with lists and into the requests is what the other side
extracts. -/
theorem codecs_agree :
    (∀ configs : List ConfigInfo, (∀ data ∈ configs, NulFreeConfig data) →
      Transmits (put configs) (extract : Decode (List XConfigInfo)) (configs.map toXConfigInfo)) ∧
    (∀ snapshots : List Snapshot, (∀ data ∈ snapshots, NulFreeSnapshot data) →
      Transmits (put snapshots) (extract : Decode (List XSnapshot)) (snapshots.map toXSnapshot)) ∧
    (∀ files : List SentFile, (∀ data ∈ files, 0 ∉ data.name) →
      Transmits (put files) (extract : Decode (List XFile)) (files.map toXFile)) ∧
    (∀ command : Command, command.NulFree →
      Transmits command.append (extractArgs (command.method.args.getD [])) command.vals) := by
  refine ⟨fun configs h => ?_, fun snapshots h => ?_, fun files h => ?_, fun command h => ?_⟩
  · exact (agree_list toXConfigInfo rfl fun data hdata =>
      agree_config (h data hdata)).agree.transmits
  · exact (agree_list toXSnapshot rfl fun data hdata =>
      agree_snapshot (h data hdata)).agree.transmits
  · exact (agree_list toXFile rfl fun data hdata => agree_file (h data hdata)).agree.transmits
  · exact (agree_command h).transmits

/-- A snapshot number list for the deletion of two snapshots. -/
theorem codecs_agree_delete :
    Transmits (Command.deleteXsnapshots (str "root") [3, 4]).append
      (extractArgs [.string, .uint32s]) (str "root", [3, 4], ()) :=
  codecs_agree.2.2.2 (.deleteXsnapshots (str "root") [3, 4]) (by simp [Command.NulFree, str])

end Snapper.DBus
