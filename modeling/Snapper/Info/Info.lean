import Snapper.Info.Xml
import Snapper.Server.Types

/-!
# The info file of a snapshot

`Snapshot::writeInfo` makes the document of `info.xml`, and the loop of `Snapshots::read`
makes a snapshot of such a document and of the name of its directory.

## Main results

- `readInfo_writeInfo`: the document of a snapshot gives the snapshot back
-/

namespace Snapper

open General

/-! ## Types of snapshots -/

/-- `toString`, from `snapshot_type_names` -/
def SnapshotType.toStr : SnapshotType → Str
  | SINGLE => str "single"
  | PRE => str "pre"
  | POST => str "post"

/-- `toValue` -/
def SnapshotType.ofStr (s : Str) : Option SnapshotType :=
  [SINGLE, PRE, POST].find? fun type => type.toStr = s

@[simp] theorem SnapshotType.ofStr_toStr (type : SnapshotType) : ofStr type.toStr = some type := by
  cases type <;> rfl

/-! ## Writing -/

/-- The `userdata` element of a key and its value. -/
def userdataChild (e : Str × Str) : XmlNode :=
  .element (str "userdata") [textChild (str "key") e.1, textChild (str "value") e.2]

/-- The children of the root element, in the order in which `writeInfo` makes them.
`datetime` is the function of that name, for UTC and the classic locale. -/
def Snapshot.infoNodes (datetime : Int64 → Str) (s : Snapshot) : List XmlNode :=
  [textChild (str "type") s.type.toStr,
    numberChild (str "num") s.num,
    textChild (str "date") (datetime s.date),
    numberChild (str "uid") s.uid] ++
  (if s.type = .POST then [numberChild (str "pre_num") s.preNum] else []) ++
  (if s.description ≠ [] then [textChild (str "description") s.description] else []) ++
  (if s.cleanup ≠ [] then [textChild (str "cleanup") s.cleanup] else []) ++
  s.userdata.entries.map userdataChild

/-- The document of `Snapshot::writeInfo` -/
def Snapshot.writeInfo (datetime : Int64 → Str) (s : Snapshot) : XmlNode :=
  .element (str "snapshot") (s.infoNodes datetime)

/-! ## Reading -/

/-- One round of the loop over the `userdata` elements. -/
def addUserdata (userdata : StrMap) (nodes : List XmlNode) : StrMap :=
  let key := (getChildValue (str "key") nodes).getD []
  let value := (getChildValue (str "value") nodes).getD []
  if key = [] then userdata else userdata.set key value

/-- The optional values of an `info.xml`. -/
def Snapshot.readFields (node : List XmlNode) (s : Snapshot) : Snapshot :=
  { s with
    uid := getChildNumber (str "uid") node s.uid
    preNum := getChildNumber (str "pre_num") node s.preNum
    description := (getChildValue (str "description") node).getD s.description
    cleanup := (getChildValue (str "cleanup") node).getD s.cleanup
    userdata := (getChildNodes (str "userdata") node).foldl addUserdata s.userdata }

/-- One round of the loop of `Snapshots::read`, from the root element on; `none` where the
snapshot is not added.  `unset` is what the variable `num` holds before it is set. -/
def readInfo (scanDatetime : Str → Int64) (checkSnapshot : UInt32 → Bool) (unset : UInt32)
    (name : Name) (root : List XmlNode) : Option Snapshot :=
  let node := getChildNode (str "snapshot") root
  match (getChildValue (str "type") node).bind SnapshotType.ofStr with
  | none => none
  | some type =>
    match getChildValue (str "num") node with
    | none => none
    | some tmp =>
      let num := extract tmp unset
      if num = 0 then none
      else
        match getChildValue (str "date") node with
        | none => none
        | some tmp =>
          let date := scanDatetime tmp
          if date = -1 then none
          else
            -- the name of the directory is read into `num`
            if extract name num ≠ num then none
            else
              let snapshot := (Snapshot.new type num date).readFields node
              if checkSnapshot snapshot.num then some snapshot else none

/-- A date of the years 1970 to 9999 -/
def InRange (date : Int64) : Prop := 0 ≤ date.toInt ∧ date.toInt ≤ 253402300799

instance (date : Int64) : Decidable (InRange date) := inferInstanceAs (Decidable (_ ∧ _))

/-- What is relied on of `strftime` and `strptime`: for these years they are inverse, and the
text is printable. -/
structure DatesFaithful (datetime : Int64 → Str) (scanDatetime : Str → Int64) : Prop where
  inverse : ∀ date, InRange date → scanDatetime (datetime date) = date
  ascii : ∀ date, InRange date → ∀ b ∈ datetime date, 32 ≤ b ∧ b < 127

/-- A snapshot with the data of another one. -/
structure Snapshot.SameInfo (s s' : Snapshot) : Prop where
  num : s'.num = s.num
  type : s'.type = s.type
  date : s'.date = s.date
  uid : s'.uid = s.uid
  preNum : s'.preNum = s.preNum
  description : s'.description = s.description
  cleanup : s'.cleanup = s.cleanup
  userdata : s'.userdata = s.userdata

/-! ## The document is read back -/

/-- The strings of a snapshot have no NUL. -/
structure Snapshot.NoNul (s : Snapshot) : Prop where
  description : 0 ∉ s.description
  cleanup : 0 ∉ s.cleanup
  userdata : ∀ e ∈ s.userdata.entries, 0 ∉ e.1 ∧ 0 ∉ e.2

/-- What the requests see to: only a post snapshot has a number of a pre snapshot, and no key
is empty. -/
structure Snapshot.Storable (s : Snapshot) : Prop where
  preNum : s.type ≠ .POST → s.preNum = 0
  keys : ∀ e ∈ s.userdata.entries, e.1 ≠ []

/-- A child with a text, as it is read from a file. -/
def shownChild (name value : Str) : XmlNode :=
  .element name (if value = [] then [] else [.text value])

theorem textChild_shown {name value : Str} (h : 0 ∉ value) :
    (textChild name value).shown = shownChild name value := by
  rw [textChild, cstr_of_no_nul h, shownChild]
  cases value <;> rfl

@[simp] theorem getChildValue_shownChild_self {name value : Str} {nodes : List XmlNode} :
    getChildValue name (shownChild name value :: nodes) = some value := by
  by_cases h : value = []
  · simp [shownChild, h]
  · simp [shownChild, h]

theorem getChildValue_shownChild {name n value : Str} {nodes : List XmlNode} (h : n ≠ name) :
    getChildValue name (shownChild n value :: nodes) = getChildValue name nodes :=
  getChildValue_skip h

theorem getChildNodes_shownChild {name n value : Str} {nodes : List XmlNode} (h : n ≠ name) :
    getChildNodes name (shownChild n value :: nodes) = getChildNodes name nodes :=
  getChildNodes_skip h

/-- A `userdata` element, as it is read from a file. -/
def shownUserdata (e : Str × Str) : XmlNode :=
  .element (str "userdata") [shownChild (str "key") e.1, shownChild (str "value") e.2]

/-- Key and value of an entry are shown as they are written. -/
theorem userdataChild_shown {e : Str × Str} (h : 0 ∉ e.1 ∧ 0 ∉ e.2) :
    (userdataChild e).shown = shownUserdata e := by
  have hkey : (textChild (str "key") e.1).shown = _ := textChild_shown h.1
  have hvalue : (textChild (str "value") e.2).shown = _ := textChild_shown h.2
  rw [userdataChild, XmlNode.shown, XmlNode.shownAll_elements, List.map_cons, List.map_singleton,
    hkey, hvalue]
  · rfl
  · intro node hnode
    rcases List.mem_cons.mp hnode with rfl | hnode
    · exact ⟨_, _, rfl⟩
    · exact ⟨_, _, List.mem_singleton.mp hnode⟩

/-- The children of the root element, as they are read from a file. -/
def Snapshot.shownNodes (datetime : Int64 → Str) (s : Snapshot) : List XmlNode :=
  [shownChild (str "type") s.type.toStr,
    shownChild (str "num") (decString s.num.toNat),
    shownChild (str "date") (datetime s.date),
    shownChild (str "uid") (decString s.uid.toNat)] ++
  (if s.type = .POST then [shownChild (str "pre_num") (decString s.preNum.toNat)] else []) ++
  (if s.description ≠ [] then [shownChild (str "description") s.description] else []) ++
  (if s.cleanup ≠ [] then [shownChild (str "cleanup") s.cleanup] else []) ++
  s.userdata.entries.map shownUserdata

theorem no_nul_of_ascii {s : Str} (h : ∀ b ∈ s, 32 ≤ b ∧ b < 127) : 0 ∉ s := fun hmem =>
  absurd (h 0 hmem).1 (by decide)

theorem no_nul_decString (n : Nat) : 0 ∉ decString n := fun hmem =>
  absurd (isDigit_of_mem_decString hmem) (by decide)

theorem toStr_ascii (type : SnapshotType) : ∀ b ∈ type.toStr, 32 ≤ b ∧ b < 127 := by
  cases type <;> exact forall_mem_of_all (by decide)

theorem no_nul_toStr (type : SnapshotType) : 0 ∉ type.toStr := no_nul_of_ascii (toStr_ascii type)

/-- Every node that `writeInfo` makes is an element. -/
theorem infoNodes_element {datetime : Int64 → Str} {s : Snapshot} :
    ∀ node ∈ s.infoNodes datetime, ∃ name children, node = .element name children := by
  intro node hnode
  simp only [Snapshot.infoNodes, List.mem_append, List.mem_cons, List.not_mem_nil, or_false,
    List.mem_map, textChild, numberChild, userdataChild] at hnode
  rcases hnode with (((hnode | hnode) | hnode) | hnode) | ⟨e, -, rfl⟩
  · rcases hnode with rfl | rfl | rfl | rfl <;> exact ⟨_, _, rfl⟩
  · split at hnode <;> simp at hnode
    exact ⟨_, _, hnode⟩
  · split at hnode <;> simp at hnode
    exact ⟨_, _, hnode⟩
  · split at hnode <;> simp at hnode
    exact ⟨_, _, hnode⟩
  · exact ⟨_, _, rfl⟩

/-- An optional child stays optional. -/
theorem map_shown_ite {p : Prop} [Decidable p] {name value : Str} (h : 0 ∉ value) :
    (if p then [textChild name value] else []).map XmlNode.shown =
      if p then [shownChild name value] else [] := by
  split
  · rw [List.map_singleton, textChild_shown h]
  · rfl

/-- So are all nodes of an info, in their order. -/
theorem infoNodes_shown {datetime : Int64 → Str} {s : Snapshot} (hnul : s.NoNul)
    (hdate : 0 ∉ datetime s.date) :
    XmlNode.shownAll (s.infoNodes datetime) = s.shownNodes datetime := by
  rw [XmlNode.shownAll_elements infoNodes_element, Snapshot.infoNodes, Snapshot.shownNodes]
  simp only [List.map_append, numberChild]
  have huserdata : (s.userdata.entries.map userdataChild).map XmlNode.shown =
      s.userdata.entries.map shownUserdata := by
    rw [List.map_map]
    exact List.map_congr_left fun e he => userdataChild_shown (hnul.userdata e he)
  rw [map_shown_ite (no_nul_decString _), map_shown_ite hnul.description,
    map_shown_ite hnul.cleanup, huserdata]
  simp only [List.map_cons, List.map_nil, textChild_shown (no_nul_toStr _),
    textChild_shown (no_nul_decString _), textChild_shown hdate]

/-! ## The values of the document -/

/-- The first child of a name is looked for in the one list and then in the other. -/
theorem getChildValue_append {name : Str} {l l' : List XmlNode} :
    getChildValue name (l ++ l') = (getChildValue name l).or (getChildValue name l') := by
  induction l with
  | nil => rfl
  | cons node l ih =>
    cases node with
    | element n children =>
      by_cases h : n = name
      · simp [getChildValue, h]
      · simp [getChildValue, h, ih]
    | text content => simpa [getChildValue] using ih

/-- All children of a name are those of the one list and those of the other. -/
theorem getChildNodes_append {name : Str} {l l' : List XmlNode} :
    getChildNodes name (l ++ l') = getChildNodes name l ++ getChildNodes name l' := by
  induction l with
  | nil => rfl
  | cons node l ih =>
    cases node with
    | element n children =>
      by_cases h : n = name ∧ children.isEmpty = false
      · simp [getChildNodes, h, ih]
      · simp only [List.cons_append, getChildNodes, if_neg h, ih]
    | text content => simpa [getChildNodes] using ih

/-- Among the `userdata` elements there is no other value. -/
theorem getChildValue_userdata {name : Str} (h : str "userdata" ≠ name) (l : List (Str × Str)) :
    getChildValue name (l.map shownUserdata) = none := by
  induction l with
  | nil => rfl
  | cons e l ih => rw [List.map_cons, shownUserdata, getChildValue_skip h, ih]

theorem getChildNodes_userdata (l : List (Str × Str)) :
    getChildNodes (str "userdata") (l.map shownUserdata) =
      l.map fun e => [shownChild (str "key") e.1, shownChild (str "value") e.2] := by
  induction l with
  | nil => rfl
  | cons e l ih => simp [shownUserdata, getChildNodes, ih]

/-- The value of a child that is there, or of none. -/
theorem getChildValue_ite {p : Prop} [Decidable p] {name value : Str} :
    getChildValue name (if p then [shownChild name value] else []) =
      if p then some value else none := by
  split
  · exact getChildValue_shownChild_self
  · rfl

theorem getChildValue_ite_skip {p : Prop} [Decidable p] {name n value : Str} (h : n ≠ name) :
    getChildValue name (if p then [shownChild n value] else []) = none := by
  split
  · exact getChildValue_shownChild h
  · rfl

theorem getChildNodes_ite_skip {p : Prop} [Decidable p] {name n value : Str} (h : n ≠ name) :
    getChildNodes name (if p then [shownChild n value] else []) = [] := by
  split
  · exact getChildNodes_shownChild h
  · rfl

section Nodes

variable {datetime : Int64 → Str} {s : Snapshot}

/-- The first values are always there. -/
theorem shownNodes_fixed :
    getChildValue (str "type") (s.shownNodes datetime) = some s.type.toStr ∧
    getChildValue (str "num") (s.shownNodes datetime) = some (decString s.num.toNat) ∧
    getChildValue (str "date") (s.shownNodes datetime) = some (datetime s.date) ∧
    getChildValue (str "uid") (s.shownNodes datetime) = some (decString s.uid.toNat) := by
  refine ⟨?_, ?_, ?_, ?_⟩ <;>
    simp (disch := decide) [Snapshot.shownNodes, getChildValue_shownChild]

theorem shownNodes_preNum : getChildValue (str "pre_num") (s.shownNodes datetime) =
    if s.type = .POST then some (decString s.preNum.toNat) else none := by
  simp (disch := decide) only [Snapshot.shownNodes, getChildValue_append,
    getChildValue_shownChild, getChildValue_ite, getChildValue_ite_skip, getChildValue_userdata,
    getChildValue, Option.or_none, Option.none_or]

theorem shownNodes_description : getChildValue (str "description") (s.shownNodes datetime) =
    if s.description ≠ [] then some s.description else none := by
  simp (disch := decide) only [Snapshot.shownNodes, getChildValue_append,
    getChildValue_shownChild, getChildValue_ite, getChildValue_ite_skip, getChildValue_userdata,
    getChildValue, Option.or_none, Option.none_or]

theorem shownNodes_cleanup : getChildValue (str "cleanup") (s.shownNodes datetime) =
    if s.cleanup ≠ [] then some s.cleanup else none := by
  simp (disch := decide) only [Snapshot.shownNodes, getChildValue_append,
    getChildValue_shownChild, getChildValue_ite, getChildValue_ite_skip, getChildValue_userdata,
    getChildValue, Option.or_none, Option.none_or]

theorem shownNodes_userdata : getChildNodes (str "userdata") (s.shownNodes datetime) =
    s.userdata.entries.map fun e =>
      [shownChild (str "key") e.1, shownChild (str "value") e.2] := by
  simp (disch := decide) only [Snapshot.shownNodes, getChildNodes_append,
    getChildNodes_shownChild, getChildNodes_ite_skip, getChildNodes_userdata, getChildNodes,
    List.nil_append]

/-- Reading the `userdata` elements makes the map again. -/
theorem foldl_addUserdata (hkeys : ∀ e ∈ s.userdata.entries, e.1 ≠ []) :
    (s.userdata.entries.map fun e =>
      [shownChild (str "key") e.1, shownChild (str "value") e.2]).foldl addUserdata .empty =
      s.userdata := by
  -- each element sets its key, as it was written with one
  have hentry : ∀ (l : List (Str × Str)) (m : StrMap), (∀ e ∈ l, e.1 ≠ []) →
      (l.map fun e => [shownChild (str "key") e.1, shownChild (str "value") e.2]).foldl
        addUserdata m = l.foldl (fun m e => m.set e.1 e.2) m := by
    intro l
    induction l with
    | nil => exact fun _ _ => rfl
    | cons e l ih =>
      intro m hl
      have hkey := hl e (List.mem_cons_self ..)
      have hadd : addUserdata m [shownChild (str "key") e.1, shownChild (str "value") e.2] =
          m.set e.1 e.2 := by
        simp (disch := decide) [addUserdata, getChildValue_shownChild, hkey]
      rw [List.map_cons, List.foldl_cons, List.foldl_cons, hadd]
      exact ih _ fun e' he' => hl e' (List.mem_cons_of_mem _ he')
  rw [hentry _ _ hkeys]
  exact SortedMap.ofList_entries s.userdata

end Nodes

/-- A value that is left out where it is the default. -/
theorem getD_ite_ne_nil {value : Str} :
    (if value ≠ [] then some value else none).getD [] = value := by
  by_cases h : value = []
  · simp [h]
  · simp [h]

/-- The fields of the document are those of the snapshot. -/
theorem readFields_shownNodes {datetime : Int64 → Str} {s : Snapshot} (h : s.Storable) :
    s.SameInfo ((Snapshot.new s.type s.num s.date).readFields (s.shownNodes datetime)) := by
  obtain ⟨-, -, -, huid⟩ : _ ∧ _ ∧ _ ∧ getChildValue (str "uid") (s.shownNodes datetime) = _ :=
    shownNodes_fixed
  have hpre : getChildValue (str "pre_num") (s.shownNodes datetime) = _ := shownNodes_preNum
  have hdescription : getChildValue (str "description") (s.shownNodes datetime) = _ :=
    shownNodes_description
  have hcleanup : getChildValue (str "cleanup") (s.shownNodes datetime) = _ := shownNodes_cleanup
  have huserdata : getChildNodes (str "userdata") (s.shownNodes datetime) = _ :=
    shownNodes_userdata
  refine ⟨rfl, rfl, rfl, ?_, ?_, ?_, ?_, ?_⟩
  · simp [Snapshot.readFields, getChildNumber, huid, extract_decString]
  · -- only a post snapshot has the element
    show getChildNumber (str "pre_num") (s.shownNodes datetime) 0 = s.preNum
    rw [getChildNumber, hpre]
    by_cases hpost : s.type = .POST
    · simp [hpost, extract_decString]
    · simp [hpost, h.preNum hpost]
  · show (getChildValue (str "description") (s.shownNodes datetime)).getD [] = s.description
    rw [hdescription, getD_ite_ne_nil]
  · show (getChildValue (str "cleanup") (s.shownNodes datetime)).getD [] = s.cleanup
    rw [hcleanup, getD_ite_ne_nil]
  · show (getChildNodes (str "userdata") (s.shownNodes datetime)).foldl addUserdata .empty = _
    rw [huserdata, foldl_addUserdata h.keys]

theorem not_neg_one_of_inRange {date : Int64} (h : InRange date) : date ≠ -1 := by
  rintro rfl
  exact absurd h.1 (by simp)

/-- The document that `writeInfo` makes of a snapshot gives the snapshot back, from the
directory that is named for it. -/
theorem readInfo_writeInfo {datetime : Int64 → Str} {scanDatetime : Str → Int64}
    {checkSnapshot : UInt32 → Bool} {unset : UInt32} {s : Snapshot}
    (hdates : DatesFaithful datetime scanDatetime) (hs : s.Storable) (hnul : s.NoNul)
    (hdate : InRange s.date) (hnum : s.num ≠ 0) (hcheck : checkSnapshot s.num = true) :
    ∃ s', readInfo scanDatetime checkSnapshot unset (decString s.num.toNat)
        [(s.writeInfo datetime).shown] = some s' ∧ s.SameInfo s' := by
  -- the document has the one node that is looked for
  have hnode : getChildNode (str "snapshot") [(s.writeInfo datetime).shown] =
      s.shownNodes datetime := by
    rw [Snapshot.writeInfo, XmlNode.shown,
      infoNodes_shown hnul (no_nul_of_ascii (hdates.ascii _ hdate))]
    simp [getChildNode, Snapshot.shownNodes]
  -- type, number and date are always there, the other fields when they are set
  obtain ⟨htype, hnumber, hdatetime, -⟩ :
      getChildValue (str "type") (s.shownNodes datetime) = _ ∧
      getChildValue (str "num") (s.shownNodes datetime) = _ ∧
      getChildValue (str "date") (s.shownNodes datetime) = _ ∧ _ := shownNodes_fixed
  have hfields : s.SameInfo
      ((Snapshot.new s.type s.num s.date).readFields (s.shownNodes datetime)) :=
    readFields_shownNodes hs
  refine ⟨_, ?_, hfields⟩
  unfold readInfo
  simp only [hnode, htype, Option.bind_some, SnapshotType.ofStr_toStr, hnumber, extract_decString,
    hnum, if_false, hdatetime, hdates.inverse _ hdate, not_neg_one_of_inRange hdate, ne_eq,
    not_true_eq_false]
  have hsame : ((Snapshot.new s.type s.num s.date).readFields (s.shownNodes datetime)).num =
    s.num :=
    rfl
  rw [hsame, if_pos hcheck]

/-! ## What the document holds -/

/-- All texts that a snapshot is saved with are made of characters that XML allows. -/
structure Snapshot.XmlTexts (s : Snapshot) : Prop where
  description : isXmlText s.description = true
  cleanup : isXmlText s.cleanup = true
  userdata : ∀ e ∈ s.userdata.entries, isXmlText e.1 = true ∧ isXmlText e.2 = true

instance (s : Snapshot) : Decidable s.XmlTexts :=
  decidable_of_iff (isXmlText s.description = true ∧ isXmlText s.cleanup = true ∧
      ∀ e ∈ s.userdata.entries, isXmlText e.1 = true ∧ isXmlText e.2 = true)
    ⟨fun ⟨h₁, h₂, h₃⟩ => ⟨h₁, h₂, h₃⟩, fun h => ⟨h.description, h.cleanup, h.userdata⟩⟩

/-- The document has elements with text in them and no other nodes. -/
theorem writeInfo_plain (datetime : Int64 → Str) (s : Snapshot) : (s.writeInfo datetime).Plain := by
  refine .inner fun node hnode => ?_
  simp only [Snapshot.infoNodes, List.mem_append, List.mem_cons, List.not_mem_nil, or_false,
    List.mem_map, textChild, numberChild, userdataChild] at hnode
  rcases hnode with (((hnode | hnode) | hnode) | hnode) | ⟨e, -, rfl⟩
  · rcases hnode with rfl | rfl | rfl | rfl <;> exact .leaf
  · split at hnode <;> simp at hnode
    exact hnode ▸ .leaf
  · split at hnode <;> simp at hnode
    exact hnode ▸ .leaf
  · split at hnode <;> simp at hnode
    exact hnode ▸ .leaf
  · refine .inner fun child hchild => ?_
    rcases List.mem_cons.mp hchild with rfl | hchild
    · exact .leaf
    · exact List.mem_singleton.mp hchild ▸ .leaf

/-- The texts of the document are XML texts when those of the snapshot are. -/
theorem writeInfo_texts {datetime : Int64 → Str} {s : Snapshot} (hnul : s.NoNul)
    (hdate : ∀ b ∈ datetime s.date, 32 ≤ b ∧ b < 127) :
    (∀ t ∈ (s.writeInfo datetime).texts, isXmlText t = true) ↔ s.XmlTexts := by
  have htype : isXmlText (cstr s.type.toStr) = true := by
    rw [cstr_of_no_nul (no_nul_toStr _)]
    exact isXmlText_of_ascii (toStr_ascii _)
  have hnumber : ∀ n, isXmlText (cstr (decString n)) = true := fun n => by
    rw [cstr_of_no_nul (no_nul_decString n)]
    exact isXmlText_decString n
  have hdatetime : isXmlText (cstr (datetime s.date)) = true := by
    rw [cstr_of_no_nul (no_nul_of_ascii hdate)]
    exact isXmlText_of_ascii hdate
  -- an optional text that is left out is empty
  have hoptional : ∀ {value : Str} {name : Str}, 0 ∉ value →
      ((∀ t ∈ XmlNode.textsAll (if value ≠ [] then [textChild name value] else []),
        isXmlText t = true) ↔ isXmlText value = true) := by
    intro value name hvalue
    by_cases hnil : value = []
    · simp [hnil, XmlNode.textsAll, isXmlText]
    · simp [hnil, XmlNode.textsAll, textChild, XmlNode.texts, cstr_of_no_nul hvalue]
  have huserdata : (∀ t ∈ XmlNode.textsAll (s.userdata.entries.map userdataChild),
      isXmlText t = true) ↔
      ∀ e ∈ s.userdata.entries, isXmlText e.1 = true ∧ isXmlText e.2 = true := by
    have hchild : ∀ e ∈ s.userdata.entries, (userdataChild e).texts = [e.1, e.2] := by
      intro e he
      obtain ⟨hkey, hvalue⟩ := hnul.userdata e he
      simp [userdataChild, textChild, XmlNode.texts, XmlNode.textsAll, cstr_of_no_nul hkey,
        cstr_of_no_nul hvalue]
    constructor
    · intro h e he
      have hmem : ∀ t ∈ (userdataChild e).texts, isXmlText t = true := fun t ht =>
        h t (XmlNode.mem_textsAll.mpr ⟨_, List.mem_map_of_mem he, ht⟩)
      rw [hchild e he] at hmem
      exact ⟨hmem _ (by simp), hmem _ (by simp)⟩
    · intro h t ht
      obtain ⟨node, hnode, ht⟩ := XmlNode.mem_textsAll.mp ht
      obtain ⟨e, he, rfl⟩ := List.mem_map.mp hnode
      rw [hchild e he] at ht
      rcases List.mem_cons.mp ht with rfl | ht
      · exact (h e he).1
      · exact List.mem_singleton.mp ht ▸ (h e he).2
  have hpre : ∀ t ∈ XmlNode.textsAll (if s.type = .POST then [numberChild (str "pre_num") s.preNum]
      else []), isXmlText t = true := by
    intro t ht
    split at ht
    · simp only [XmlNode.textsAll, numberChild, textChild, XmlNode.texts, List.append_nil,
        List.mem_singleton] at ht
      exact ht ▸ hnumber _
    · cases ht
  rw [Snapshot.writeInfo, XmlNode.texts, Snapshot.infoNodes]
  simp only [XmlNode.textsAll_append, List.forall_mem_append, hoptional hnul.description,
    hoptional hnul.cleanup, huserdata]
  constructor
  · intro h
    obtain ⟨⟨⟨-, hdescription⟩, hcleanup⟩, hentries⟩ := h
    exact ⟨hdescription, hcleanup, hentries⟩
  · intro h
    refine ⟨⟨⟨⟨?_, hpre⟩, h.description⟩, h.cleanup⟩, h.userdata⟩
    simp [XmlNode.textsAll, numberChild, textChild, XmlNode.texts, htype, hnumber, hdatetime]

end Snapper
