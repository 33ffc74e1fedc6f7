import Snapper.Base.AsciiFile
import Snapper.Base.Number

/-!
# XML documents

The tree of nodes that `XmlFile` shares with libxml2, and the functions that get values from
it and put values into it.  Writing a tree to a file and reading a file into a tree are
libxml2's; what is relied on is `LibXml.Faithful`.

A `const xmlNode*` is a node and the siblings after it, so it is a list here, and `NULL` is
the empty list.
-/

namespace Snapper

/-! ## Nodes -/

inductive XmlNode where
  | element (name : Str) (children : List XmlNode)
  /-- text, or another node that has content -/
  | text (content : Str)

namespace XmlNode

/-- `node->content`; an element has none. -/
def content : XmlNode → Option Str
  | element _ _ => none
  | text content => some content

end XmlNode

/-- `getChildNode`: the children of the first node with the name that has some. -/
def getChildNode (name : Str) : List XmlNode → List XmlNode
  | [] => []
  | .element n children :: nodes =>
    if n = name ∧ children.isEmpty = false then children else getChildNode name nodes
  | .text _ :: nodes => getChildNode name nodes

/-- `getChildNodes`: the children of all elements with the name that have some. -/
def getChildNodes (name : Str) : List XmlNode → List (List XmlNode)
  | [] => []
  | .element n children :: nodes =>
    if n = name ∧ children.isEmpty = false then children :: getChildNodes name nodes
    else getChildNodes name nodes
  | .text _ :: nodes => getChildNodes name nodes

/-- `getChildValue`: the text of the first element with the name. -/
def getChildValue (name : Str) : List XmlNode → Option Str
  | [] => none
  | .element n children :: nodes =>
    if n = name then some ((children.head?.bind XmlNode.content).getD [])
    else getChildValue name nodes
  | .text _ :: nodes => getChildValue name nodes

/-- `getChildValue` of an `unsigned int`, which keeps its value where there is no element. -/
def getChildNumber (name : Str) (nodes : List XmlNode) (value : UInt32) : UInt32 :=
  match getChildValue name nodes with
  | none => value
  | some tmp => extract tmp value

/-- `setChildValue` of a string: the new child. -/
def textChild (name value : Str) : XmlNode := .element name [.text (cstr value)]

/-- `setChildValue` of a number -/
def numberChild (name : Str) (value : UInt32) : XmlNode := textChild name (decString value.toNat)

section Values

variable {name n value : Str} {nodes children : List XmlNode}

@[simp] theorem getChildValue_textChild_self :
    getChildValue name (.element name [.text value] :: nodes) = some value := by
  simp [getChildValue, XmlNode.content]

@[simp] theorem getChildValue_empty_self :
    getChildValue name (.element name [] :: nodes) = some [] := by
  simp [getChildValue]

theorem getChildValue_skip (h : n ≠ name) :
    getChildValue name (.element n children :: nodes) = getChildValue name nodes := by
  simp [getChildValue, h]

theorem getChildNodes_skip (h : n ≠ name) :
    getChildNodes name (.element n children :: nodes) = getChildNodes name nodes := by
  simp [getChildNodes, h]

end Values

/-! ## Texts that XML can hold -/

/-- A continuation byte of UTF-8 -/
def isTail (b : UInt8) : Bool := 128 ≤ b ∧ b ≤ 191

/-- A character of one byte: tab, newline, carriage return or no control character -/
def isChar1 (b : UInt8) : Bool := b = 9 ∨ b = 10 ∨ b = 13 ∨ (32 ≤ b ∧ b ≤ 127)

/-- A character of two bytes -/
def isChar2 (b c : UInt8) : Bool := (194 ≤ b ∧ b ≤ 223) ∧ isTail c

/-- A character of three bytes: not longer than need be, no surrogate, neither `U+FFFE` nor
`U+FFFF` -/
def isChar3 (b c d : UInt8) : Bool :=
  (224 ≤ b ∧ b ≤ 239) ∧ isTail c ∧ isTail d ∧ (b = 224 → 160 ≤ c) ∧ (b = 237 → c ≤ 159) ∧
    ¬(b = 239 ∧ c = 191 ∧ 190 ≤ d)

/-- A character of four bytes: up to `U+10FFFF` -/
def isChar4 (b c d e : UInt8) : Bool :=
  (240 ≤ b ∧ b ≤ 244) ∧ isTail c ∧ isTail d ∧ isTail e ∧ (b = 240 → 144 ≤ c) ∧
    (b = 244 → c ≤ 143)

/-- The bytes are characters that XML 1.0 allows, in UTF-8. -/
def isXmlText : Str → Bool
  | [] => true
  | b :: rest =>
    if isChar1 b then isXmlText rest
    else
      match rest with
      | [] => false
      | c :: rest =>
        if isChar2 b c then isXmlText rest
        else
          match rest with
          | [] => false
          | d :: rest =>
            if isChar3 b c d then isXmlText rest
            else
              match rest with
              | [] => false
              | e :: rest => isChar4 b c d e && isXmlText rest

/-- Printable ASCII is XML text. -/
theorem isXmlText_of_ascii {s : Str} (h : ∀ b ∈ s, 32 ≤ b ∧ b < 127) : isXmlText s = true := by
  induction s with
  | nil => rfl
  | cons b s ih =>
    obtain ⟨hlow, hhigh⟩ := h b (List.mem_cons_self ..)
    have hchar : isChar1 b = true := by
      simp only [isChar1, decide_eq_true_eq]
      exact Or.inr (Or.inr (Or.inr ⟨hlow, le_of_lt hhigh⟩))
    rw [isXmlText.eq_def]
    simp only [hchar, if_true]
    exact ih fun c hc => h c (List.mem_cons_of_mem _ hc)

theorem isXmlText_decString (n : Nat) : isXmlText (decString n) = true := by
  refine isXmlText_of_ascii fun b hb => ?_
  have hdigit := isDigit_of_mem_decString hb
  simp only [isDigit, decide_eq_true_eq] at hdigit
  exact ⟨le_trans (by decide) hdigit.1, lt_of_le_of_lt hdigit.2 (by decide)⟩

/-! ## Files -/

namespace XmlNode

mutual
/-- The texts in a tree. -/
def texts : XmlNode → List Str
  | element _ children => textsAll children
  | text content => [content]
def textsAll : List XmlNode → List Str
  | [] => []
  | node :: nodes => texts node ++ textsAll nodes
end

mutual
/-- The tree without its empty texts, which a file does not show. -/
def shown : XmlNode → XmlNode
  | element name children => element name (shownAll children)
  | text content => text content
def shownAll : List XmlNode → List XmlNode
  | [] => []
  | text [] :: nodes => shownAll nodes
  | node :: nodes => shown node :: shownAll nodes
end

/-- Each element has one text or has elements only, as `setChildValue` makes them. -/
inductive Plain : XmlNode → Prop where
  | leaf {name content : Str} : Plain (element name [text content])
  | inner {name : Str} {children : List XmlNode} :
      (∀ child ∈ children, Plain child) → Plain (element name children)

theorem textsAll_append (l l' : List XmlNode) : textsAll (l ++ l') = textsAll l ++ textsAll l' := by
  induction l with
  | nil => rfl
  | cons node l ih => simp [textsAll, ih]

theorem mem_textsAll {l : List XmlNode} {t : Str} :
    t ∈ textsAll l ↔ ∃ node ∈ l, t ∈ node.texts := by
  induction l with
  | nil => simp [textsAll]
  | cons node l ih => simp [textsAll, ih]

/-- Elements stay, without their empty texts. -/
theorem shownAll_elements {l : List XmlNode}
    (h : ∀ node ∈ l, ∃ name children, node = element name children) :
    shownAll l = l.map shown := by
  induction l with
  | nil => rfl
  | cons node l ih =>
    obtain ⟨name, children, rfl⟩ := h node (List.mem_cons_self ..)
    rw [shownAll, ih fun n hn => h n (List.mem_cons_of_mem _ hn)]
    · rfl
    · intro heq
      cases heq

end XmlNode

/-- The part of libxml2 that writes a document to a file and reads it again. -/
structure LibXml where
  File : Type
  /-- `xmlDocFormatDump` -/
  dump : XmlNode → File
  /-- `xmlReadFd`, then `xmlDocGetRootElement` with the siblings after it -/
  read : File → Option (List XmlNode)

/-- A document whose texts are made of characters that XML allows is read back, and a
document with any other text is refused. -/
structure LibXml.Faithful (xml : LibXml) : Prop where
  reads : ∀ root, root.Plain → (∀ t ∈ root.texts, isXmlText t = true) →
    xml.read (xml.dump root) = some [root.shown]
  refuses : ∀ root, root.Plain → (∃ t ∈ root.texts, isXmlText t = false) →
    xml.read (xml.dump root) = none

end Snapper
