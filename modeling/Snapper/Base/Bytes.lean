import Mathlib.Data.List.Lex
import Mathlib.Data.List.Sort
import Snapper.General.SortedMap

/-!
# Byte strings, file names and paths

`std::string` is a list of bytes, ordered as `std::string::operator<` orders it.
A path below a directory is the list of its file names; its text is what the
comparison reports: each name preceded by a slash.
-/

namespace Snapper

/-- `std::char_traits<char>::lt` compares bytes as `unsigned char`. -/
instance instLinearOrderUInt8 : LinearOrder UInt8 where
  le_refl := UInt8.le_refl
  le_trans _ _ _ := UInt8.le_trans
  le_antisymm _ _ := UInt8.le_antisymm
  le_total := UInt8.le_total
  toDecidableLE := inferInstance
  lt_iff_le_not_ge a b := by
    constructor
    · intro h
      exact ⟨UInt8.le_of_lt h, UInt8.not_le.mpr h⟩
    · rintro ⟨_, h⟩
      exact UInt8.not_le.mp h

/-- `unsigned int` -/
instance instLinearOrderUInt32 : LinearOrder UInt32 where
  le_refl := UInt32.le_refl
  le_trans _ _ _ := UInt32.le_trans
  le_antisymm _ _ := UInt32.le_antisymm
  le_total := UInt32.le_total
  toDecidableLE := inferInstance
  lt_iff_le_not_ge a b := by
    constructor
    · intro h
      exact ⟨UInt32.le_of_lt h, UInt32.not_le.mpr h⟩
    · rintro ⟨_, h⟩
      exact UInt32.not_le.mp h

/-- `std::string`. -/
abbrev Str := List UInt8

instance instLawfulBEqStr : LawfulBEq Str := inferInstance

/-- `std::map<std::string, std::string>`. -/
abbrev StrMap := General.SortedMap Str Str

/-- A file name: what `readdir` returns. -/
abbrev Name := Str

/-- The names leading from a directory to a file below it. -/
abbrev Path := List Name

/-- The bytes of an ASCII literal. -/
def str (s : String) : Str := s.toList.map fun c => c.toNat.toUInt8

/-- `'/'` -/
def slash : UInt8 := 47

/-- `'\n'` -/
def newline : UInt8 := 10

/-- `' '` -/
def space : UInt8 := 32

/-- Look at the bytes of a given string one after the other. -/
theorem forall_mem_of_all {s : Str} {P : UInt8 → Prop} [DecidablePred P]
    (h : (s.all fun b => P b) = true) : ∀ b ∈ s, P b := fun b hb =>
  of_decide_eq_true (List.all_eq_true.mp h b hb)

/-- What a name of a directory entry may be, `"."` and `".."` apart. -/
structure ValidName (n : Name) : Prop where
  ne_nil : n ≠ []
  no_slash : slash ∉ n
  no_nul : 0 ∉ n
  ne_dot : n ≠ str "."
  ne_dotdot : n ≠ str ".."

instance (n : Name) : Decidable (ValidName n) :=
  decidable_of_iff (n ≠ [] ∧ slash ∉ n ∧ 0 ∉ n ∧ n ≠ str "." ∧ n ≠ str "..")
    ⟨fun ⟨h₁, h₂, h₃, h₄, h₅⟩ => ⟨h₁, h₂, h₃, h₄, h₅⟩,
     fun h => ⟨h.ne_nil, h.no_slash, h.no_nul, h.ne_dot, h.ne_dotdot⟩⟩

/-- The text of a path: each name preceded by a slash. -/
def pathName (p : Path) : Str := p.flatMap (slash :: ·)

@[simp] theorem pathName_nil : pathName [] = [] := rfl

@[simp] theorem pathName_cons (n : Name) (p : Path) :
    pathName (n :: p) = slash :: (n ++ pathName p) := by
  simp [pathName]

theorem pathName_append (p q : Path) : pathName (p ++ q) = pathName p ++ pathName q := by
  simp [pathName]

/-- `path + "/" + name` -/
theorem pathName_concat (p : Path) (n : Name) :
    pathName (p ++ [n]) = pathName p ++ slash :: n := by
  simp [pathName]

/-- Splitting the text of a path at the slashes gives an empty piece and its names. -/
theorem splitOn_pathName {p : Path} (hp : ∀ n ∈ p, slash ∉ n) :
    (pathName p).splitOn slash = [] :: p := by
  induction p with
  | nil => rfl
  | cons n p ih =>
    have hn : slash ∉ n := hp n (List.mem_cons_self ..)
    have hp' : ∀ m ∈ p, slash ∉ m := fun m hm => hp m (List.mem_cons_of_mem _ hm)
    have hrest : (n ++ pathName p).splitOn slash = n :: p := by
      cases p with
      | nil => simpa using List.splitOn_eq_singleton hn
      | cons m p =>
        have := ih hp'
        rw [pathName_cons] at this ⊢
        rw [List.splitOn_append_cons_self_of_not_mem hn]
        rw [List.splitOn_cons_eq_if_modifyHead] at this
        simpa using this
    rw [pathName_cons, List.splitOn_cons_eq_if_modifyHead, hrest]
    simp

/-- Two paths with the same text are equal. -/
theorem pathName_injective {p q : Path} (hp : ∀ n ∈ p, slash ∉ n) (hq : ∀ n ∈ q, slash ∉ n)
    (h : pathName p = pathName q) : p = q := by
  have hsplit := splitOn_pathName hp
  rw [h, splitOn_pathName hq] at hsplit
  exact (List.cons.inj hsplit).2.symm

/-- A string is below each of its proper extensions. -/
theorem lt_append_of_ne_nil (s : Str) {t : Str} (ht : t ≠ []) : s < s ++ t := by
  induction s with
  | nil =>
    cases t with
    | nil => exact absurd rfl ht
    | cons b t => exact List.nil_lt_cons b t
  | cons a s ih => exact List.cons_lt_cons_iff.mpr (Or.inr ⟨rfl, ih⟩)

/-- In the order of the reported names a directory comes before everything below it. -/
theorem pathName_lt_append (p : Path) {q : Path} (hq : q ≠ []) :
    pathName p < pathName (p ++ q) := by
  rw [pathName_append]
  refine lt_append_of_ne_nil _ ?_
  cases q with
  | nil => exact absurd rfl hq
  | cons n q => simp

end Snapper
