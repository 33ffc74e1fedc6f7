import Snapper.Base.Bytes

/-!
# The status of a file in a comparison

`enum StatusFlags` is a set of seven flags; an `unsigned int` status is the set of
flags it has.  Besides the flag operations of the sources this module has the
four-character text of a status and its reader.
-/

namespace Snapper

/-- A set of `StatusFlags`. -/
structure Status where
  created : Bool := false
  deleted : Bool := false
  type : Bool := false
  content : Bool := false
  permissions : Bool := false
  user : Bool := false
  group : Bool := false
  deriving DecidableEq, Repr

namespace Status

/-- `0` -/
def zero : Status := {}

def CREATED : Status := { created := true }

def DELETED : Status := { deleted := true }

/-- `status & (CREATED | DELETED)` -/
def createdOrDeleted (s : Status) : Bool := s.created || s.deleted

/-- `status & (CONTENT | PERMISSIONS | USER | GROUP)` -/
def modified (s : Status) : Bool := s.content || s.permissions || s.user || s.group

@[simp] theorem CREATED_ne_zero : CREATED ≠ zero := by decide

@[simp] theorem DELETED_ne_zero : DELETED ≠ zero := by decide

/-- The status of a file of both trees: what `cmpFiles` returns for two `stat`s. -/
structure Both (s : Status) : Prop where
  not_created : s.created = false
  not_deleted : s.deleted = false
  not_type_content : s.type = true → s.content = false

/-- A status as a comparison reports it. -/
def Reported (s : Status) : Prop := s = CREATED ∨ s = DELETED ∨ Both s

/-! ## Text -/

/-- The four characters shown for a status. -/
def toStr (s : Status) : Str :=
  (if s.created then str "+"
   else if s.deleted then str "-"
   else if s.type then str "t"
   else if s.content then str "c"
   else str ".") ++
  (if s.permissions then str "p" else str ".") ++
  (if s.user then str "u" else str ".") ++
  (if s.group then str "g" else str ".")

/-- `stringToStatus` -/
def ofStr (s : Str) : Status :=
  { created := s[0]? = (str "+")[0]?
    deleted := s[0]? = (str "-")[0]?
    type := s[0]? = (str "t")[0]?
    content := s[0]? = (str "c")[0]?
    permissions := s[1]? = (str "p")[0]?
    user := s[2]? = (str "u")[0]?
    group := s[3]? = (str "g")[0]? }

/-- The same file, seen from the other side of the comparison. -/
def invert (s : Status) : Status :=
  if s.createdOrDeleted then { s with created := !s.created, deleted := !s.deleted } else s

@[simp] theorem invert_CREATED : invert CREATED = DELETED := rfl

@[simp] theorem invert_DELETED : invert DELETED = CREATED := rfl

theorem Both.invert_eq {s : Status} (h : Both s) : invert s = s := by
  simp [invert, createdOrDeleted, h.not_created, h.not_deleted]

theorem Reported.invert_invert {s : Status} (h : Reported s) :
    Status.invert (Status.invert s) = s := by
  obtain rfl | rfl | hs := h
  · rfl
  · rfl
  · rw [hs.invert_eq, hs.invert_eq]

theorem Reported.invert {s : Status} (h : Reported s) : Reported (Status.invert s) := by
  obtain rfl | rfl | hs := h
  · exact Or.inr (Or.inl rfl)
  · exact Or.inl rfl
  · rw [hs.invert_eq]
    exact Or.inr (Or.inr hs)

/-- The text of a reported status is read back as that status. -/
theorem ofStr_toStr {s : Status} (h : Reported s) : ofStr (toStr s) = s := by
  obtain rfl | rfl | hs := h
  · decide
  · decide
  · obtain ⟨c, d, t, k, p, u, g⟩ := s
    obtain ⟨hc, hd, htk⟩ := hs
    simp only at hc hd htk
    subst hc hd
    revert htk
    revert t k p u g
    decide

/-- No byte of the text of a status separates fields or records. -/
theorem toStr_clean (s : Status) {b : UInt8} (hb : b ∈ toStr s) :
    b ≠ space ∧ b ≠ newline ∧ b ≠ 0 := by
  have hall : ∀ c d t k p u g, (toStr ⟨c, d, t, k, p, u, g⟩).all
      (fun b => b ≠ space ∧ b ≠ newline ∧ b ≠ 0) = true := by decide
  obtain ⟨c, d, t, k, p, u, g⟩ := s
  exact forall_mem_of_all (hall c d t k p u g) b hb

end Status

end Snapper
