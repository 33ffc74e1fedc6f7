import Snapper.Base.Number
import Snapper.Undo.Run

/-!
# The undo steps of the client

`Files::getUndoStatistic`, and the loop of `command_undo` over the undo steps.  Created files are
removed from the last name back, so that a directory is removed after what is in it; the other
entries are restored from the first name on, so that a directory is there before what is in it.

## Main results

- `undoOrder_perm`: the steps are those of the marked entries
- `sublist_undoOrder`: the order of the steps
- `undo_steps_right`: the steps are complete and well ordered, and the client finds their entries
-/

namespace Snapper

open General

/-! ## What the client does -/

/-- `struct UndoStatistic`.  The counters are `unsigned int` in the program: see `number_fits` for
when that makes no difference. -/
structure UndoStatistic where
  numCreate : Nat
  numModify : Nat
  numDelete : Nat
  deriving DecidableEq

namespace UndoStatistic

/-- Nothing is to be done. -/
def empty (rs : UndoStatistic) : Bool := rs.numCreate = 0 ∧ rs.numModify = 0 ∧ rs.numDelete = 0

/-- The counter of an action is increased. -/
def count (rs : UndoStatistic) : Action → UndoStatistic
  | .create => { rs with numCreate := rs.numCreate + 1 }
  | .modify => { rs with numModify := rs.numModify + 1 }
  | .delete => { rs with numDelete := rs.numDelete + 1 }

/-- The counter of an action -/
def number (rs : UndoStatistic) : Action → Nat
  | .create => rs.numCreate
  | .modify => rs.numModify
  | .delete => rs.numDelete

end UndoStatistic

/-- `Files::getUndoStatistic` -/
def getUndoStatistic (files : List File) : UndoStatistic :=
  files.foldl (fun rs file => if file.undo then rs.count file.getAction else rs) ⟨0, 0, 0⟩

/-- A line that the client prints -/
inductive Line where
  | cout (text : Str)
  | cerr (text : Str)

/-- `"creating %s"` and its siblings -/
def Action.doing : Action → Str
  | .create => str "creating "
  | .modify => str "modifying "
  | .delete => str "deleting "

/-- `"failed to create %s"` and its siblings -/
def Action.failed : Action → Str
  | .create => str "failed to create "
  | .modify => str "failed to modify "
  | .delete => str "failed to delete "

/-- How the command ends -/
inductive Ending where
  | done | exitFailure
  deriving DecidableEq

/-- The loop of `command_undo` over the undo steps. -/
def commandUndoLoop (paths : FilePaths) (files : List File) (verbose : Bool) :
    List UndoStep → Cmd World (Ending × List Line)
  | [] => return (.done, [])
  | it1 :: steps =>
    match findFile files it1.name with
    | none => return (.exitFailure, [.cerr (str "internal error")])
    | some it2 =>
      if it1.action ≠ it2.getAction then
        return (.exitFailure, [.cerr (str "internal error")])
      else do
        let before := if verbose then [Line.cout (it1.action.doing ++ it2.systemPath paths)] else []
        let ok ← it2.doUndo paths
        let after := if ok then [] else [Line.cerr (it1.action.failed ++ it2.systemPath paths)]
        let (ending, lines) ← commandUndoLoop paths files verbose steps
        return (ending, before ++ after ++ lines)

/-- `command_undo`, once the entries are marked. -/
def commandUndo (paths : FilePaths) (files : List File) (verbose : Bool) :
    Cmd World (Ending × List Line) := do
  let undoStatistic := getUndoStatistic files
  if undoStatistic.empty then
    return (.done, [.cout (str "nothing to do")])
  else
    let (ending, lines) ← commandUndoLoop paths files verbose (getUndoSteps files)
    return (ending, .cout (str "create:" ++ decString undoStatistic.numCreate ++ str " modify:" ++
      decString undoStatistic.numModify ++ str " delete:" ++ decString undoStatistic.numDelete) ::
      lines)

/-! ## The steps -/

/-- The step of an entry -/
def File.undoStep (file : File) : UndoStep := { name := file.name, action := file.getAction }

theorem getUndoSteps_eq (files : List File) :
    getUndoSteps files = (undoOrder files).map File.undoStep := rfl

/-- Every marked entry has its place in the order, and no other has. -/
theorem undoOrder_perm (files : List File) :
    (undoOrder files).Perm (files.filter fun file => file.undo) := by
  have hsplit (p : File → Bool) : (files.filter fun file => file.undo ∧ p file) =
      (files.filter fun file => file.undo).filter p := by
    rw [List.filter_filter]
    refine List.filter_congr fun file _ => ?_
    simp [Bool.and_comm]
  have hcreated := hsplit fun file => file.preToPostStatus = .CREATED
  have hothers := hsplit fun file => !decide (file.preToPostStatus = .CREATED)
  simp only [decide_eq_true_eq, Bool.not_eq_true', decide_eq_false_iff_not] at hcreated hothers
  rw [undoOrder, List.filter_reverse, hcreated, hothers]
  exact ((List.reverse_perm _).append_right _).trans (List.filter_append_perm _ _)

/-! ## The order -/

/-- The first path is a proper ancestor of the second, which goes on at a slash. -/
def ProperAncestor (a b : Str) : Prop :=
  ∃ r, b = a ++ r ∧ r ≠ [] ∧ (a.getLast? = some slash ∨ r.head? = some slash)

theorem ProperAncestor.lt {a b : Str} (h : ProperAncestor a b) : a < b := by
  obtain ⟨r, rfl, hr, -⟩ := h
  exact lt_append_of_ne_nil a hr

/-- Of two entries the one that is undone first stands first. -/
theorem sublist_undoOrder {files : List File} (h : NamesAscend files) {a b : File}
    (ha : a ∈ files) (hua : a.undo = true) (hb : b ∈ files) (hub : b.undo = true)
    (hbefore : UndoBefore a b) : [a, b].Sublist (undoOrder files) := by
  obtain ⟨done, rest, horder⟩ := List.append_of_mem (mem_undoOrder.mpr ⟨hb, hub⟩)
  have hdone : a ∈ done := (mem_done_iff h horder).mpr ⟨⟨ha, hua⟩, hbefore⟩
  rw [horder]
  exact (List.singleton_sublist.mpr hdone).append (List.singleton_sublist.mpr List.mem_cons_self)

/-! ## The numbers -/

theorem number_count (rs : UndoStatistic) (action action' : Action) :
    (rs.count action).number action' = rs.number action' + if action = action' then 1 else 0 := by
  cases action <;> cases action' <;> rfl

/-- Each count is the number of marked files with the action. -/
theorem number_getUndoStatistic (files : List File) (action : Action) :
    (getUndoStatistic files).number action =
      (files.filter fun file => file.undo).countP fun file => file.getAction = action := by
  -- for any counts to begin with, as the loop adds to them
  have hfold (rs : UndoStatistic) : (files.foldl (fun rs file =>
      if file.undo then rs.count file.getAction else rs) rs).number action = rs.number action +
        (files.filter fun file => file.undo).countP fun file => file.getAction = action := by
    induction files generalizing rs with
    | nil => rfl
    | cons file files ih =>
      rw [List.foldl_cons, ih]
      cases hu : file.undo with
      | false => simp [hu]
      | true =>
        have hfilter : ((file :: files).filter fun file => file.undo) =
            file :: files.filter fun file => file.undo := List.filter_cons_of_pos hu
        rw [if_pos rfl, number_count, hfilter, List.countP_cons]
        simp only [decide_eq_true_eq]
        omega
  have hzero : (⟨0, 0, 0⟩ : UndoStatistic).number action = 0 := by cases action <;> rfl
  rw [getUndoStatistic, hfold, hzero, Nat.zero_add]

/-- No counter passes the number of entries. -/
theorem number_le_length (files : List File) (action : Action) :
    (getUndoStatistic files).number action ≤ files.length := by
  rw [number_getUndoStatistic]
  exact List.countP_le_length.trans (List.length_filter_le _ files)

/-- Below 2^32 entries an `unsigned int` has the whole number. -/
theorem number_fits (files : List File) (hlength : files.length < 2 ^ 32) (action : Action) :
    (UInt32.ofNat ((getUndoStatistic files).number action)).toNat =
      (getUndoStatistic files).number action :=
  UInt32.toNat_ofNat_of_lt' ((number_le_length files action).trans_lt hlength)

/-! ## The loop -/

/-- The client finds the entry of every step, with the action of the step. -/
theorem commandUndoLoop_done {paths : FilePaths} {files : List File} (h : NamesAscend files)
    (verbose : Bool) (order : List File) (horder : ∀ file ∈ order, file ∈ files) (w : World) :
    ((commandUndoLoop paths files verbose (order.map File.undoStep)).run w).1.1 = .done := by
  induction order generalizing w with
  | nil => rfl
  | cons file order ih =>
    have hfind : findFile files file.undoStep.name = some file :=
      findFile_of_mem h (horder file List.mem_cons_self)
    rw [List.map_cons, commandUndoLoop, hfind]
    dsimp only
    rw [if_neg fun hne => hne rfl, Cmd.run_bind, Cmd.run_bind]
    exact ih (fun f hf => horder f (List.mem_cons_of_mem _ hf)) _

theorem commandUndo_done {paths : FilePaths} {files : List File} (h : NamesAscend files)
    (verbose : Bool)
    (w : World) : ((commandUndo paths files verbose).run w).1.1 = .done := by
  rw [commandUndo]
  split
  · rfl
  · exact commandUndoLoop_done h verbose _ (fun file hf => (mem_undoOrder.mp hf).1) w

/-- What the undo steps of a list of entries should be. -/
structure UndoStepsRight (files : List File) : Prop where
  /-- one step for each marked entry -/
  perm : (getUndoSteps files).Perm ((files.filter fun file => file.undo).map File.undoStep)
  distinct : ((getUndoSteps files).map UndoStep.name).Nodup
  created_first : ∀ a ∈ files, ∀ b ∈ files, a.undo = true → b.undo = true →
    a.preToPostStatus = .CREATED → b.preToPostStatus ≠ .CREATED →
      [a.undoStep, b.undoStep].Sublist (getUndoSteps files)
  /-- a created entry before its ancestors -/
  created_up : ∀ a ∈ files, ∀ b ∈ files, a.undo = true → b.undo = true →
    a.preToPostStatus = .CREATED → b.preToPostStatus = .CREATED → ProperAncestor b.name a.name →
      [a.undoStep, b.undoStep].Sublist (getUndoSteps files)
  /-- another entry after its ancestors -/
  others_down : ∀ a ∈ files, ∀ b ∈ files, a.undo = true → b.undo = true →
    a.preToPostStatus ≠ .CREATED → b.preToPostStatus ≠ .CREATED → ProperAncestor a.name b.name →
      [a.undoStep, b.undoStep].Sublist (getUndoSteps files)
  numbers : ∀ action, ((getUndoSteps files).countP fun step => step.action = action) =
    (getUndoStatistic files).number action
  found : ∀ step ∈ getUndoSteps files, ∃ file ∈ files,
    findFile files step.name = some file ∧ file.getAction = step.action
  no_exit : ∀ paths verbose w, ((commandUndo paths files verbose).run w).1.1 = .done

/-- The undo steps of entries with ascending names are right, whichever entries are marked. -/
theorem undo_steps_right (files : List File) (h : NamesAscend files) : UndoStepsRight files where
  perm := (undoOrder_perm files).map File.undoStep
  distinct := by
    have hnames : (files.map File.name).Nodup :=
      List.pairwise_map.mpr (h.imp fun hlt => ne_of_lt hlt)
    -- the steps are those of the marked entries, so that their names are distinct too
    rw [getUndoSteps_eq, List.map_map]
    exact ((undoOrder_perm files).map File.name).nodup_iff.mpr
      ((List.filter_sublist.map File.name).nodup hnames)
  created_first a ha b hb hua hub hca hcb := by
    refine (sublist_undoOrder h ha hua hb hub ?_).map File.undoStep
    rw [UndoBefore, if_neg hcb]
    exact Or.inl hca
  created_up a ha b hb hua hub hca hcb habove := by
    refine (sublist_undoOrder h ha hua hb hub ?_).map File.undoStep
    rw [UndoBefore, if_pos hcb]
    exact ⟨hca, habove.lt⟩
  others_down a ha b hb hua hub _ hcb habove := by
    refine (sublist_undoOrder h ha hua hb hub ?_).map File.undoStep
    rw [UndoBefore, if_neg hcb]
    exact Or.inr habove.lt
  numbers action := by
    rw [getUndoSteps_eq, ((undoOrder_perm files).map File.undoStep).countP_eq, List.countP_map,
      number_getUndoStatistic]
    rfl
  found step hstep := by
    obtain ⟨file, hfile, rfl⟩ := List.mem_map.mp hstep
    have hmem : file ∈ files := (mem_undoOrder.mp hfile).1
    exact ⟨file, hmem, findFile_of_mem h hmem, rfl⟩
  no_exit _ verbose w := commandUndo_done h verbose w

/-- `/d` and `/d/f` were created, `/d-e` and `/d-e/f` removed. -/
theorem undo_steps_right_dirs :
    let files : List File :=
      [{ name := str "/d", preToPostStatus := .CREATED, undo := true },
        { name := str "/d-e", preToPostStatus := .DELETED, undo := true },
        { name := str "/d-e/f", preToPostStatus := .DELETED, undo := true },
        { name := str "/d/f", preToPostStatus := .CREATED, undo := true }]
    UndoStepsRight files :=
  undo_steps_right _ (show List.Pairwise _ _ by decide)

end Snapper
