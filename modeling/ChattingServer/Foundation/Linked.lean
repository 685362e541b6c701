import Mathlib.Data.List.Nodup
import Mathlib.Logic.Function.Basic

/-!
# Singly linked lists in a memory

`Linked next top l` says that following `next` from `top` meets the cells of
`l`, in order, and ends.  The list is determined by the memory
(`Linked.unique`), so a memory that links a list has no cycle.  Cells outside
the list may be changed freely (`Linked.update`).
-/

namespace ChattingServer

variable {α : Type} {next : α → Option α} {top : Option α} {a : α} {l l' : List α}

/-- The cells met from `top` on are those of `l`. -/
def Linked (next : α → Option α) : Option α → List α → Prop
  | top, [] => top = none
  | top, a :: l => top = some a ∧ Linked next (next a) l

theorem Linked.top_eq (linked : Linked next top l) : top = l.head? := by
  cases l with
  | nil => exact linked
  | cons a l => exact linked.1

/-- Taking the first cell off. -/
theorem Linked.pop (linked : Linked next (some a) l) :
    ∃ rest, l = a :: rest ∧ Linked next (next a) rest := by
  cases l with
  | nil => cases linked
  | cons b rest =>
      obtain ⟨same, below⟩ := linked
      cases same
      exact ⟨rest, rfl, below⟩

/-- Putting a cell that points to the first one before it. -/
theorem Linked.push (linked : Linked next top l) (points : next a = top) :
    Linked next (some a) (a :: l) := by
  refine ⟨rfl, ?_⟩
  rw [points]
  exact linked

theorem Linked.unique (linked : Linked next top l) (linked' : Linked next top l') : l = l' := by
  induction l generalizing top l' with
  | nil =>
      cases linked
      cases l' with
      | nil => rfl
      | cons a l' => cases linked'.1
  | cons a l ih =>
      obtain ⟨rfl, below⟩ := linked
      obtain ⟨rest, rfl, below'⟩ := linked'.pop
      rw [ih below below']

/-- A list sees only the cells it consists of. -/
theorem Linked.update [DecidableEq α] (linked : Linked next top l) (outside : a ∉ l)
    (target : Option α) : Linked (Function.update next a target) top l := by
  induction l generalizing top with
  | nil => exact linked
  | cons b l ih =>
      have other : b ≠ a := fun same => outside (same ▸ List.mem_cons_self)
      refine ⟨linked.1, ?_⟩
      rw [Function.update_of_ne other]
      exact ih linked.2 fun inside => outside (List.mem_cons_of_mem b inside)

end ChattingServer
