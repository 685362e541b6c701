import Mathlib.Data.List.Nodup
import Mathlib.Data.Finset.Basic
import Mathlib.Logic.Function.Basic

/-!
# Values filed in buckets

A family of lists indexes values by a place each of them names: `Filed` says a
value lies once in the bucket of its place and in no other bucket.  Removing
and adding a value keep that when its place is changed along with the buckets,
and walking through different buckets meets each value once.
-/

namespace ChattingServer

variable {α β : Type}

/-- Every value lies once in the bucket of its place, and in no other. -/
structure Filed (buckets : β → List α) (place : α → Option β) : Prop where
  nodup : ∀ b, (buckets b).Nodup
  mem : ∀ b a, a ∈ buckets b ↔ place a = some b

namespace Filed

variable {buckets : β → List α} {place : α → Option β} {a : α} {b : β}

/-- A walk through different buckets meets nobody twice. -/
theorem nodup_flatMap (filed : Filed buckets place) {bs : List β} (different : bs.Nodup) :
    (bs.flatMap buckets).Nodup := by
  rw [List.nodup_flatMap]
  refine ⟨fun b _ => filed.nodup b, different.imp ?_⟩
  intro b c other v first second
  rw [filed.mem] at first second
  exact other (Option.some.inj (first.symm.trans second))

theorem mem_flatMap (filed : Filed buckets place) {bs : List β} :
    a ∈ bs.flatMap buckets ↔ ∃ b ∈ bs, place a = some b := by
  rw [List.mem_flatMap]
  simp only [filed.mem]

variable [DecidableEq α] [DecidableEq β]

/-- A value taken out of its bucket has no place. -/
theorem remove (filed : Filed buckets place) (here : place a = some b) :
    Filed (Function.update buckets b ((buckets b).erase a)) (Function.update place a none) where
  nodup := by
    intro k
    rcases eq_or_ne k b with rfl | other
    · rw [Function.update_self]
      exact (filed.nodup k).erase a
    · rw [Function.update_of_ne other]
      exact filed.nodup k
  mem := by
    intro k v
    rcases eq_or_ne v a with rfl | different
    · rw [Function.update_self]
      refine iff_of_false ?_ (by simp)
      rcases eq_or_ne k b with rfl | other
      · rw [Function.update_self]
        exact (filed.nodup k).not_mem_erase
      · rw [Function.update_of_ne other, filed.mem, here]
        exact fun same => other (Option.some.inj same).symm
    · rw [Function.update_of_ne different, ← filed.mem]
      rcases eq_or_ne k b with rfl | other
      · rw [Function.update_self, List.mem_erase_of_ne different]
      · rw [Function.update_of_ne other]

/-- A value without a place may be given one. -/
theorem add (filed : Filed buckets place) (nowhere : place a = none) :
    Filed (Function.update buckets b ((buckets b).insert a))
      (Function.update place a (some b)) where
  nodup := by
    intro k
    rcases eq_or_ne k b with rfl | other
    · rw [Function.update_self]
      exact (filed.nodup k).insert
    · rw [Function.update_of_ne other]
      exact filed.nodup k
  mem := by
    intro k v
    rcases eq_or_ne v a with rfl | different
    · rw [Function.update_self]
      rcases eq_or_ne k b with rfl | other
      · rw [Function.update_self]
        exact iff_of_true (List.mem_insert_self) rfl
      · rw [Function.update_of_ne other, filed.mem, nowhere]
        exact iff_of_false (by simp) fun same => other (Option.some.inj same).symm
    · rw [Function.update_of_ne different, ← filed.mem]
      rcases eq_or_ne k b with rfl | other
      · rw [Function.update_self, List.mem_insert_iff, or_iff_right different]
      · rw [Function.update_of_ne other]

/-- A value may be moved to another place, or to the one it has. -/
theorem move (filed : Filed buckets place) (here : place a = some b) (c : β) :
    let without := Function.update buckets b ((buckets b).erase a)
    Filed (Function.update without c ((without c).insert a))
      (Function.update place a (some c)) := by
  have added := (filed.remove here).add (b := c) (Function.update_self a none place)
  rw [Function.update_idem] at added
  exact added

end Filed

end ChattingServer
