import Mathlib.Order.Bounds.Basic
import Mathlib.Order.Monotone.Basic

/-!
# The largest of the values so far

A running maximum is kept as the image of the largest key under a strictly
monotone map, and replaced by the image of the next key when some test says so.
`isGreatest_replace_iff` says which tests keep it right: those that decide as
the keys compare, whatever they say of a key equal to the largest.
`isLeast_replace_iff` is the same law in the dual orders.
-/

namespace ChattingServer

theorem image_mem_snoc {α β : Type} (f : α → β) (xs : List α) (a : α) :
    f '' {x | x ∈ xs ++ [a]} = insert (f a) (f '' {x | x ∈ xs}) := by
  have keys : {x | x ∈ xs ++ [a]} = insert a {x | x ∈ xs} := by
    ext x
    simp [or_comm]
  rw [keys, Set.image_insert_eq]

variable {α β : Type} [LinearOrder α] [LinearOrder β] {f : α → β} {xs : List α} {a : α} {M : β}

theorem ite_eq_max_iff (mono : StrictMono f) (a b : α) (test : Prop) [Decidable test] :
    (if test then f a else f b) = max (f a) (f b) ↔ (b < a → test) ∧ (a < b → ¬ test) := by
  rcases lt_trichotomy a b with less | rfl | more
  · rw [max_eq_right (mono less).le]
    by_cases here : test
    · rw [if_pos here]
      exact iff_of_false (mono less).ne fun agrees => agrees.2 less here
    · rw [if_neg here]
      exact iff_of_true rfl ⟨fun other => absurd less other.asymm, fun _ => here⟩
  · rw [max_self, ite_self]
    exact iff_of_true rfl ⟨fun other => absurd other (lt_irrefl a),
      fun other => absurd other (lt_irrefl a)⟩
  · rw [max_eq_left (mono more).le]
    by_cases here : test
    · rw [if_pos here]
      exact iff_of_true rfl ⟨fun _ => here, fun other => absurd more other.asymm⟩
    · rw [if_neg here]
      exact iff_of_false (mono more).ne fun agrees => here (agrees.1 more)

/-- The next key. -/
theorem isGreatest_replace_iff (mono : StrictMono f) (greatest : IsGreatest (f '' {x | x ∈ xs}) M)
    (test : Prop) [Decidable test] :
    IsGreatest (f '' {x | x ∈ xs ++ [a]}) (if test then f a else M) ↔
      ∀ D ∈ xs, (∀ x ∈ xs, x ≤ D) → (D < a → test) ∧ (a < D → ¬ test) := by
  have next : IsGreatest (f '' {x | x ∈ xs ++ [a]}) (max (f a) M) := by
    rw [image_mem_snoc]
    exact greatest.insert _
  obtain ⟨⟨E, listed, rfl⟩, bound⟩ := greatest
  have most : ∀ x ∈ xs, x ≤ E := fun x old => mono.le_iff_le.mp (bound ⟨x, old, rfl⟩)
  have value : IsGreatest (f '' {x | x ∈ xs ++ [a]}) (if test then f a else f E) ↔
      (if test then f a else f E) = max (f a) (f E) :=
    ⟨fun replaced => replaced.unique next, fun same => same ▸ next⟩
  rw [value, ite_eq_max_iff mono]
  constructor
  · intro agrees D old most'
    rw [le_antisymm (most D old) (most' E listed)]
    exact agrees
  · intro agrees
    exact agrees E listed most

theorem isLeast_replace_iff (mono : StrictMono f) (least : IsLeast (f '' {x | x ∈ xs}) M)
    (test : Prop) [Decidable test] :
    IsLeast (f '' {x | x ∈ xs ++ [a]}) (if test then f a else M) ↔
      ∀ D ∈ xs, (∀ x ∈ xs, D ≤ x) → (a < D → test) ∧ (D < a → ¬ test) :=
  @isGreatest_replace_iff αᵒᵈ βᵒᵈ _ _ f xs a M mono.dual least test _

end ChattingServer
