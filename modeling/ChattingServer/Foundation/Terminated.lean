import Mathlib.Data.List.GetD

/-!
# Texts that end with a terminator

A buffer holds a text in the cells before its first `zero`, and what comes
behind is of no account.  `Matches` compares what has been read of a buffer so
far with a text, `Copying` is a buffer into which a text is being copied.
-/

namespace ChattingServer

variable {α : Type} {zero : α} {xs ys : List α} {i : Nat}

/-- The text does not end before cell `i`. -/
def Reaches (zero : α) (ys : List α) (i : Nat) : Prop := ∀ j < i, ys.getD j zero ≠ zero

/-- The cells of `xs` are those of `ys`, as far as its text goes. -/
def Matches (zero : α) (xs ys : List α) : Prop :=
  ∀ i < xs.length, Reaches zero ys i → xs.getD i zero = ys.getD i zero

/-- The first `i` cells of `ys` have been copied to `xs`, and the text goes on. -/
def Copying (zero : α) (i : Nat) (xs ys : List α) : Prop :=
  ∀ j < i, xs.getD j zero = ys.getD j zero ∧ ys.getD j zero ≠ zero

theorem Matches.nil : Matches zero [] ys := fun _ inside _ => absurd inside (Nat.not_lt_zero _)

/-- One more cell is read. -/
theorem Matches.snoc (read : Matches zero xs ys) {x : α}
    (same : Reaches zero ys xs.length → x = ys.getD xs.length zero) :
    Matches zero (xs ++ [x]) ys := by
  intro i inside reaches
  rw [List.length_append, List.length_singleton] at inside
  rcases Nat.lt_or_ge i xs.length with old | last
  · rw [List.getD_append _ _ _ _ old]
    exact read i old reaches
  · obtain rfl : i = xs.length := by omega
    rw [List.getD_append_right _ _ _ _ last, Nat.sub_self, List.getD_cons_zero]
    exact same reaches

/-- Buffers that match hold the same text. -/
theorem Matches.takeWhile_eq [DecidableEq α] (same : Matches zero xs ys)
    (length : xs.length = ys.length) :
    xs.takeWhile (· ≠ zero) = ys.takeWhile (· ≠ zero) := by
  induction xs generalizing ys with
  | nil =>
      cases ys with
      | nil => rfl
      | cons y ys => cases length
  | cons x xs ih =>
      cases ys with
      | nil => cases length
      | cons y ys =>
          have first : x = y := same 0 (Nat.succ_pos _) fun j before =>
            absurd before (Nat.not_lt_zero j)
          subst first
          rw [List.takeWhile_cons, List.takeWhile_cons]
          by_cases ends : x = zero
          · simp [ends]
          · rw [if_pos (by simpa using ends), if_pos (by simpa using ends),
              ih ?_ (by simpa using length)]
            intro i inside reaches
            refine same (i + 1) (Nat.succ_lt_succ inside) fun j before => ?_
            cases j with
            | zero => exact ends
            | succ j => exact reaches j (Nat.lt_of_succ_lt_succ before)

theorem Copying.none : Copying zero 0 xs ys := fun _ before => absurd before (Nat.not_lt_zero _)

/-- A cell that has been copied is right. -/
theorem Copying.getD_eq (copying : Copying zero i xs ys) {j : Nat} (before : j < i) :
    xs.getD j zero = ys.getD j zero := (copying j before).1

theorem getD_set_self {x : α} (inside : i < xs.length) : (xs.set i x).getD i zero = x := by
  rw [List.getD_eq_getElem?_getD, List.getElem?_set_self inside, Option.getD_some]

theorem getD_set_of_ne {x : α} {j : Nat} (other : i ≠ j) :
    (xs.set i x).getD j zero = xs.getD j zero := by
  rw [List.getD_eq_getElem?_getD, List.getElem?_set_ne other, List.getD_eq_getElem?_getD]

/-- The next cell is copied, and is not the last. -/
theorem Copying.next (copying : Copying zero i xs ys) (inside : i < xs.length)
    (more : ys.getD i zero ≠ zero) : Copying zero (i + 1) (xs.set i (ys.getD i zero)) ys := by
  intro j before
  rcases eq_or_ne i j with rfl | other
  · exact ⟨getD_set_self inside, more⟩
  · rw [getD_set_of_ne other]
    exact copying j (by omega)

/-- The terminator is copied. -/
theorem Copying.ended (copying : Copying zero i xs ys) (inside : i < xs.length)
    (ends : ys.getD i zero = zero) : Matches zero (xs.set i (ys.getD i zero)) ys := by
  intro j _ reaches
  rcases Nat.lt_trichotomy j i with before | rfl | behind
  · rw [getD_set_of_ne (Nat.ne_of_gt before)]
    exact copying.getD_eq before
  · exact getD_set_self inside
  · exact absurd ends (reaches i behind)

end ChattingServer
