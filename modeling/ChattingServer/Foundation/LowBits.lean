import Mathlib.Algebra.Group.Nat.Defs
import Mathlib.Tactic.ByContra

/-!
# The lowest bit in which two words differ

`DiffersFrom b x y`: the words are alike below bit `b` and differ in it.  What
lies above is left open, so the relation survives an exclusive or with a common
word and the carries of a common addend.  Two such pairs combined by exclusive
or are alike through bit `b`; added to a pair that is, they differ.
-/

namespace ChattingServer

variable {w b : Nat} {x y u v : BitVec w}

/-- Alike in bits `0` to `b`. -/
def AlikeThrough (b : Nat) (x y : BitVec w) : Prop := x.setWidth (b + 1) = y.setWidth (b + 1)

/-- Alike below bit `b`, and different in it. -/
structure DiffersFrom (b : Nat) (x y : BitVec w) : Prop where
  below : x.setWidth b = y.setWidth b
  differ : x.setWidth (b + 1) ≠ y.setWidth (b + 1)

theorem DiffersFrom.ne (h : DiffersFrom b x y) : x ≠ y := fun same => h.differ (by rw [same])

theorem DiffersFrom.getLsbD (h : DiffersFrom b x y) {i : Nat} (inside : i < b) :
    x.getLsbD i = y.getLsbD i := by
  have bit : (x.setWidth b).getLsbD i = (y.setWidth b).getLsbD i := by rw [h.below]
  simpa [BitVec.getLsbD_setWidth, inside] using bit

theorem DiffersFrom.getLsbD_self (h : DiffersFrom b x y) : x.getLsbD b = !y.getLsbD b := by
  by_contra alike
  have bit : x.getLsbD b = y.getLsbD b := by
    revert alike
    cases x.getLsbD b <;> cases y.getLsbD b <;> decide
  apply h.differ
  apply BitVec.eq_of_getLsbD_eq
  intro i inside
  rw [BitVec.getLsbD_setWidth, BitVec.getLsbD_setWidth]
  rcases Nat.lt_or_ge i b with below | top
  · rw [h.getLsbD below]
  · obtain rfl : i = b := by omega
    rw [bit]

/-- Flipping one bit. -/
theorem differsFrom_xor_twoPow (inside : b < w) : DiffersFrom b (x ^^^ BitVec.twoPow w b) x where
  below := by
    apply BitVec.eq_of_getLsbD_eq
    intro i below
    have other : ¬ b = i := by omega
    simp [BitVec.getLsbD_setWidth, BitVec.getLsbD_twoPow, other]
  differ := by
    intro same
    have bit : ((x ^^^ BitVec.twoPow w b).setWidth (b + 1)).getLsbD b =
        (x.setWidth (b + 1)).getLsbD b := by rw [same]
    rw [BitVec.getLsbD_setWidth, BitVec.getLsbD_setWidth, BitVec.getLsbD_xor,
      BitVec.getLsbD_twoPow] at bit
    revert bit
    cases x.getLsbD b <;> simp [inside]

/-- A common addend. -/
theorem DiffersFrom.add (h : DiffersFrom b x y) (k : BitVec w) (inside : b < w) :
    DiffersFrom b (x + k) (y + k) where
  below := by
    rw [BitVec.setWidth_add _ _ (by omega), BitVec.setWidth_add _ _ (by omega), h.below]
  differ := by
    rw [BitVec.setWidth_add _ _ (by omega), BitVec.setWidth_add _ _ (by omega)]
    exact fun same => h.differ (BitVec.add_left_inj _ |>.mp same)

/-- An exclusive or with a common word. -/
theorem DiffersFrom.xor (h : DiffersFrom b x y) (k : BitVec w) :
    DiffersFrom b (k ^^^ x) (k ^^^ y) where
  below := by rw [BitVec.setWidth_xor, BitVec.setWidth_xor, h.below]
  differ := by
    rw [BitVec.setWidth_xor, BitVec.setWidth_xor]
    intro same
    apply h.differ
    exact BitVec.xor_right_inj _ |>.mp same

/-- The differences of two pairs cancel in bit `b`. -/
theorem DiffersFrom.xor_differs (h : DiffersFrom b x y) (k : DiffersFrom b u v) :
    AlikeThrough b (x ^^^ u) (y ^^^ v) := by
  apply BitVec.eq_of_getLsbD_eq
  intro i inside
  rw [BitVec.getLsbD_setWidth, BitVec.getLsbD_setWidth, BitVec.getLsbD_xor, BitVec.getLsbD_xor]
  rcases Nat.lt_or_ge i b with below | top
  · rw [h.getLsbD below, k.getLsbD below]
  · obtain rfl : i = b := by omega
    rw [h.getLsbD_self, k.getLsbD_self, Bool.not_xor_not]

/-- A difference that starts at bit `b` is not made up for by words that are
alike through it. -/
theorem DiffersFrom.add_ne (h : DiffersFrom b x y) (k : AlikeThrough b u v) (inside : b < w) :
    x + u ≠ y + v := by
  intro same
  have low : (x + u).setWidth (b + 1) = (y + v).setWidth (b + 1) := by rw [same]
  rw [BitVec.setWidth_add _ _ (by omega), BitVec.setWidth_add _ _ (by omega), k] at low
  exact h.differ (BitVec.add_left_inj _ |>.mp low)

/-- Words that differ in the top bit alone are half their range apart. -/
theorem DiffersFrom.apart {x y : BitVec (b + 1)} (h : DiffersFrom b x y) :
    x.toNat = y.toNat + 2 ^ b ∨ y.toNat = x.toNat + 2 ^ b := by
  have below := congrArg BitVec.toNat h.below
  rw [BitVec.toNat_setWidth, BitVec.toNat_setWidth] at below
  have other : x.toNat ≠ y.toNat := fun same => h.ne (BitVec.eq_of_toNat_eq same)
  have left := x.isLt
  have right := y.isLt
  rw [Nat.pow_succ] at left right
  rcases Nat.lt_or_ge x.toNat (2 ^ b) with low | high <;>
    rcases Nat.lt_or_ge y.toNat (2 ^ b) with low' | high'
  · rw [Nat.mod_eq_of_lt low, Nat.mod_eq_of_lt low'] at below
    exact absurd below other
  · rw [Nat.mod_eq_of_lt low, Nat.mod_eq_sub_mod high', Nat.mod_eq_of_lt (by omega)] at below
    exact Or.inr (by omega)
  · rw [Nat.mod_eq_sub_mod high, Nat.mod_eq_of_lt (by omega), Nat.mod_eq_of_lt low'] at below
    exact Or.inl (by omega)
  · rw [Nat.mod_eq_sub_mod high, Nat.mod_eq_of_lt (by omega), Nat.mod_eq_sub_mod high',
      Nat.mod_eq_of_lt (by omega)] at below
    omega

/-- Two differences in the top bit alone cancel in a sum. -/
theorem DiffersFrom.add_eq {x y u v : BitVec (b + 1)} (h : DiffersFrom b x y)
    (k : DiffersFrom b u v) : x + u = y + v := by
  apply BitVec.eq_of_toNat_eq
  rw [BitVec.toNat_add, BitVec.toNat_add, Nat.pow_succ]
  rcases h.apart with first | first <;> rcases k.apart with second | second <;>
    rw [first, second]
  · rw [show y.toNat + 2 ^ b + (v.toNat + 2 ^ b) = y.toNat + v.toNat + 2 ^ b * 2 by omega,
      Nat.add_mod_right]
  · rw [Nat.add_right_comm, Nat.add_assoc]
  · rw [Nat.add_right_comm, Nat.add_assoc]
  · rw [show x.toNat + 2 ^ b + (u.toNat + 2 ^ b) = x.toNat + u.toNat + 2 ^ b * 2 by omega,
      Nat.add_mod_right]

end ChattingServer
