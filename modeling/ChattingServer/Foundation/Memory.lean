import Mathlib.Algebra.GroupWithZero.Nat
import Mathlib.Data.List.GetD

/-!
# Cell memories and their windows

A memory is a total map from addresses to cells.  `Memory.read` lists a window
of it and `Memory.write` stores a list at an address; the lemmas say how the
two meet: a window read back where it was written, a window untouched by a
write beside it, a window cut in two.  Bounds are the business of whoever owns
the memory.
-/

namespace ChattingServer

/-- A memory of cells of type `α`. -/
abbrev Memory (α : Type) : Type := Nat → α

namespace Memory

variable {α : Type} {m : Memory α} {a b n k : Nat} {xs ys : List α}

/-- The `n` cells from address `a` on. -/
def read (m : Memory α) (a n : Nat) : List α :=
  (List.range n).map fun j => m (a + j)

/-- Store `xs` from address `a` on. -/
def write (m : Memory α) (a : Nat) (xs : List α) : Memory α := fun k =>
  if a ≤ k then xs.getD (k - a) (m k) else m k

@[simp] theorem length_read : (m.read a n).length = n := by
  simp [read]

@[simp] theorem read_zero : m.read a 0 = [] := rfl

@[simp] theorem getElem_read {j : Nat} (h : j < (m.read a n).length) :
    (m.read a n)[j] = m (a + j) := by
  simp [read]

/-- A window is its first part followed by the rest. -/
theorem read_add : m.read a (n + k) = m.read a n ++ m.read (a + n) k := by
  simp [read, List.range_add, Nat.add_assoc]

theorem take_read (h : k ≤ n) : (m.read a n).take k = m.read a k := by
  obtain ⟨r, rfl⟩ := Nat.exists_eq_add_of_le h
  rw [read_add, List.take_left' length_read]

theorem drop_read (h : k ≤ n) : (m.read a n).drop k = m.read (a + k) (n - k) := by
  obtain ⟨r, rfl⟩ := Nat.exists_eq_add_of_le h
  rw [read_add, List.drop_left' length_read, Nat.add_sub_cancel_left]

/-- Two memories that agree on a window list the same cells there. -/
theorem read_congr {m' : Memory α} (h : ∀ j, j < n → m (a + j) = m' (a + j)) :
    m.read a n = m'.read a n := by
  refine List.map_congr_left fun j hj => h j ?_
  exact List.mem_range.mp hj

@[simp] theorem write_nil : m.write a [] = m := by
  funext k
  simp [write]

theorem write_of_mem (h : n < xs.length) : m.write a xs (a + n) = xs[n] := by
  simp [write, h]

theorem write_of_not_mem (h : k < a ∨ a + xs.length ≤ k) : m.write a xs k = m k := by
  unfold write
  split
  · rw [List.getD_eq_default _ _ (by omega)]
  · rfl

/-- What was written is read back. -/
theorem read_write (m : Memory α) (a : Nat) (xs : List α) :
    (m.write a xs).read a xs.length = xs := by
  refine List.ext_getElem (by simp) fun j hj hx => ?_
  rw [getElem_read, write_of_mem hx]

theorem read_write_of_length (h : xs.length = n) : (m.write a xs).read a n = xs := by
  subst h
  exact read_write m a xs

/-- A window beside a write keeps its cells. -/
theorem read_write_disjoint (h : a + n ≤ b ∨ b + xs.length ≤ a) :
    (m.write b xs).read a n = m.read a n := by
  refine read_congr fun j hj => write_of_not_mem ?_
  omega

/-- Store `xs` over a list of segments, each an address and a length, in
order. -/
def scatter (m : Memory α) : List (Nat × Nat) → List α → Memory α
  | [], _ => m
  | (a, n) :: segments, xs => scatter (m.write a (xs.take n)) segments (xs.drop n)

/-- What goes past the segments is not stored. -/
theorem scatter_take (segments : List (Nat × Nat)) :
    m.scatter segments (xs.take (segments.map Prod.snd).sum) = m.scatter segments xs := by
  induction segments generalizing m xs with
  | nil => rfl
  | cons s segments ih =>
      obtain ⟨a, n⟩ := s
      simp only [scatter, List.map_cons, List.sum_cons]
      rw [List.take_take, Nat.min_eq_left (Nat.le_add_right _ _), List.drop_take,
        Nat.add_sub_cancel_left, ih]

end Memory

end ChattingServer
