import ChattingServer.Foundation.Memory

/-!
# Circular windows

A region of `n` cells is used as a circle: after cell `n - 1` comes cell `0`.
`Circular.walk` lists the cells met walking from a position, `Circular.lay`
stores a list along such a walk.  Both are expressed by at most two straight
windows of the memory (`walk_eq_read`, `walk_eq_reads`, `lay_eq_write`,
`lay_eq_writes`), which is how code that copies block by block computes them.
-/

namespace ChattingServer

namespace Circular

variable {α : Type} {m : Memory α} {n f u v : Nat} {xs ys : List α}

/-- The `u` cells met from position `f` on. -/
def walk (m : Memory α) (n f u : Nat) : List α :=
  (List.range u).map fun j => m ((f + j) % n)

/-- Store `xs` along the walk from position `f`; cells past the region keep
their content. -/
def lay (m : Memory α) (n f : Nat) (xs : List α) : Memory α := fun k =>
  if k < n then xs.getD ((k + n - f) % n) (m k) else m k

@[simp] theorem length_walk : (walk m n f u).length = u := by
  simp [walk]

@[simp] theorem walk_zero : walk m n f 0 = [] := rfl

theorem walk_add : walk m n f (u + v) = walk m n f u ++ walk m n ((f + u) % n) v := by
  simp [walk, List.range_add, Nat.add_assoc]

theorem take_walk (h : v ≤ u) : (walk m n f u).take v = walk m n f v := by
  obtain ⟨r, rfl⟩ := Nat.exists_eq_add_of_le h
  rw [walk_add, List.take_left' length_walk]

theorem drop_walk (h : v ≤ u) :
    (walk m n f u).drop v = walk m n ((f + v) % n) (u - v) := by
  obtain ⟨r, rfl⟩ := Nat.exists_eq_add_of_le h
  rw [walk_add, List.drop_left' length_walk, Nat.add_sub_cancel_left]

/-- A walk that does not pass the end is a straight window. -/
theorem walk_eq_read (h : f + u ≤ n) : walk m n f u = m.read f u := by
  refine List.map_congr_left fun j hj => ?_
  have hj := List.mem_range.mp hj
  rw [Nat.mod_eq_of_lt (by omega)]

/-- A walk that passes the end once is a window up to the end and one from
the start. -/
theorem walk_eq_reads (hf : f ≤ n) (hn : n ≤ f + u) (hu : u ≤ n) :
    walk m n f u = m.read f (n - f) ++ m.read 0 (u - (n - f)) := by
  have cut : u = (n - f) + (u - (n - f)) := by omega
  have wrap : (f + (n - f)) % n = 0 := by
    rw [Nat.add_sub_cancel' hf, Nat.mod_self]
  rw [cut, walk_add, wrap, walk_eq_read (by omega), walk_eq_read (by omega)]
  rw [show n - f + (u - (n - f)) - (n - f) = u - (n - f) by omega]

/-- The distance walked back from a cell of the walk. -/
theorem dist_mod (hf : f < n) (hu : u < n) : ((f + u) % n + n - f) % n = u := by
  by_cases h : f + u < n
  · rw [Nat.mod_eq_of_lt h, show f + u + n - f = u + n by omega, Nat.add_mod_right,
      Nat.mod_eq_of_lt hu]
  · have wrapped : (f + u) % n = f + u - n := by
      rw [Nat.mod_eq_sub_mod (Nat.le_of_not_lt h), Nat.mod_eq_of_lt (by omega)]
    rw [wrapped, show f + u - n + n - f = u by omega, Nat.mod_eq_of_lt hu]

theorem lay_mod (hf : f < n) (hu : u < n) :
    lay m n f xs ((f + u) % n) = xs.getD u (m ((f + u) % n)) := by
  have inside : (f + u) % n < n := Nat.mod_lt _ (by omega)
  rw [lay, if_pos inside, dist_mod hf hu]

/-- Laying past the end of a walk extends it by what was laid. -/
theorem walk_lay (hf : f < n) (fits : u + xs.length ≤ n) :
    walk (lay m n ((f + u) % n) xs) n f (u + xs.length) = walk m n f u ++ xs := by
  have pos : 0 < n := by omega
  have start : (f + u) % n < n := Nat.mod_lt _ pos
  rw [walk_add]
  congr 1
  · refine List.map_congr_left fun j hj => ?_
    have hj := List.mem_range.mp hj
    -- the cell lies `n - u + j` steps beyond the place where laying starts
    have back : (f + j) % n = ((f + u) % n + (n - u + j)) % n := by
      rw [Nat.mod_add_mod, show f + u + (n - u + j) = f + j + n by omega, Nat.add_mod_right]
    rw [back, lay_mod start (by omega), ← back, List.getD_eq_default _ _ (by omega)]
  · refine List.ext_getElem length_walk fun j hj hx => ?_
    have hj : j < xs.length := by simpa using hj
    simp only [walk, List.getElem_map, List.getElem_range]
    rw [lay_mod start (by omega), List.getD_eq_getElem _ _ hj]

theorem lay_eq_write (h : f + xs.length ≤ n) : lay m n f xs = m.write f xs := by
  funext k
  unfold lay Memory.write
  by_cases inside : f ≤ k ∧ k < f + xs.length
  · rw [if_pos (by omega), if_pos inside.1, show k + n - f = k - f + n by omega,
      Nat.add_mod_right, Nat.mod_eq_of_lt (by omega)]
  · split
    · rename_i hk
      have out : xs.length ≤ (k + n - f) % n := by
        by_cases hkf : f ≤ k
        · rw [show k + n - f = k - f + n by omega, Nat.add_mod_right, Nat.mod_eq_of_lt (by omega)]
          omega
        · rw [Nat.mod_eq_of_lt (by omega)]
          omega
      rw [List.getD_eq_default _ _ out]
      split
      · rw [List.getD_eq_default _ _ (by omega)]
      · rfl
    · split
      · rw [List.getD_eq_default _ _ (by omega)]
      · rfl

/-- Laying a list is laying its two pieces one after the other. -/
theorem lay_append (hf : f < n) (fits : (xs ++ ys).length ≤ n) :
    lay m n f (xs ++ ys) = lay (lay m n f xs) n ((f + xs.length) % n) ys := by
  rw [List.length_append] at fits
  funext k
  by_cases hk : k < n
  · obtain ⟨u, hu, rfl⟩ : ∃ u, u < n ∧ k = (f + u) % n := by
      refine ⟨(k + n - f) % n, Nat.mod_lt _ (by omega), ?_⟩
      rw [Nat.add_mod_mod, show f + (k + n - f) = k + n by omega, Nat.add_mod_right,
        Nat.mod_eq_of_lt hk]
    have start : (f + xs.length) % n < n := Nat.mod_lt _ (by omega)
    by_cases first : u < xs.length
    · -- a cell of the first piece lies beyond the second piece's walk
      have back : (f + u) % n = ((f + xs.length) % n + (n - xs.length + u)) % n := by
        rw [Nat.mod_add_mod, show f + xs.length + (n - xs.length + u) = f + u + n by omega,
          Nat.add_mod_right]
      rw [lay_mod hf hu, back, lay_mod start (by omega), ← back,
        List.getD_eq_default ys _ (by omega), lay_mod hf hu,
        List.getD_append _ _ _ _ first]
    · obtain ⟨j, rfl⟩ := Nat.exists_eq_add_of_le (Nat.le_of_not_lt first)
      have step : (f + (xs.length + j)) % n = ((f + xs.length) % n + j) % n := by
        rw [Nat.mod_add_mod, Nat.add_assoc]
      rw [lay_mod hf hu, List.getD_append_right _ _ _ _ (by omega), step,
        lay_mod start (by omega), ← step, lay_mod hf hu,
        List.getD_eq_default xs _ (by omega)]
      rw [show xs.length + j - xs.length = j by omega]
  · unfold lay
    rw [if_neg hk, if_neg hk, if_neg hk]

/-- A laying that passes the end is a write up to the end and one at the
start. -/
theorem lay_eq_writes (hf : f < n) (hxs : f + xs.length = n) (fits : (xs ++ ys).length ≤ n) :
    lay m n f (xs ++ ys) = (m.write f xs).write 0 ys := by
  have wrap : (f + xs.length) % n = 0 := by rw [hxs, Nat.mod_self]
  rw [List.length_append] at fits
  rw [lay_append hf (by rw [List.length_append]; exact fits), wrap, lay_eq_write (by omega),
    lay_eq_write (by omega)]

end Circular

end ChattingServer
