import Mathlib.Algebra.BigOperators.Group.Finset.Piecewise
import Mathlib.Algebra.Order.BigOperators.Group.Finset
import Mathlib.Data.Set.Finite.Lemmas
import Mathlib.Data.List.Perm.Basic

/-!
# Locks

* `RWLock` is a lock that is held by one thread or shared by several.
* `Holdings` records what threads have acquired and released of each lock, and
  `Holdings.Has` says that what a thread has is a list of locks.
* `CircularWait` is a set of threads each of which waits for a lock that one of
  them holds.  Where threads wait for locks of a higher rank than those they
  hold there is none (`not_circularWait`), and of the threads that are waited
  for one goes on (`exists_holder_not_waiting`).
-/

namespace ChattingServer

inductive Mode where
  | shared
  | exclusive
  deriving DecidableEq

/-- Whether the lock is held exclusively, and how many share it. -/
structure RWLock where
  exclusive : Bool
  shared : Nat
  deriving DecidableEq

namespace RWLock

def unlocked : RWLock := ⟨false, 0⟩

/-- None while the caller has to wait. -/
def acquire (l : RWLock) : Mode → Option RWLock
  | .shared => if l.exclusive then none else some { l with shared := l.shared + 1 }
  | .exclusive => if l.exclusive ∨ 0 < l.shared then none else some { l with exclusive := true }

/-- None for a lock that nobody holds in this mode. -/
def release (l : RWLock) : Mode → Option RWLock
  | .shared => if 0 < l.shared then some { l with shared := l.shared - 1 } else none
  | .exclusive => if l.exclusive then some { l with exclusive := false } else none

/-- How often it has been acquired in this mode and not released. -/
def count (l : RWLock) : Mode → Int
  | .shared => l.shared
  | .exclusive => if l.exclusive then 1 else 0

variable {l l' : RWLock} {mode : Mode}

theorem count_acquire (done : l.acquire mode = some l') (mode' : Mode) :
    l'.count mode' = l.count mode' + if mode' = mode then 1 else 0 := by
  obtain ⟨exclusive, shared⟩ := l
  cases mode with
  | shared =>
      cases exclusive <;> cases done
      cases mode' <;> simp [count]
  | exclusive =>
      obtain ⟨free, same⟩ := Option.ite_none_left_eq_some.mp done
      cases same
      cases mode' <;> simp_all [count]

theorem count_release (done : l.release mode = some l') (mode' : Mode) :
    l'.count mode' = l.count mode' - if mode' = mode then 1 else 0 := by
  obtain ⟨exclusive, shared⟩ := l
  cases mode with
  | shared =>
      obtain ⟨some, same⟩ := Option.ite_none_right_eq_some.mp done
      have one : 1 ≤ shared := some
      cases same
      cases mode' <;> simp [count]
      omega
  | exclusive =>
      cases exclusive <;> cases done
      cases mode' <;> simp [count]

/-- A caller that has to wait, waits for one that has acquired the lock. -/
theorem exists_count_pos (refused : l.acquire mode = none) : ∃ mode', 0 < l.count mode' := by
  obtain ⟨exclusive, shared⟩ := l
  cases exclusive with
  | true => exact ⟨.exclusive, Int.one_pos⟩
  | false =>
      cases mode with
      | shared => cases refused
      | exclusive =>
          refine ⟨.shared, ?_⟩
          by_contra none
          simp_all [acquire, count]

end RWLock

/-! ## What threads hold -/

/-- How often each thread has acquired each lock, less how often it has released
it. -/
abbrev Holdings (Lock : Type) : Type := Nat → Lock → Int

namespace Holdings

variable {Lock : Type} [DecidableEq Lock] {h : Holdings Lock} {t k : Nat} {l : Lock}
  {locks locks' : List Lock}

def empty : Holdings Lock := fun _ _ => 0

def acquire (h : Holdings Lock) (t : Nat) (l : Lock) : Holdings Lock :=
  fun k l' => h k l' + if k = t ∧ l' = l then 1 else 0

def release (h : Holdings Lock) (t : Nat) (l : Lock) : Holdings Lock :=
  fun k l' => h k l' - if k = t ∧ l' = l then 1 else 0

/-- What the thread has acquired and not released is this list. -/
def Has (h : Holdings Lock) (t : Nat) (locks : List Lock) : Prop := ∀ l, h t l = locks.count l

theorem Has.perm (has : h.Has t locks) (same : locks.Perm locks') : h.Has t locks' := by
  intro l
  rw [has l, same.count_eq]

theorem Has.acquire (has : h.Has t locks) (l : Lock) : (h.acquire t l).Has t (locks ++ [l]) := by
  intro l'
  rw [Holdings.acquire, has l', List.count_append, List.count_singleton]
  rcases eq_or_ne l l' with rfl | other
  · simp
  · simp [other, other.symm]

theorem Has.release (has : h.Has t (l :: locks)) : (h.release t l).Has t locks := by
  intro l'
  rw [Holdings.release, has l', List.count_cons]
  rcases eq_or_ne l l' with rfl | other
  · simp
  · simp [other, other.symm]

theorem Has.acquire_of_ne (has : h.Has k locks) (other : k ≠ t) : (h.acquire t l).Has k locks := by
  intro l'
  rw [Holdings.acquire, has l']
  simp [other]

theorem Has.release_of_ne (has : h.Has k locks) (other : k ≠ t) : (h.release t l).Has k locks := by
  intro l'
  rw [Holdings.release, has l']
  simp [other]

/-- What the first `n` threads have of the lock. -/
def total (h : Holdings Lock) (n : Nat) (l : Lock) : Int := ∑ k ∈ Finset.range n, h k l

/-- One acquisition, added over the threads. -/
theorem sum_one {n : Nat} (inside : t < n) (l' : Lock) :
    (∑ k ∈ Finset.range n, if k = t ∧ l' = l then (1 : Int) else 0) = if l' = l then 1 else 0 := by
  by_cases same : l' = l
  · simp [same, inside]
  · simp [same]

theorem total_acquire {n : Nat} (inside : t < n) (l' : Lock) :
    (h.acquire t l).total n l' = h.total n l' + if l' = l then 1 else 0 := by
  rw [total, total, ← sum_one inside l', ← Finset.sum_add_distrib]
  rfl

theorem total_release {n : Nat} (inside : t < n) (l' : Lock) :
    (h.release t l).total n l' = h.total n l' - if l' = l then 1 else 0 := by
  rw [total, total, ← sum_one inside l', ← Finset.sum_sub_distrib]
  rfl

omit [DecidableEq Lock] in
theorem exists_pos_of_total_pos {n : Nat} (pos : 0 < h.total n l) : ∃ k, 0 < h k l := by
  by_contra none
  have nonpos : h.total n l ≤ 0 :=
    Finset.sum_nonpos fun k _ => Int.not_lt.mp fun holds => none ⟨k, holds⟩
  exact absurd pos (Int.not_lt.mpr nonpos)

theorem Has.pos_iff (has : h.Has t locks) : 0 < h t l ↔ l ∈ locks := by
  rw [has l, Int.natCast_pos, List.count_pos_iff]

end Holdings

/-! ## Waiting -/

section Waiting

variable {Thread Lock : Type} {waits holds : Thread → Lock → Prop}

/-- Each thread of the set waits for a lock that a thread of the set holds. -/
def CircularWait (waits holds : Thread → Lock → Prop) (S : Set Thread) : Prop :=
  S.Nonempty ∧ ∀ t ∈ S, ∃ l, waits t l ∧ ∃ k ∈ S, holds k l

/-- Where finitely many threads wait, each for a lock of a higher rank than
those it holds, no set of threads waits for itself. -/
theorem not_circularWait (rank : Lock → Nat) (finite : {t | ∃ l, waits t l}.Finite)
    (ordered : ∀ t l l', waits t l → holds t l' → rank l' < rank l) (S : Set Thread) :
    ¬ CircularWait waits holds S := by
  rintro ⟨⟨first, begins⟩, circular⟩
  have : Nonempty Thread := ⟨first⟩
  have : Nonempty Lock := ⟨(circular first begins).choose⟩
  choose! lock waiting holder inside held using circular
  have few : S.Finite := finite.subset fun t member => ⟨lock t, waiting t member⟩
  obtain ⟨t, member, highest⟩ := Set.exists_max_image S (rank ∘ lock) few ⟨first, begins⟩
  have higher := ordered _ _ _ (waiting _ (inside t member)) (held t member)
  exact absurd (highest _ (inside t member)) (Nat.not_le.mpr higher)

/-- Of the threads that the waiting ones wait for, one does not wait. -/
theorem exists_holder_not_waiting (none : ∀ S, ¬ CircularWait waits holds S)
    (held : ∀ t l, waits t l → ∃ k, holds k l) (some : ∃ t l, waits t l) :
    ∃ t l k, waits t l ∧ holds k l ∧ ∀ l', ¬ waits k l' := by
  by_contra all
  push Not at all
  apply none {t | ∃ l, waits t l}
  refine ⟨some, ?_⟩
  intro t ⟨l, waiting⟩
  obtain ⟨k, holding⟩ := held t l waiting
  exact ⟨l, waiting, k, all t l k waiting holding, holding⟩

end Waiting

end ChattingServer
