import Mathlib.Algebra.Order.BigOperators.Group.List
import Mathlib.Algebra.Order.Ring.Nat
import Mathlib.Data.List.Nodup

/-!
# Walking through places while a thing moves

A walker visits places one after another and counts how often it meets a thing
that moves about among them.  It meets it once, and once more for each move of
the thing from behind the walker to before it, and once less for each move the
other way (`Sweep.Balanced`).
-/

namespace ChattingServer

variable {κ : Type} [DecidableEq κ]

/-- The places still to visit, where the thing is, and how often it was met,
moved back before the walker, and moved away behind it. -/
structure Sweep (κ : Type) where
  left : List κ
  place : κ
  met : Nat
  again : Nat
  missed : Nat

namespace Sweep

def start (places : List κ) (place : κ) : Sweep κ := ⟨places, place, 0, 0, 0⟩

/-- The walker visits the next place. -/
def visit (w : Sweep κ) : Sweep κ :=
  match w.left with
  | [] => w
  | k :: left => { w with left := left, met := w.met + if w.place = k then 1 else 0 }

/-- The thing moves. -/
def move (w : Sweep κ) (k : κ) : Sweep κ :=
  { w with
    place := k
    again := w.again + if w.place ∉ w.left ∧ k ∈ w.left then 1 else 0
    missed := w.missed + if w.place ∈ w.left ∧ k ∉ w.left then 1 else 0 }

structure Balanced (w : Sweep κ) : Prop where
  nodup : w.left.Nodup
  law : w.met + (if w.place ∈ w.left then 1 else 0) + w.missed = 1 + w.again

variable {w : Sweep κ}

theorem balanced_start {places : List κ} {place : κ} (nodup : places.Nodup)
    (inside : place ∈ places) : (start places place).Balanced :=
  ⟨nodup, by simp [start, inside]⟩

theorem Balanced.visit (balanced : w.Balanced) : w.visit.Balanced := by
  obtain ⟨nodup, law⟩ := balanced
  unfold Sweep.visit
  split
  · exact ⟨nodup, law⟩
  · rename_i k left same
    rw [same] at nodup law
    obtain ⟨fresh, rest⟩ := List.nodup_cons.mp nodup
    refine ⟨rest, ?_⟩
    dsimp only
    by_cases here : w.place = k
    · rw [if_pos here, if_neg (here.symm ▸ fresh)]
      rw [if_pos (here ▸ List.mem_cons_self)] at law
      omega
    · have same' : w.place ∈ k :: left ↔ w.place ∈ left :=
        List.mem_cons.trans (or_iff_right here)
      rw [if_neg here]
      simp only [same'] at law
      omega

theorem Balanced.move (balanced : w.Balanced) (k : κ) : (w.move k).Balanced := by
  obtain ⟨nodup, law⟩ := balanced
  refine ⟨nodup, ?_⟩
  unfold Sweep.move
  dsimp only
  -- on which side of the walker the thing was, and is
  by_cases before : w.place ∈ w.left
  · by_cases now : k ∈ w.left
    · simpa [before, now] using law
    · simp [before, now] at law ⊢
      omega
  · by_cases now : k ∈ w.left
    · simp [before, now] at law ⊢
      omega
    · simpa [before, now] using law

/-- A walker that is done. -/
theorem Balanced.done (balanced : w.Balanced) (none : w.left = []) :
    w.met + w.missed = 1 + w.again := by
  have law := balanced.law
  rw [none] at law
  simpa using law

end Sweep

/-- The one place that has any weight. -/
theorem weight_eq_of_sum_one {places : List κ} {weight : κ → Nat}
    (one : (places.map weight).sum = 1) {a b : κ} (inside : a ∈ places) (pos : 0 < weight a)
    (inside' : b ∈ places) : weight b = if a = b then 1 else 0 := by
  have split := List.sum_map_erase weight inside
  split
  · rename_i same
    subst same
    omega
  · rename_i other
    have member : b ∈ places.erase a := (List.mem_erase_of_ne (Ne.symm other)).mpr inside'
    have part : weight b ≤ ((places.erase a).map weight).sum :=
      List.single_le_sum (fun _ _ => Nat.zero_le _) _ (List.mem_map_of_mem member)
    omega

/-- The weight stays where it was when no place gets any and one keeps some. -/
theorem weight_stays {places : List κ} {weight weight' : κ → Nat}
    (one : (places.map weight).sum = 1) (one' : (places.map weight').sum = 1)
    (less : ∀ k, weight' k ≤ weight k) {a : κ} (inside : a ∈ places) (pos : 0 < weight a) :
    0 < weight' a := by
  by_contra none
  have all : (places.map weight').sum = 0 := by
    apply List.sum_eq_zero
    intro n member
    obtain ⟨k, inside', rfl⟩ := List.mem_map.mp member
    have before := weight_eq_of_sum_one one inside pos inside'
    have now := less k
    rcases eq_or_ne a k with rfl | other
    · omega
    · rw [if_neg other] at before
      omega
  omega

end ChattingServer
