import Mathlib.Data.List.Basic

/-!
# Bounded queues and the calls served on them

`BoundedQueue` is a first-in first-out queue that holds at most `capacity`
elements and takes of an offered list as much as fits.

`serve` runs a list of calls on a state and collects the replies.  Two systems
that answer each call alike from related states answer every list of calls
alike (`serve_related`); that is how a concrete store is shown to be one of
these queues.
-/

namespace ChattingServer

/-- A queue, oldest element first, that holds at most `capacity` elements. -/
structure BoundedQueue (α : Type) (capacity : Nat) where
  items : List α
  items_le : items.length ≤ capacity

namespace BoundedQueue

variable {α : Type} {capacity : Nat} (q : BoundedQueue α capacity)

def empty : BoundedQueue α capacity := ⟨[], Nat.zero_le _⟩

def use : Nat := q.items.length

def free : Nat := capacity - q.use

/-- The queue takes what it has room for. -/
def append (xs : List α) : BoundedQueue α capacity where
  items := q.items ++ xs.take q.free
  items_le := by
    have le := q.items_le
    rw [List.length_append, List.length_take, free, use]
    omega

/-- The oldest elements, at most `k` of them. -/
def front (k : Nat) : List α := q.items.take k

/-- The queue without its `k` oldest elements. -/
def drop (k : Nat) : BoundedQueue α capacity where
  items := q.items.drop k
  items_le := by
    have le := q.items_le
    rw [List.length_drop]
    omega

theorem use_add_free : q.use + q.free = capacity := by
  have le := q.items_le
  unfold free use
  omega

end BoundedQueue

section Calls

variable {Call Reply State Spec : Type}

/-- Serve the calls in order; the replies and the final state. -/
def serve (call : State → Call → Reply × State) : State → List Call → List Reply × State
  | s, [] => ([], s)
  | s, c :: cs =>
      let (r, s') := call s c
      let (rs, s'') := serve call s' cs
      (r :: rs, s'')

theorem serve_cons (call : State → Call → Reply × State) (s : State) (c : Call) (cs : List Call) :
    serve call s (c :: cs) =
      ((call s c).1 :: (serve call (call s c).2 cs).1, (serve call (call s c).2 cs).2) :=
  rfl

/-- Two lists of calls, one after the other. -/
theorem serve_append (call : State → Call → Reply × State) (s : State) (cs cs' : List Call) :
    serve call s (cs ++ cs') =
      ((serve call s cs).1 ++ (serve call (serve call s cs).2 cs').1,
        (serve call (serve call s cs).2 cs').2) := by
  induction cs generalizing s with
  | nil => rfl
  | cons c cs ih => rw [List.cons_append, serve_cons, serve_cons, ih, List.cons_append]

theorem serve_related {call : State → Call → Reply × State} {spec : Spec → Call → Reply × Spec}
    (Related : State → Spec → Prop)
    (each : ∀ s t c, Related s t →
      (call s c).1 = (spec t c).1 ∧ Related (call s c).2 (spec t c).2)
    {s : State} {t : Spec} (related : Related s t) (cs : List Call) :
    (serve call s cs).1 = (serve spec t cs).1 ∧
      Related (serve call s cs).2 (serve spec t cs).2 := by
  induction cs generalizing s t with
  | nil => exact ⟨rfl, related⟩
  | cons c cs ih =>
      have first := each s t c related
      have rest := ih first.2
      refine ⟨?_, rest.2⟩
      show (call s c).1 :: _ = (spec t c).1 :: _
      rw [first.1, rest.1]

end Calls

end ChattingServer
