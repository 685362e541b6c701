import Mathlib.Logic.Basic

/-!
# Linearization points

An object that threads share is called, does what it is called for, and answers:
three moments of an operation, of which the second is the point where it takes
effect.  A history lists the moments of all threads in the order of time.

* `Turns` says that the moments of one thread come in turn, with the same result
  where an operation takes effect and where it answers.
* `replay` runs the effects on a sequential object, in their order in the history.
* `Turns.exists_effect` and `Turns.exists_invoke` put every effect between its
  call and its answer, so the order of the effects is one that the threads could
  have seen.
-/

namespace ChattingServer

variable {Op Res State : Type}

inductive Moment (Op Res : Type) where
  | invoke (t : Nat) (op : Op)
  | effect (t : Nat) (op : Op) (res : Res)
  | respond (t : Nat) (res : Res)
  deriving DecidableEq

@[simp] def Moment.thread : Moment Op Res → Nat
  | .invoke t _ => t
  | .effect t _ _ => t
  | .respond t _ => t

/-- How far a thread is with its operation. -/
inductive Stage (Op Res : Type) where
  | idle
  | called (op : Op)
  | took (op : Op) (res : Res)

/-- What a moment does to the stage of thread `t`. -/
inductive Turn (t : Nat) : Stage Op Res → Moment Op Res → Stage Op Res → Prop
  | invoke (op : Op) : Turn t .idle (.invoke t op) (.called op)
  | effect (op : Op) (res : Res) : Turn t (.called op) (.effect t op res) (.took op res)
  | respond (op : Op) (res : Res) : Turn t (.took op res) (.respond t res) .idle
  | other {stage : Stage Op Res} {m : Moment Op Res} (apart : m.thread ≠ t) : Turn t stage m stage

/-- Thread `t` starts idle and is at a stage after the history. -/
inductive Turns (t : Nat) : List (Moment Op Res) → Stage Op Res → Prop
  | start : Turns t [] .idle
  | snoc {h : List (Moment Op Res)} {p q : Stage Op Res} {m : Moment Op Res} (before : Turns t h p)
      (turn : Turn t p m q) : Turns t (h ++ [m]) q

namespace Turns

variable {t : Nat} {h h' : List (Moment Op Res)} {p : Stage Op Res} {op : Op} {res : Res}

/-- Moments of others leave the thread where it is. -/
theorem of_others (turns : Turns t h p) (others : ∀ m ∈ h', m.thread ≠ t) :
    Turns t (h ++ h') p := by
  induction h' generalizing h with
  | nil =>
      rw [List.append_nil]
      exact turns
  | cons m h' ih =>
      rw [List.append_cons]
      refine ih (turns.snoc (.other (others m List.mem_cons_self))) ?_
      intro m' member
      exact others m' (List.mem_cons_of_mem m member)

/-- What happens is in turn from the beginning on. -/
theorem of_append (turns : Turns t (h ++ h') p) : ∃ q, Turns t h q := by
  generalize whole : h ++ h' = all at turns
  induction turns generalizing h' with
  | start =>
      obtain ⟨rfl, -⟩ := List.append_eq_nil_iff.mp whole
      exact ⟨_, .start⟩
  | snoc before turn ih =>
      rcases List.eq_nil_or_concat h' with rfl | ⟨front, last, rfl⟩
      · rw [List.append_nil] at whole
        subst whole
        exact ⟨_, before.snoc turn⟩
      · rw [List.concat_eq_append, ← List.append_assoc] at whole
        exact ih (List.append_inj' whole rfl).1

/-- The last moment is a turn. -/
theorem of_snoc {m : Moment Op Res} (turns : Turns t (h ++ [m]) p) :
    ∃ q, Turns t h q ∧ Turn t q m p := by
  generalize whole : h ++ [m] = all at turns
  cases turns with
  | start => exact absurd whole (List.append_ne_nil_of_right_ne_nil h (List.cons_ne_nil m []))
  | snoc before turn =>
      obtain ⟨rfl, same⟩ := List.append_inj' whole rfl
      cases same
      exact ⟨_, before, turn⟩

/-- A thread that has been called has called, and done nothing since. -/
theorem exists_of_called (turns : Turns t h (.called op)) :
    ∃ a b, h = a ++ .invoke t op :: b ∧ ∀ m ∈ b, m.thread ≠ t := by
  generalize stage : Stage.called op = p at turns
  induction turns with
  | start => cases stage
  | @snoc h p q m before turn ih =>
      cases turn with
      | invoke op' =>
          cases stage
          exact ⟨h, [], rfl, fun m member => absurd member List.not_mem_nil⟩
      | effect op' res => cases stage
      | respond op' res => cases stage
      | other apart =>
          obtain ⟨a, b, rfl, others⟩ := ih stage
          refine ⟨a, b ++ [m], by rw [List.append_assoc, List.cons_append], ?_⟩
          intro m' member
          rcases List.mem_append.mp member with old | last
          · exact others m' old
          · rw [List.mem_singleton.mp last]
            exact apart

/-- A thread whose operation has taken effect has done nothing since. -/
theorem exists_of_took (turns : Turns t h (.took op res)) :
    ∃ a b, h = a ++ .effect t op res :: b ∧ (∀ m ∈ b, m.thread ≠ t) ∧
      Turns t a (.called op) := by
  generalize stage : Stage.took op res = p at turns
  induction turns with
  | start => cases stage
  | @snoc h p q m before turn ih =>
      cases turn with
      | invoke op' => cases stage
      | effect op' res' =>
          cases stage
          exact ⟨h, [], rfl, fun m member => absurd member List.not_mem_nil, before⟩
      | respond op' res' => cases stage
      | other apart =>
          obtain ⟨a, b, rfl, others, called⟩ := ih stage
          refine ⟨a, b ++ [m], by rw [List.append_assoc, List.cons_append], ?_, called⟩
          intro m' member
          rcases List.mem_append.mp member with old | last
          · exact others m' old
          · rw [List.mem_singleton.mp last]
            exact apart

/-- An operation takes effect after its call, the thread doing nothing between. -/
theorem exists_invoke (turns : Turns t (h ++ .effect t op res :: h') p) :
    ∃ a b, h = a ++ .invoke t op :: b ∧ ∀ m ∈ b, m.thread ≠ t := by
  rw [List.append_cons] at turns
  obtain ⟨q, upTo⟩ := turns.of_append
  obtain ⟨r, before, turn⟩ := upTo.of_snoc
  cases turn with
  | effect op' res' => exact before.exists_of_called
  | other apart => exact absurd rfl apart

/-- An operation that answers has taken effect since its call, with the result that
it answers. -/
theorem exists_effect (turns : Turns t (h ++ .respond t res :: h') p) :
    ∃ a b c op, h = a ++ .invoke t op :: b ++ .effect t op res :: c ∧
      ∀ m ∈ b ++ c, m.thread ≠ t := by
  rw [List.append_cons] at turns
  obtain ⟨q, upTo⟩ := turns.of_append
  obtain ⟨r, before, turn⟩ := upTo.of_snoc
  cases turn with
  | respond op res' =>
      obtain ⟨front, c, rfl, after, called⟩ := before.exists_of_took
      obtain ⟨a, b, rfl, between⟩ := called.exists_of_called
      refine ⟨a, b, c, op, rfl, ?_⟩
      intro m member
      exact (List.mem_append.mp member).elim (between m) (after m)
  | other apart => exact absurd rfl apart

end Turns

/-! ## The effects -/

variable (apply : State → Op → Res → Option State)

/-- The effects of a history on a sequential object, which may not allow one. -/
def replay : State → List (Moment Op Res) → Option State
  | s, [] => some s
  | s, .effect _ op res :: h => (apply s op res).bind fun s => replay s h
  | s, _ :: h => replay s h

theorem replay_append (s : State) (h h' : List (Moment Op Res)) :
    replay apply s (h ++ h') = (replay apply s h).bind fun s => replay apply s h' := by
  induction h generalizing s with
  | nil => rfl
  | cons m h ih =>
      cases m with
      | effect t op res =>
          rw [List.cons_append, replay, replay, Option.bind_assoc]
          simp only [ih]
      | _ => exact ih s

end ChattingServer
