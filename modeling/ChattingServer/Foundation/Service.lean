import ChattingServer.Foundation.BoundedQueue
import Mathlib.Data.List.Induction

/-!
# Calls that may not return

`serveAll` serves a list of calls each of which may fail to return, and then has
no result.  A state that answers calls as a specification answers what they mean
does so for every list of calls (`serveAll_related`), and returns from all of
them.  What each next call keeps is so after every list of calls
(`serve_invariant`).
-/

namespace ChattingServer

variable {Call Meaning Reply State Spec : Type}

/-- Serve the calls in order, as long as each of them returns. -/
def serveAll (call : State → Call → Option (Reply × State)) :
    State → List Call → Option (List Reply × State)
  | s, [] => some ([], s)
  | s, c :: cs => (call s c).bind fun (r, s') => (serveAll call s' cs).map fun (rs, s'') =>
      (r :: rs, s'')

variable {call : State → Call → Option (Reply × State)} {spec : Spec → Meaning → Reply × Spec}
  {s s' : State}

theorem serveAll_cons (c : Call) (cs : List Call) :
    serveAll call s (c :: cs) = (call s c).bind fun p =>
      (serveAll call p.2 cs).map fun q => (p.1 :: q.1, q.2) := rfl

theorem serveAll_cons_iff {c : Call} {cs : List Call} {rs : List Reply} :
    serveAll call s (c :: cs) = some (rs, s') ↔
      ∃ r s₁ rs₁, call s c = some (r, s₁) ∧ serveAll call s₁ cs = some (rs₁, s') ∧
        rs = r :: rs₁ := by
  rw [serveAll_cons]
  constructor
  · intro served
    obtain ⟨⟨r, s₁⟩, first, later⟩ := Option.bind_eq_some_iff.mp served
    obtain ⟨⟨rs₁, s₂⟩, rest, same⟩ := Option.map_eq_some_iff.mp later
    obtain ⟨rfl, rfl⟩ := Prod.mk.inj same
    exact ⟨r, s₁, rs₁, first, rest, rfl⟩
  · intro served
    obtain ⟨r, s₁, rs₁, first, rest, rfl⟩ := served
    rw [first, Option.bind_some, rest]
    rfl

/-- What is so after every list of calls, given that each next call keeps it. -/
theorem serve_invariant {I : List Meaning → Spec → Prop} {t : Spec} (first : I [] t)
    (keeps : ∀ ds d, I ds (serve spec t ds).2 → I (ds ++ [d]) (spec (serve spec t ds).2 d).2)
    (ds : List Meaning) : I ds (serve spec t ds).2 := by
  induction ds using List.reverseRecOn with
  | nil => exact first
  | append_singleton ds d ih =>
      rw [serve_append]
      exact keeps ds d ih

/-- What each call that returns keeps between the state and a record of the calls
holds of the state and the whole record after any list of calls that return. -/
theorem serveAll_foldl {Record : Type} {R : State → Record → Prop} {note : Record → Call → Record}
    (keeps : ∀ {s h c r s'}, R s h → call s c = some (r, s') → R s' (note h c)) {h : Record}
    (first : R s h) {cs : List Call} {rs : List Reply}
    (served : serveAll call s cs = some (rs, s')) : R s' (cs.foldl note h) := by
  induction cs generalizing s h rs with
  | nil =>
      cases served
      exact first
  | cons c cs ih =>
      obtain ⟨r, s₁, rs₁, one, rest, -⟩ := serveAll_cons_iff.mp served
      exact ih (keeps first one) rest

/-- **Refinement of all calls from refinement of one.** -/
theorem serveAll_related {Related : State → Spec → Prop} {Means : Call → Meaning → Prop}
    (each : ∀ s t c d, Related s t → Means c d →
      ∃ s', call s c = some ((spec t d).1, s') ∧ Related s' (spec t d).2)
    {t : Spec} (related : Related s t) {cs : List Call} {ds : List Meaning}
    (mean : List.Forall₂ Means cs ds) :
    ∃ s', serveAll call s cs = some ((serve spec t ds).1, s') ∧
      Related s' (serve spec t ds).2 := by
  induction mean generalizing s t with
  | nil => exact ⟨s, rfl, related⟩
  | @cons c d cs ds one _ ih =>
      obtain ⟨s₁, first, related₁⟩ := each s t c d related one
      obtain ⟨s₂, rest, related₂⟩ := ih related₁
      exact ⟨s₂, serveAll_cons_iff.mpr ⟨_, s₁, _, first, rest, rfl⟩, related₂⟩

end ChattingServer
