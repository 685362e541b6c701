import ChattingServer.Foundation.Threads

/-!
# Machines with places of their own

A machine may refine another by places that the other does not have, with
operations that leave the memory alone.  `Erases` says so frame by frame: an
operation is one of the other machine, on the frame this one stands for, or the
frame goes on to one that stands for the same.  Then every run is a run of the
other machine once the frames are replaced (`Erases.steps`), and what is known
of those runs holds of these.
-/

namespace ChattingServer

variable {Op Op' : Type → Type 1} {Frame Frame' Choice Mem : Type}

namespace Conf

/-- The frames replaced by those they stand for. -/
def erase (g : Frame → Frame') (s : Conf Frame Mem) : Conf Frame' Mem where
  mem := s.mem
  threads := s.threads.map (List.map g)

variable {g : Frame → Frame'} {s : Conf Frame Mem}

theorem tally_erase (w : Frame' → Nat) : (s.erase g).tally w = s.tally fun f => w (g f) := by
  unfold tally erase
  simp only [List.map_map, Function.comp_def]

theorem here_erase {t : Nat} {f : Frame} {rest : List Frame}
    (here : s.threads[t]? = some (f :: rest)) :
    (s.erase g).threads[t]? = some (g f :: rest.map g) := by
  rw [erase, List.getElem?_map, here]
  rfl

end Conf

namespace Machine

/-- Each operation of `M` is one of `M'`, or leaves the memory and the frame
stood for as they are. -/
structure Erases (M : Machine Op Frame Choice Mem) (M' : Machine Op' Frame' Choice Mem)
    (g : Frame → Frame') : Prop where
  act : ∀ {f : Frame} {c : Choice} {m m' : Mem} {r : (M.act f).α},
    M.exec (M.act f).op c m = some (r, m') →
      (∃ r', M'.exec (M'.act (g f)).op c m = some (r', m') ∧
        ((M.act f).next r).map g = (M'.act (g f)).next r') ∨
      (m' = m ∧ ((M.act f).next r).map g = [g f])

variable {M : Machine Op Frame Choice Mem} {M' : Machine Op' Frame' Choice Mem}
  {g : Frame → Frame'} {s s' : Conf Frame Mem}

theorem Erases.step (erases : M.Erases M' g) {t : Nat} {c : Choice}
    (step : M.step s t c = some s') :
    M'.step (s.erase g) t c = some (s'.erase g) ∨ s'.erase g = s.erase g := by
  obtain ⟨f, rest, r, m, here, done, rfl⟩ := step_cases step
  have there : (s.erase g).threads[t]? = some (g f :: rest.map g) := Conf.here_erase here
  have threads (fs : List Frame) :
      (Conf.mk m (s.threads.set t (fs ++ rest))).erase g =
        ⟨m, (s.erase g).threads.set t (fs.map g ++ rest.map g)⟩ := by
    unfold Conf.erase
    dsimp only
    rw [List.map_set, List.map_append]
  rcases erases.act done with ⟨r', done', next⟩ | ⟨rfl, next⟩
  · left
    have mem : (s.erase g).mem = s.mem := rfl
    rw [threads, next, Machine.step]
    simp only [there, mem, done', Option.map_some]
  · right
    rw [threads, next, List.singleton_append]
    obtain ⟨bound, same⟩ := List.getElem?_eq_some_iff.mp there
    rw [← same, List.set_getElem_self]
    rfl

/-- A run is a run of the other machine. -/
theorem Erases.steps (erases : M.Erases M' g) {guard : Conf Frame Mem → Nat → Choice → Prop}
    (run : M.Steps guard s s') :
    M'.Steps (fun _ _ _ => True) (s.erase g) (s'.erase g) := by
  induction run with
  | refl => exact .refl
  | tail _ last ih =>
      obtain ⟨t, c, -, step⟩ := last
      rcases erases.step step with step' | same
      · exact ih.tail ⟨t, c, trivial, step'⟩
      · exact same ▸ ih

end Machine

end ChattingServer
