import ChattingServer.SlotAccounting

/-!
# The stack of free slots

The accept thread tests `sessionCount` before it takes an index, and the count
is not under the mutex of the stack.  `CreateSession` pops first and counts
afterwards; `ReleaseSession` pushes first and counts out afterwards, so while
either is under way the count is no smaller than it should be.  Together with
the one accept thread that keeps `PopIndex` away from an empty stack
(`popIndex_finds`), whoever executes `ReleaseSession`, how often, and for
whatever slot.
-/

namespace ChattingServer

variable {n : Nat}

/-- The accept thread, or what is left of it. -/
@[simp] def Frame.accepting : Frame n → Nat
  | .acceptThread _ => 1
  | .undefined => 1
  | _ => 0

/-- The accept thread has found room and not yet popped an index. -/
@[simp] def Frame.popping : Frame n → Nat
  | .acceptThread (.pop _) => 1
  | _ => 0

/-- The accept thread has popped what is no index. -/
@[simp] def Frame.lost : Frame n → Nat
  | .undefined => 1
  | _ => 0

theorem Frame.parts_le_accepting (f : Frame n) :
    f.popping + (f.uncounted + f.lost) ≤ f.accepting := by
  cases f with
  | acceptThread pc => cases pc <;> simp
  | undefined => simp
  | _ => exact Nat.zero_le _

theorem accepting_of_enters (f : Frame n) (enters : f.enters = true) : f.accepting = 0 := by
  cases f with
  | acceptThread pc => cases enters
  | undefined => cases enters
  | _ => rfl

theorem popping_of_enters (f : Frame n) (enters : f.enters = true) : f.popping = 0 := by
  cases f with
  | acceptThread pc => cases enters
  | _ => rfl

/-- Only the accept thread counts sessions, nobody starts another one, and it
pops only after its test. -/
theorem accept_next (f : Frame n) (r : f.act.α) :
    ((f.act.next r).map Frame.accepting).sum ≤ f.accepting ∧
      f.act.op.onServer ServerOp.counts ≤ f.accepting ∧
      (((f.act.next r).map Frame.popping).sum = 0 ∨ ∃ sock, f = .acceptThread (.full sock)) := by
  by_cases outside : f.outside = true
  · have enters := Frame.enters_next outside r
    rw [sum_of_enters accepting_of_enters enters, sum_of_enters popping_of_enters enters,
      Op.onServer_of_aside (Frame.aside_of_outside outside)]
    exact ⟨Nat.zero_le _, Nat.zero_le _, Or.inl rfl⟩
  cases f with
  | acceptThread pc =>
      cases pc with
      | accept => cases r <;> simp
      | full sock => cases r <;> simp
      | pop sock =>
          simp only [Frame.act, AcceptThread.act]
          split <;> simp
      | _ => simp
  | disConnect pc j => cases pc <;> cases r <;> simp
  | releaseSession pc j => cases pc <;> cases r <;> simp
  | undefined => simp
  | _ => exact absurd rfl outside

/-- What the test of the accept thread has to do with the stack.  A thread that
popped no index stays where it is. -/
structure Roomy (s : Conf (Frame n) (Shared n)) : Prop where
  single : s.tally Frame.accepting ≤ 1
  counted : 0 < s.tally Frame.lost ∨
    s.mem.server.sessionCount + s.mem.server.indexStack.length + s.tally Frame.uncounted =
      n + s.tally Frame.overcounted
  room : 0 < s.tally Frame.popping → s.mem.server.sessionCount < n

namespace Roomy

section Step

variable {s : Conf (Frame n) (Shared n)} (inv : Roomy s) {t : Nat} {c : Choice n}
  {f : Frame n} {rest : List (Frame n)} (here : s.threads[t]? = some (f :: rest))
  {r : f.act.α} {m : Shared n}
include inv here

theorem single_step :
    (Conf.mk m (s.threads.set t (f.act.next r ++ rest))).tally Frame.accepting ≤ 1 := by
  have tally := Machine.tally_step Frame.accepting here (f.act.next r) m
  obtain ⟨none, -⟩ := accept_next f r
  have before := inv.single
  omega

variable (done : exec f.act.op c s.mem = some (r, m))
include done

theorem counted_step :
    0 < (Conf.mk m (s.threads.set t (f.act.next r ++ rest))).tally Frame.lost ∨
      m.server.sessionCount + m.server.indexStack.length +
          (Conf.mk m (s.threads.set t (f.act.next r ++ rest))).tally Frame.uncounted =
        n + (Conf.mk m (s.threads.set t (f.act.next r ++ rest))).tally Frame.overcounted := by
  have losts := Machine.tally_step Frame.lost here (f.act.next r) m
  by_cases indexed : f.Indexed r
  · rcases inv.counted with lost | before
    · have stays : f.lost = 0 := by
        cases f with
        | undefined => cases done
        | _ => rfl
      left
      omega
    · obtain ⟨uncounted, overcounted⟩ := count_next f r indexed
      obtain ⟨-, length, count, -⟩ := (server_exec done).account (i := 0)
      have ins := Machine.tally_step Frame.uncounted here (f.act.next r) m
      have outs := Machine.tally_step Frame.overcounted here (f.act.next r) m
      right
      omega
  · left
    have new : ((f.act.next r).map Frame.lost).sum = 1 ∧ f.lost = 0 := by
      cases f with
      | acceptThread pc =>
          cases pc with
          | pop sock =>
              have outside : ¬ @LT.lt Nat _ r n := indexed
              simp [outside]
          | _ => exact absurd trivial indexed
      | _ => exact absurd trivial indexed
    omega

/-- Nobody but the accept thread raises the count, and that thread is then past
its pop. -/
theorem room_step
    (popping : 0 < (Conf.mk m (s.threads.set t (f.act.next r ++ rest))).tally Frame.popping) :
    m.server.sessionCount < n := by
  have pops := Machine.tally_step Frame.popping here (f.act.next r) m
  obtain ⟨-, counts, none | ⟨sock, rfl⟩⟩ := accept_next f r
  · have room := inv.room (by omega)
    obtain ⟨-, -, count, -⟩ := (server_exec done).account (i := 0)
    have alone : f.accepting = 0 := by
      have stayed : 0 < (Conf.mk s.mem (s.threads.set t rest)).tally Frame.popping := by
        have left := Machine.tally_step Frame.popping here [] s.mem
        rw [List.nil_append, List.map_nil, List.sum_nil] at left
        omega
      have part := Conf.tally_le (s := ⟨s.mem, s.threads.set t rest⟩) fun f : Frame n =>
        (Nat.le_add_right _ _).trans f.parts_le_accepting
      have left := Machine.tally_step Frame.accepting here [] s.mem
      rw [List.nil_append, List.map_nil, List.sum_nil] at left
      have single := inv.single
      omega
    omega
  · have same : r = decide (s.mem.server.sessionCount ≥ n) ∧ m.server = s.mem.server := by
      cases done
      exact ⟨rfl, rfl⟩
    rw [same.2]
    cases r with
    | false => exact not_le.mp (of_decide_eq_false same.1.symm)
    | true =>
        have none : ([Frame.acceptThread .accept].map (Frame.popping (n := n))).sum = 0 := rfl
        exact inv.room (popping.trans_eq (pops.trans (congrArg _ none)))

end Step

theorem step {s s' : Conf (Frame n) (Shared n)} {t : Nat} {c : Choice n} (inv : Roomy s)
    (step : (iocp n).step s t c = some s') : Roomy s' := by
  obtain ⟨f, rest, r, m, here, done, rfl⟩ := iocp_step_cases step
  exact ⟨inv.single_step here, inv.counted_step here done, inv.room_step here done⟩

/-- Whoever is about to pop an index finds one. -/
theorem finds {s : Conf (Frame n) (Shared n)} (inv : Roomy s) {t : Nat} {sock : Nat}
    (here : s.top t = some (.acceptThread (.pop sock))) : s.mem.server.indexStack ≠ [] := by
  obtain ⟨rest, stack⟩ := Conf.top_cases here
  have popping : 1 ≤ s.tally Frame.popping :=
    Conf.le_tally (List.mem_of_getElem? stack) List.mem_cons_self (w := Frame.popping)
  have room := inv.room popping
  have parts := Conf.tally_le (s := s) Frame.parts_le_accepting
  rw [Conf.tally_add, Conf.tally_add] at parts
  have single := inv.single
  intro empty
  rcases inv.counted with lost | counted
  · omega
  · rw [empty, List.length_nil] at counted
    omega

end Roomy

/-- A server after `Start` with its threads, and beside them threads that
execute `ReleaseSession`, each for the slots of one list, in that order. -/
def Shared.bootReleasing (n : Nat) (sessionID : UINT64) (kinds : List ThreadKind)
    (releases : List (List (Fin n))) : Conf (Frame n) (Shared n) where
  mem := Shared.start n sessionID
  threads := (Shared.boot n sessionID kinds).threads ++
    releases.map fun slots => slots.map (.releaseSession .loadID)

theorem Roomy.boot (n : Nat) (sessionID : UINT64) (kinds : List ThreadKind)
    (releases : List (List (Fin n))) :
    Roomy (Shared.bootReleasing n sessionID kinds releases) := by
  have tally (w : Frame n → Nat) (kind : ∀ kind : ThreadKind, w kind.frame = 0)
      (release : ∀ i, w (.releaseSession .loadID i) = 0) :
      (Shared.bootReleasing n sessionID kinds releases).tally w = w (.acceptThread .accept) := by
    have others : (Conf.mk (Shared.start n sessionID) (kinds.map (fun kind => [kind.frame]) ++
        releases.map fun slots => slots.map (.releaseSession .loadID))).tally w = 0 := by
      apply Conf.tally_eq_zero
      intro stack member f inside
      rcases List.mem_append.mp member with first | second
      · obtain ⟨other, -, rfl⟩ := List.mem_map.mp first
        rw [List.mem_singleton.mp inside]
        exact kind other
      · obtain ⟨slots, -, rfl⟩ := List.mem_map.mp second
        obtain ⟨i, -, rfl⟩ := List.mem_map.mp inside
        exact release i
    exact congrArg (w (.acceptThread .accept) + ·) others
  have accepting := tally Frame.accepting (fun kind => by cases kind <;> rfl) fun _ => rfl
  have popping := tally Frame.popping (fun kind => by cases kind <;> rfl) fun _ => rfl
  have uncounted := tally Frame.uncounted (fun kind => by cases kind <;> rfl) fun _ => rfl
  have overcounted := tally Frame.overcounted (fun kind => by cases kind <;> rfl) fun _ => rfl
  refine ⟨accepting.le, Or.inr ?_, ?_⟩
  · rw [uncounted, overcounted]
    show (0 : Int) + (List.range n).length + 0 = n + 0
    rw [List.length_range]
    omega
  · intro pops
    rw [popping] at pops
    cases pops

/-- **`PopIndex` never finds the stack empty.** -/
theorem popIndex_finds {sessionID : UINT64} {kinds : List ThreadKind}
    {releases : List (List (Fin n))} {s : Conf (Frame n) (Shared n)} {t sock : Nat}
    (run : (iocp n).Steps (fun _ _ _ => True)
      (Shared.bootReleasing n sessionID kinds releases) s)
    (here : s.top t = some (.acceptThread (.pop sock))) :
    s.mem.server.indexStack ≠ [] := by
  have inv : Roomy s := run.invariant (.boot n sessionID kinds releases)
    fun _ _ _ _ before _ taken => before.step taken
  exact inv.finds here

/-- The slot of a server of one is released twice, and the second time not yet
counted out, when the accept thread has found room. -/
theorem popIndex_finds_one :
    ∃ s, (iocp 1).Steps (fun _ _ _ => True) (Shared.bootReleasing 1 0 [] [[0, 0]]) s ∧
      s.mem.server.sessionCount = -1 ∧ s.mem.server.indexStack ≠ [] := by
  have run : (iocp 1).run
      (List.replicate 31 (1, .none) ++ [(0, .socket (some 7)), (0, .none)])
      (Shared.bootReleasing 1 0 [] [[0, 0]]) = some _ := rfl
  exact ⟨_, .of_run run, rfl, @popIndex_finds 1 0 [] [[0, 0]] _ 0 7 (.of_run run) rfl⟩

end ChattingServer
