import ChattingServer.SlotConservation

/-!
# One receive at a time

The ring of a session, its `recvOverlap` and its requests belong to the receive
that is outstanding, then to the worker that completes it, until that worker has
posted the next.  `Frame.receiving` are the places on this way.  The accept
thread starts on it in a slot that nobody uses, so there is never a second one
(`receive_exclusive`).
-/

namespace ChattingServer

variable {n : Nat}

/-- The thread has a completed receive of slot `i` in hand, or its first one, and
has not yet posted the next. -/
@[simp] def Frame.receiving (i : Fin n) : Frame n → Nat
  | .recvComplete _ j => share j i
  | .alloc (.frame j) => share j i
  | .setRef _ (.frame j) => share j i
  | .postRecv .undo _ _ => 0
  | .postRecv _ j _ => share j i
  | f => f.fills i

/-- A `ReleaseSession` is at work on slot `i`. -/
@[simp] def Frame.releasing (i : Fin n) : Frame n → Nat
  | .releaseSession .count _ => 0
  | .releaseSession _ j => share j i
  | _ => 0

/-- **A receive is passed on.**  No frame makes a second one of it. -/
theorem receiving_next (i : Fin n) (f : Frame n) (r : f.act.α) (indexed : f.Indexed r) :
    ((f.act.next r).map (Frame.receiving i)).sum + f.act.op.issued i r ≤
      f.receiving i + f.act.op.completed i r + f.act.op.popped i r := by
  have goes := f.goes r
  generalize f.act.next r = fs at goes ⊢
  cases goes with
  | popped sock j => simp [share, Fin.ext_iff]
  | poppedStray sock index outside => exact absurd indexed (Nat.not_lt.mpr outside)
  | lock id use r j named =>
      clear indexed
      revert r
      rw [Frame.act_lock_of_lt use named]
      simp
  | lockStray id use r outside =>
      clear indexed
      revert r
      rw [Frame.act_lock_of_le use outside]
      simp
  | recvInc j who => cases who <;> simp
  | recvLive j who => cases who <;> simp
  | alloc use p => cases use <;> simp
  | setRefResponse p targets => simp [Function.comp_def]
  | _ => simp

/-- Who receives has the slot in hand, or works on it while it is held. -/
theorem cases_of_receiving {i : Fin n} {f : Frame n} (receiving : 0 < f.receiving i) :
    f.asks = some i ∨ 0 < f.holds i ∨ 0 < f.fills i := by
  cases f with
  | recvComplete pc j => exact Or.inl (congrArg some (eq_of_share_pos receiving))
  | alloc use =>
      cases use with
      | frame j => exact Or.inl (congrArg some (eq_of_share_pos receiving))
      | _ => cases receiving
  | setRef q use =>
      cases use with
      | frame j => exact Or.inl (congrArg some (eq_of_share_pos receiving))
      | _ => cases receiving
  | postRecv pc j who =>
      cases pc with
      | issue => exact Or.inr (Or.inl receiving)
      | undo => cases receiving
      | _ =>
          cases who with
          | accept => exact Or.inr (Or.inr receiving)
          | worker => exact Or.inl (congrArg some (eq_of_share_pos receiving))
  | acceptThread pc =>
      cases pc with
      | accept => cases receiving
      | full sock => cases receiving
      | pop sock => cases receiving
      | _ => exact Or.inr (Or.inr receiving)
  | _ => cases receiving

/-- The slot is filled or emptied by who has it in hand. -/
theorem fills_add_releasing_le (i : Fin n) (f : Frame n) :
    f.fills i + f.releasing i ≤ f.token i := by
  cases f with
  | acceptThread pc => cases pc <;> simp
  | postRecv pc j who => cases pc <;> cases who <;> simp
  | releaseSession pc j => cases pc <;> simp
  | _ => simp

/-! ## Slots in which nothing is received -/

section Idle

variable {s : Conf (Frame n) (Shared n)} (inv : Accounted s) {i : Fin n}
include inv

/-- Nothing is received in a slot that nothing holds, unless it is being
filled. -/
theorem Accounted.unreceived (free : (s.mem.slot i).ioCount = 0)
    (unfilled : s.tally (Frame.fills i) = 0) :
    (s.mem.slot i).recvOut = 0 ∧ s.tally (Frame.receiving i) = 0 := by
  have held := inv.held i
  unfold Session.outside at held
  refine ⟨by omega, ?_⟩
  by_contra busy
  obtain ⟨stack, member, f, inside, receiving⟩ := Conf.exists_of_tally_pos (Nat.pos_of_ne_zero busy)
  rcases cases_of_receiving receiving with asks | holds | fills
  · have pos := inv.ioCount_pos_of_asks member inside asks
    omega
  · have pos := inv.ioCount_pos_of_holds member inside holds
    omega
  · have part := Conf.le_tally (w := Frame.fills i) member inside
    omega

theorem Accounted.fills_add_releasing_le :
    s.tally (Frame.fills i) + s.tally (Frame.releasing i) + (s.mem.slot i).live +
      s.mem.server.indexStack.count ↑i ≤ 1 := by
  have once := inv.once i
  have parts : s.tally (Frame.fills i) + s.tally (Frame.releasing i) ≤ s.tally (Frame.token i) := by
    rw [← Conf.tally_add]
    exact Conf.tally_le (ChattingServer.fills_add_releasing_le i)
  unfold sessions at once
  omega

/-- Nothing is received in a slot that is free, or that a `ReleaseSession` is at
work on. -/
theorem Accounted.unreceived_of_unused
    (unused : ↑i ∈ s.mem.server.indexStack ∨ 0 < s.tally (Frame.releasing i)) :
    (s.mem.slot i).recvOut = 0 ∧ s.tally (Frame.receiving i) = 0 := by
  have all := inv.fills_add_releasing_le (i := i)
  have one : 0 < s.mem.server.indexStack.count ↑i + s.tally (Frame.releasing i) := by
    rcases unused with stacked | busy
    · exact Nat.add_pos_left (List.count_pos_iff.mpr stacked) _
    · exact Nat.add_pos_right _ busy
  have free : (s.mem.slot i).ioCount = 0 := by
    by_contra held
    have live : (s.mem.slot i).live = 1 := if_neg held
    omega
  exact inv.unreceived free (by omega)

end Idle

/-! ## The invariant -/

/-- At most one receive of each slot is outstanding or in hand. -/
def OneReceive (s : Conf (Frame n) (Shared n)) : Prop :=
  ∀ i, (s.mem.slot i).recvOut + s.tally (Frame.receiving i) ≤ 1

theorem Op.pushedIndex_of_popped {i : Nat} {α : Type} {op : Op n α} {r : α}
    (popped : 0 < op.popped i r) : op.pushedIndex i = 0 := by
  cases op with
  | server op =>
      cases op with
      | pushIndex slot index => cases popped
      | _ => rfl
  | _ => rfl

/-- A receive is in hand where one was before, or in a slot that was free. -/
theorem OneReceive.step {s s' : Conf (Frame n) (Shared n)} {t : Nat} {c : Choice n}
    (one : OneReceive s) (inv : Accounted s) (guarded : Guarded s t c)
    (step : (iocp n).step s t c = some s') : OneReceive s' := by
  obtain ⟨f, rest, r, m, here, done, rfl⟩ := iocp_step_cases step
  intro i
  have frames := receiving_next i f r (inv.expected here done guarded).indexed
  have memory := (slot_exec i done).recvOut
  have tally := Machine.tally_step (Frame.receiving i) here (f.act.next r) m
  have before := one i
  dsimp only
  rcases Nat.eq_zero_or_pos (f.act.op.popped i r) with none | popped
  · omega
  · -- the accept thread starts with an index that was in the stack
    obtain ⟨stack, -⟩ := (server_exec done).account (i := i)
    have once := inv.once i
    have pushed := Op.pushedIndex_of_popped popped
    have stacked : ↑i ∈ s.mem.server.indexStack := List.count_pos_iff.mp (by omega)
    have idle := inv.unreceived_of_unused (Or.inl stacked)
    omega

theorem OneReceive.of_run {n : Nat} {sessionID : UINT64} {kinds : List ThreadKind}
    {s : Conf (Frame n) (Shared n)}
    (run : (iocp n).Steps Guarded (Shared.boot n sessionID kinds) s) :
    Accounted s ∧ OneReceive s := by
  refine run.invariant (I := fun s => Accounted s ∧ OneReceive s) ⟨.boot n sessionID kinds, ?_⟩ ?_
  · intro i
    have none : (Shared.boot n sessionID kinds).tally (Frame.receiving i) = 0 := by
      apply Conf.tally_eq_zero
      intro stack member f inside
      rcases Shared.boot_frames n sessionID kinds stack member f inside with rfl | ⟨kind, rfl⟩
      · rfl
      · cases kind <;> rfl
    rw [none]
    exact Nat.zero_le 1
  · intro s t c s' both guarded taken
    exact ⟨both.1.step guarded taken, both.2.step both.1 guarded taken⟩

/-- **One receive at a time**, for runs whose steps are guarded.  A session has
at most one receive outstanding or in hand, so two threads are never on the way
of a receive of the same slot, and none posts one or handles a request while
another is outstanding.  A slot that is free, or that a `ReleaseSession` is at
work on, has none at all.  A session that is held and not disconnected has one,
or a thread that is about to disconnect it. -/
theorem receive_exclusive {n : Nat} {sessionID : UINT64} {kinds : List ThreadKind}
    {s : Conf (Frame n) (Shared n)}
    (run : (iocp n).Steps Guarded (Shared.boot n sessionID kinds) s) (i : Fin n) :
    (s.mem.slot i).recvOut + s.tally (Frame.receiving i) ≤ 1 ∧
      (∀ (t k : Nat) (stack stack' : List (Frame n)) (f g : Frame n),
        s.threads[t]? = some stack → s.threads[k]? = some stack' →
        f ∈ stack → g ∈ stack' → 0 < f.receiving i → 0 < g.receiving i →
          t = k ∧ (s.mem.slot i).recvOut = 0) ∧
      (↑i ∈ s.mem.server.indexStack ∨ 0 < s.tally (Frame.releasing i) →
        (s.mem.slot i).recvOut = 0 ∧ s.tally (Frame.receiving i) = 0) ∧
      ((s.mem.slot i).ioCount ≠ 0 → (s.mem.slot i).isReleased = false →
        1 ≤ (s.mem.slot i).recvOut + s.tally (Frame.renews i)) := by
  obtain ⟨inv, one⟩ := OneReceive.of_run run
  have most := one i
  refine ⟨most, ?_, inv.unreceived_of_unused, ?_⟩
  · intro t k stack stack' f g here there inside inside' receiving receiving'
    have first := Conf.le_tally (w := Frame.receiving i) (List.mem_of_getElem? here) inside
    refine ⟨?_, by omega⟩
    by_contra other
    have both := Machine.add_le_tally_of_ne (Frame.receiving i) here there other inside inside'
    omega
  · intro held kept
    have live : (s.mem.slot i).live = 1 := if_neg held
    exact inv.renewed i live.ge kept

/-- A receive of the first session completes, and the worker that handles it posts
the next one.  The session has one receive outstanding, then none while the
worker is at the ring, then one again. -/
theorem receive_exclusive_handled :
    ∃ s s', (iocp 1).Steps Guarded (Shared.boot 1 0 [.worker]) s ∧ (iocp 1).Steps Guarded s s' ∧
      ((s.mem.slot 0).recvOut, s.tally (Frame.receiving 0)) = (0, 1) ∧
      ((s'.mem.slot 0).recvOut, s'.tally (Frame.receiving 0)) = (1, 0) ∧
      (s.mem.slot 0).recvOut + s.tally (Frame.receiving 0) ≤ 1 ∧
      (s'.mem.slot 0).recvOut + s'.tally (Frame.receiving 0) ≤ 1 := by
  have reached : ((iocp 1).runIf Guarded (acceptOne ++ [(1, .completed ⟨firstSlot, false, 1⟩)])
      (Shared.boot 1 0 [.worker])).bind (fun s => ((iocp 1).runIf Guarded
        ((1, .ring .stop) :: List.replicate 3 (1, .none) ++ [(1, .outcome true)]) s).map fun s' =>
          (((s.mem.slot 0).recvOut, s.tally (Frame.receiving 0)),
            (s'.mem.slot 0).recvOut, s'.tally (Frame.receiving 0))) = some ((0, 1), 1, 0) := by
    decide +kernel
  obtain ⟨s, completed, rest⟩ := Option.bind_eq_some_iff.mp reached
  obtain ⟨s', posted, found⟩ := Option.map_eq_some_iff.mp rest
  obtain ⟨before, after⟩ := Prod.mk.inj found
  have run := Machine.Steps.of_runIf completed
  have later := Machine.Steps.of_runIf posted
  exact ⟨s, s', run, later, before, after, (receive_exclusive run 0).1,
    (receive_exclusive (run.trans later) 0).1⟩

end ChattingServer
