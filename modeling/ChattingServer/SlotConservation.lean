import ChattingServer.SlotInvariant
import ChattingServer.StaleIds
import Mathlib.Algebra.BigOperators.Group.Finset.Piecewise
import Mathlib.Data.Fintype.BigOperators

/-!
# No index is lost or doubled

`ReleaseSession` runs once for each `CreateSession`, pushes the index that was
popped for it (`slot_conservation`), and begins only when its session is
disconnected and nobody works on it any more (`no_premature_release`): in runs
whose steps are `Guarded`.  Without the guard a `Disconnect` that comes too late
doubles an index.
-/

namespace ChattingServer

variable {n : Nat}

/-! ## The record -/

/-- Who pushes an index leaves it on record. -/
theorem push_of_mem {α : Type} {op : Op n α} {r : α} {s s' : Server} {slot index : Nat}
    (step : ServerStep s op r s') (member : .push slot index ∈ s'.log) :
    .push slot index ∈ s.log ∨ 0 < op.pushedIndex index ∧ 0 < op.returned slot := by
  cases step with
  | away none => exact Or.inl member
  | server done =>
      rename_i op
      cases op with
      | popIndex =>
          obtain ⟨indexStack, sessionCount, sessionID, log⟩ := s
          cases indexStack with
          | nil => cases done
          | cons first left =>
              cases done
              rcases List.mem_cons.mp member with other | old
              · cases other
              · exact Or.inl old
      | pushIndex slot' index' =>
          cases done
          rcases List.mem_cons.mp member with same | old
          · cases same
            exact Or.inr ⟨(share_self index).ge, (share_self slot).ge⟩
          · exact Or.inl old
      | onClientJoin slot' id =>
          cases done
          rcases List.mem_cons.mp member with other | old
          · cases other
          · exact Or.inl old
      | onClientLeave slot' id =>
          cases done
          rcases List.mem_cons.mp member with other | old
          · cases other
          · exact Or.inl old
      | closesocket slot' sock =>
          cases done
          rcases List.mem_cons.mp member with other | old
          · cases other
          · exact Or.inl old
      | _ =>
          cases done
          exact Or.inl member

/-- What the record says of each slot. -/
structure Recorded (s : Conf (Frame n) (Shared n)) : Prop where
  begun : ∀ i : Fin n, s.mem.server.happened (Event.creates i) =
    s.mem.server.happened (Event.leaves i) + s.tally (Frame.unleft i) + (s.mem.slot i).live
  ended : ∀ i : Fin n, s.mem.server.happened (Event.creates i) + s.mem.server.indexStack.count ↑i =
    s.mem.server.happened (Event.returns i) + 1
  own : ∀ slot index, .push slot index ∈ s.mem.server.log → index = slot

theorem Recorded.step {s s' : Conf (Frame n) (Shared n)} {t : Nat} {c : Choice n}
    (recorded : Recorded s) (inv : Accounted s) (guarded : Guarded s t c)
    (step : (iocp n).step s t c = some s') : Recorded s' := by
  obtain ⟨f, rest, r, m, here, done, rfl⟩ := iocp_step_cases step
  refine ⟨?_, ?_, ?_⟩
  · intro i
    obtain ⟨-, frames, -⟩ :=
      account_next i f r (inv.expected here done guarded) (inv.not_stray here)
    obtain ⟨-, -, -, creates, leaves, -⟩ := (server_exec done).account (i := i)
    have memory := (slot_exec i done).live (inv.fits here guarded i)
    have tally := Machine.tally_step (Frame.unleft i) here (f.act.next r) m
    have before := recorded.begun i
    dsimp only
    omega
  · intro i
    obtain ⟨stack, -, -, creates, -, returns⟩ := (server_exec done).account (i := i)
    have pushed := pushedIndex_of_sound (inv.sound_top here) i
    have before := recorded.ended i
    dsimp only
    omega
  · intro slot index member
    rcases push_of_mem (server_exec done) member with old | ⟨pushes, returns⟩
    · exact recorded.own slot index old
    · obtain ⟨j, rfl⟩ := eq_of_pushedIndex pushes
      obtain ⟨-, rfl⟩ := inv.sound_top here
      by_contra other
      have none : share j.val slot = 0 := share_of_ne other
      exact absurd returns (Nat.not_lt.mpr none.le)

theorem Recorded.of_run {n : Nat} {sessionID : UINT64} {kinds : List ThreadKind}
    {s : Conf (Frame n) (Shared n)}
    (run : (iocp n).Steps Guarded (Shared.boot n sessionID kinds) s) : Recorded s := by
  have both : Accounted s ∧ Recorded s := by
    refine run.invariant (I := fun s => Accounted s ∧ Recorded s) ⟨.boot n sessionID kinds, ?_⟩ ?_
    · have none (i : Fin n) : (Shared.boot n sessionID kinds).tally (Frame.unleft i) = 0 := by
        apply Conf.tally_eq_zero
        intro stack member f inside
        rcases Shared.boot_frames n sessionID kinds stack member f inside with rfl | ⟨kind, rfl⟩
        · rfl
        · cases kind <;> rfl
      refine ⟨?_, ?_, nofun⟩
      · intro i
        rw [none]
        rfl
      · intro i
        have stacked : (List.range n).count ↑i = 1 :=
          List.count_eq_one_of_mem List.nodup_range (List.mem_range.mpr i.isLt)
        exact (Nat.zero_add _).trans stacked
    · rintro s t c s' ⟨inv, recorded⟩ guarded taken
      exact ⟨inv.step guarded taken, recorded.step inv guarded taken⟩
  exact both.2

/-! ## Conservation -/

/-- No session is being created or released. -/
def Settled (s : Conf (Frame n) (Shared n)) : Prop :=
  (∀ i, s.tally (Frame.token i) = 0) ∧ s.tally Frame.overcounted = 0

/-- The indices below `n` of a list make up its length. -/
theorem sum_count_eq_length {indices : List Nat} (inside : ∀ index ∈ indices, index < n) :
    ∑ i : Fin n, indices.count ↑i = indices.length := by
  induction indices with
  | nil => simp
  | cons index rest ih =>
      have tail := ih fun other member => inside other (List.mem_cons_of_mem index member)
      have first := inside index List.mem_cons_self
      have one : ∑ i : Fin n, (if (⟨index, first⟩ : Fin n) = i then 1 else 0) = 1 := by
        rw [Finset.sum_ite_eq, if_pos (Finset.mem_univ _)]
      rw [List.length_cons, ← tail, ← one, ← Finset.sum_add_distrib]
      apply Finset.sum_congr rfl
      intro i _
      rw [List.count_cons]
      simp [Fin.ext_iff]

theorem unleft_le (i : Fin n) (f : Frame n) : f.unleft i ≤ f.token i := by
  cases f with
  | acceptThread pc => cases pc <;> exact Nat.le_refl _
  | postRecv pc j who => cases pc <;> cases who <;> exact Nat.le_refl _
  | releaseSession pc j =>
      cases pc <;> first | exact Nat.le_refl _ | exact Nat.zero_le _
  | workerThread pc => cases pc <;> exact Nat.le_refl _
  | _ => exact Nat.le_refl _

/-- Who has yet to count a session has its slot in hand. -/
theorem uncounted_of_settled {s : Conf (Frame n) (Shared n)} (settled : Settled s) :
    s.tally Frame.uncounted = 0 := by
  by_contra counting
  obtain ⟨stack, member, f, inside, uncounted⟩ :=
    Conf.exists_of_tally_pos (Nat.pos_of_ne_zero counting)
  have token : ∃ i, 0 < f.token i := by
    cases f with
    | acceptThread pc =>
        cases pc with
        | nextID i sock => exact ⟨i, (share_self i).ge⟩
        | setID i sock id => exact ⟨i, (share_self i).ge⟩
        | setIndex i sock => exact ⟨i, (share_self i).ge⟩
        | setSock i sock => exact ⟨i, (share_self i).ge⟩
        | count i => exact ⟨i, (share_self i).ge⟩
        | _ => cases uncounted
    | _ => cases uncounted
  obtain ⟨i, token⟩ := token
  have part := Conf.le_tally (w := Frame.token i) member inside
  have none := settled.1 i
  omega

/-- **Slot conservation**, for runs whose steps are guarded: an index is in
`indexStack` or belongs to one session that is created and not yet released;
each `CreateSession` has at most one `ReleaseSession`, which pushes the index of
its slot; and `sessionCount` is the number of sessions when none is being
created or released. -/
theorem slot_conservation {n : Nat} {sessionID : UINT64} {kinds : List ThreadKind}
    {s : Conf (Frame n) (Shared n)}
    (run : (iocp n).Steps Guarded (Shared.boot n sessionID kinds) s) :
    (∀ index ∈ s.mem.server.indexStack, index < n) ∧
      (∀ i : Fin n, s.mem.server.indexStack.count ↑i + sessions s i = 1 ∧
        s.mem.server.happened (Event.creates i) =
          s.mem.server.happened (Event.returns i) + sessions s i ∧
        s.mem.server.happened (Event.returns i) ≤ s.mem.server.happened (Event.leaves i) ∧
        s.mem.server.happened (Event.leaves i) ≤ s.mem.server.happened (Event.creates i)) ∧
      (∀ slot index, .push slot index ∈ s.mem.server.log → index = slot) ∧
      (Settled s → s.mem.server.sessionCount = ∑ i, sessions s i) := by
  have inv := Accounted.of_run run
  have recorded := Recorded.of_run run
  refine ⟨inv.inside, ?_, recorded.own, ?_⟩
  · intro i
    have once := inv.once i
    have begun := recorded.begun i
    have ended := recorded.ended i
    have part : s.tally (Frame.unleft i) ≤ s.tally (Frame.token i) :=
      Conf.tally_le (unleft_le i)
    unfold sessions at once ⊢
    omega
  · intro settled
    have slots : ∑ i : Fin n, (s.mem.server.indexStack.count ↑i + sessions s i) = n := by
      simp only [inv.once, Finset.sum_const, Finset.card_univ, Fintype.card_fin]
      exact Nat.mul_one n
    rw [Finset.sum_add_distrib, sum_count_eq_length inv.inside] at slots
    have counted := inv.counted
    have uncounted := uncounted_of_settled settled
    have overcounted := settled.2
    omega

instance (s : Conf (Frame 1) (Shared 1)) (t : Nat) (c : Choice 1) : Decidable (Guarded s t c) := by
  unfold Guarded
  split
  · infer_instance
  · split <;> infer_instance
  · infer_instance

/-- The index of a session that comes and goes is in the stack or with a session, once
in all. -/
theorem slot_conservation_one :
    ∃ s, (iocp 1).Steps Guarded (Shared.boot 1 0 [.worker]) s ∧
      s.mem.server.happened (Event.creates 0) = 1 ∧
      s.mem.server.indexStack.count 0 + sessions s 0 = 1 := by
  have reached : ((iocp 1).runIf Guarded (acceptOne ++ closeOne) (Shared.boot 1 0 [.worker])).map
      (fun s => s.mem.server.happened (Event.creates 0)) = some 1 := by
    decide +kernel
  obtain ⟨s, run, created⟩ := Option.map_eq_some_iff.mp reached
  exact ⟨s, .of_runIf run, created, ((slot_conservation (.of_runIf run)).2.1 0).1⟩

/-- A `Disconnect` that comes after the session it names has gone. -/
def disconnectLate : List (Nat × Choice 1) :=
  (2, .call (.disconnect firstID)) :: List.replicate 19 (2, .none)

/-- A `Disconnect` that comes after the session it names has gone pushes the index of
the slot a second time. -/
theorem index_doubled :
    ∃ s, (iocp 1).Steps (fun _ _ _ => True) (Shared.boot 1 0 [.worker, .caller]) s ∧
      s.mem.server.indexStack = [0, 0] ∧ s.mem.server.sessionCount = -1 := by
  have reached : ((iocp 1).run (acceptOne ++ closeOne ++ disconnectLate)
      (Shared.boot 1 0 [.worker, .caller])).map
        (fun s => (s.mem.server.indexStack, s.mem.server.sessionCount)) = some ([0, 0], -1) := by
    decide +kernel
  obtain ⟨s, run, found⟩ := Option.map_eq_some_iff.mp reached
  obtain ⟨stack, count⟩ := Prod.mk.inj found
  exact ⟨s, .of_run run, stack, count⟩

/-! ## No premature release -/

/-- The accept thread is filling slot `i`, up to the increment of its
`PostRecv`. -/
@[simp] def Frame.fills (i : Fin n) : Frame n → Nat
  | .acceptThread (.nextID j _) => share j i
  | .acceptThread (.setID j _ _) => share j i
  | .acceptThread (.setIndex j _) => share j i
  | .acceptThread (.setSock j _) => share j i
  | .acceptThread (.count j) => share j i
  | .acceptThread (.loadID j) => share j i
  | .acceptThread (.join j _) => share j i
  | .postRecv .check j .accept => share j i
  | .postRecv .inc j .accept => share j i
  | _ => 0

/-- A slot that is being filled is not disconnected. -/
theorem released_of_fills {m : Shared n} {i : Fin n} {f : Frame n} (sound : f.Sound m)
    (fills : 0 < f.fills i) : (m.slot i).isReleased = false := by
  cases f with
  | acceptThread pc =>
      cases pc with
      | nextID j sock => exact eq_of_share_pos fills ▸ sound
      | setID j sock id => exact eq_of_share_pos fills ▸ sound
      | setIndex j sock => exact eq_of_share_pos fills ▸ sound
      | setSock j sock => exact eq_of_share_pos fills ▸ sound.1
      | count j => exact eq_of_share_pos fills ▸ sound.1
      | loadID j => exact eq_of_share_pos fills ▸ sound.1
      | join j id => exact eq_of_share_pos fills ▸ sound.1
      | _ => cases fills
  | postRecv pc j who =>
      cases pc <;> cases who <;> first | exact eq_of_share_pos fills ▸ sound.1 | cases fills
  | _ => cases fills

/-- **No premature release**, for runs whose steps are guarded: `ReleaseSession`
begins only on a session that is disconnected (and was not while it was being
created), with nothing outstanding, nobody holding the slot and the accept
thread through with it; `ioCount` counts what is outstanding and who holds. -/
theorem no_premature_release {n : Nat} {sessionID : UINT64} {kinds : List ThreadKind}
    {s : Conf (Frame n) (Shared n)}
    (run : (iocp n).Steps Guarded (Shared.boot n sessionID kinds) s) (i : Fin n) :
    (∀ t, s.top t = some (.releaseSession .loadID i) →
        (s.mem.slot i).isReleased = true ∧ (s.mem.slot i).recvOut = 0 ∧
          (s.mem.slot i).sendOut = 0 ∧ s.tally (Frame.holds i) = 0 ∧
          s.tally (Frame.fills i) = 0) ∧
      (0 < s.tally (Frame.fills i) → (s.mem.slot i).isReleased = false) ∧
      0 ≤ (s.mem.slot i).ioCount ∧
      (s.mem.slot i).ioCount =
        (s.mem.slot i).recvOut + (s.mem.slot i).sendOut + s.tally (Frame.holds i) := by
  have inv := Accounted.of_run run
  have held := inv.held i
  unfold Session.outside at held
  have filled : 0 < s.tally (Frame.fills i) → (s.mem.slot i).isReleased = false := by
    intro filling
    obtain ⟨stack, member, f, inside, fills⟩ := Conf.exists_of_tally_pos filling
    exact released_of_fills (inv.sound stack member f inside) fills
  refine ⟨?_, filled, inv.ioCount_nonneg, by omega⟩
  intro t top
  obtain ⟨rest, there⟩ := Conf.top_cases top
  have member := List.mem_of_getElem? there
  have sound := inv.sound _ member _ List.mem_cons_self
  have free := (inv.free_of_token member List.mem_cons_self (i := i) (share_self i).ge).1
  have idle : s.tally (Frame.fills i) = 0 := by
    by_contra filling
    have fresh := filled (Nat.pos_of_ne_zero filling)
    exact Bool.false_ne_true (fresh.symm.trans sound.1)
  exact ⟨sound.1, by omega, by omega, by omega, idle⟩

/-- A client is accepted and closes its end.  Where the worker's `ReleaseSession`
begins the session is disconnected, nothing is outstanding on it and nobody holds
it. -/
theorem no_premature_release_close :
    ∃ s, (iocp 1).Steps Guarded (Shared.boot 1 0 [.worker]) s ∧
      s.top 1 = some (.releaseSession .loadID firstSlot) ∧
      (s.mem.slot firstSlot).isReleased = true ∧ (s.mem.slot firstSlot).recvOut = 0 ∧
      (s.mem.slot firstSlot).sendOut = 0 := by
  have reached : ((iocp 1).runIf Guarded (acceptOne ++ closeOne.take 8)
      (Shared.boot 1 0 [.worker])).map (fun s => s.top 1) =
        some (some (.releaseSession .loadID firstSlot)) := rfl
  obtain ⟨s, taken, top⟩ := Option.map_eq_some_iff.mp reached
  have run := Machine.Steps.of_runIf taken
  obtain ⟨released, recvOut, sendOut, -⟩ := (no_premature_release run firstSlot).1 1 top
  exact ⟨s, run, top, released, recvOut, sendOut⟩

/-- A `Disconnect` that comes late begins to release a slot that is free, and
not disconnected. -/
theorem released_early :
    ∃ s, (iocp 1).Steps (fun _ _ _ => True) (Shared.boot 1 0 [.worker, .caller]) s ∧
      s.top 2 = some (.releaseSession .loadID 0) ∧ (s.mem.slot 0).isReleased = false := by
  have run : (iocp 1).run (acceptOne ++ closeOne ++ disconnectLate.take 4)
      (Shared.boot 1 0 [.worker, .caller]) = some _ := rfl
  exact ⟨_, .of_run run, rfl, rfl⟩

end ChattingServer
