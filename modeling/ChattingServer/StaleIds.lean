import ChattingServer.IOCPServer

/-!
# Calls with the ID of a session that is gone

`SessionLock` increments the `ioCount` of whatever slot the ID names, and takes
the increment back when the ID or `isReleased` does not fit.  Taking it back to
zero calls `ReleaseSession`, so a call with a stale ID is without effect exactly
where something else holds the slot.
-/

namespace ChattingServer

variable {n : Nat}

/-! ## The record only grows -/

theorem ServerOp.log_exec {α : Type} {op : ServerOp α} {s s' : Server} {r : α}
    (done : op.exec s = some (r, s')) : s.log <:+ s'.log := by
  cases op with
  | popIndex =>
      obtain ⟨indexStack, sessionCount, sessionID, log⟩ := s
      cases indexStack with
      | nil => cases done
      | cons index rest =>
          cases done
          exact List.suffix_cons _ _
  | _ =>
      cases done
      first
        | exact List.suffix_refl _
        | exact List.suffix_cons _ _

theorem log_exec {α : Type} {op : Op n α} {c : Choice n} {m m' : Shared n} {r : α}
    (done : exec op c m = some (r, m')) : m.server.log <:+ m'.server.log := by
  cases op with
  | session i op =>
      cases done
      exact List.suffix_refl _
  | server op =>
      obtain ⟨⟨r', server⟩, done', same⟩ := Option.map_eq_some_iff.mp done
      cases same
      exact op.log_exec done'
  | packet op =>
      cases done
      exact List.suffix_refl _
  | outside op =>
      obtain ⟨r', -, same⟩ := Option.map_eq_some_iff.mp done
      cases same
      exact List.suffix_refl _
  | wsaRecv i =>
      rcases Shared.issue_cases done with ⟨-, rfl⟩ | ⟨-, rfl⟩ <;> exact List.suffix_refl _
  | wsaSend i =>
      rcases Shared.issue_cases done with ⟨-, rfl⟩ | ⟨-, rfl⟩ <;> exact List.suffix_refl _
  | completion =>
      obtain ⟨s, -, rfl⟩ := Shared.complete_cases done
      exact List.suffix_refl _
  | undefined => cases done

theorem log_solo {fs : List (Frame n)} {m m' : Shared n} (run : (iocp n).Solo m fs m') :
    m.server.log <:+ m'.server.log := by
  induction run with
  | done m => exact List.suffix_refl _
  | step first _ ih => exact (log_exec first).trans ih

/-! ## A lone call -/

section Solo

variable {m m' : Shared n} {rest : List (Frame n)}

/-- An operation on a session has one result. -/
theorem solo_session {α : Type} {f : Frame n} {i : Fin n} {op : SessionOp α}
    {next : α → List (Frame n)} (act : f.act = ⟨.session i op, next⟩) :
    (iocp n).Solo m (f :: rest) m' ↔
      (iocp n).Solo (m.setSlot i (op.exec (m.slot i)).2)
        (next (op.exec (m.slot i)).1 ++ rest) m' := by
  rw [Machine.solo_cons_iff act]
  constructor
  · rintro ⟨c, r, m₁, first, others⟩
    cases first
    exact others
  · intro others
    exact ⟨.none, _, _, rfl, others⟩

/-- The session that `id` names is live in its slot. -/
def Shared.Live (m : Shared n) (id : UINT64) : Prop :=
  ∃ i : Fin n, getSessionIndex id = i ∧ (m.slot i).sessionID = id ∧
    (m.slot i).isReleased = false

/-- Something holds the slot that `id` names. -/
def Shared.Held (m : Shared n) (id : UINT64) : Prop :=
  ∃ i : Fin n, getSessionIndex id = i ∧ (m.slot i).ioCount ≠ 0

/-- A call with a stale ID comes to the decrement of `SessionLock`. -/
theorem solo_lock_of_stale {id : UINT64} (use : LockUse) (stale : ¬ m.Live id)
    {i : Fin n} (named : getSessionIndex id = i) :
    (iocp n).Solo m (.lock id use :: rest) m' ↔
      (iocp n).Solo (m.setSlot i { m.slot i with ioCount := (m.slot i).ioCount + 1 })
        (.sessionLock .fail i id use :: rest) m' := by
  rw [solo_session (Frame.act_lock_of_lt use named)]
  simp only [SessionOp.exec, List.singleton_append]
  rw [solo_session (f := .sessionLock .id i id use) rfl]
  simp only [SessionOp.exec, Shared.slot_setSlot_self, Shared.setSlot_setSlot]
  rcases eq_or_ne id (m.slot i).sessionID with same | other
  · have gone : (m.slot i).isReleased = true := by
      by_contra live
      exact stale ⟨i, named, same.symm, eq_false_of_ne_true live⟩
    rw [decide_eq_true same]
    simp only [List.singleton_append]
    rw [solo_session (f := .sessionLock .released i id use) rfl]
    simp only [SessionOp.exec, Shared.slot_setSlot_self, Shared.setSlot_setSlot, gone,
      List.singleton_append]
  · rw [decide_eq_false other]
    simp only [List.singleton_append]

/-- A call with a stale ID that finds its slot returns, or goes on to `ReleaseSession`
where it was the last to hold the slot. -/
theorem solo_lock_iff {id : UINT64} (use : LockUse) (stale : ¬ m.Live id)
    {i : Fin n} (named : getSessionIndex id = i) :
    (iocp n).Solo m [.lock id use] m' ↔
      if (m.slot i).ioCount = 0 then (iocp n).Solo m [.releaseSession .loadID i] m'
      else m' = m := by
  rw [solo_lock_of_stale use stale named, solo_session (f := .sessionLock .fail i id use) rfl]
  simp only [SessionOp.exec, Shared.slot_setSlot_self, Shared.setSlot_setSlot,
    Int.add_sub_cancel]
  rw [m.setSlot_slot]
  rcases eq_or_ne (m.slot i).ioCount 0 with zero | held
  · rw [decide_eq_true zero, if_pos zero]
    rfl
  · rw [decide_eq_false held, if_neg held]
    exact Machine.solo_nil_iff

/-- A `ReleaseSession` leaves its mark. -/
theorem not_solo_releaseSession (i : Fin n) :
    ¬ (iocp n).Solo m [.releaseSession .loadID i] m := by
  have loadID : (Frame.releaseSession .loadID i : Frame n).act =
      ⟨.session i .loadID, fun id => [.releaseSession (.leave id) i]⟩ := rfl
  rw [solo_session loadID]
  intro run
  have leave : (Frame.releaseSession (.leave (m.slot i).sessionID) i : Frame n).act =
      ⟨.server (.onClientLeave i (m.slot i).sessionID), fun _ => [.releaseSession .drainSend i]⟩ :=
    rfl
  obtain ⟨c, r, m₁, first, others⟩ := (Machine.solo_cons_iff leave).mp run
  cases first
  have grows := (log_solo others).length_le
  simp only [Server.record, List.length_cons] at grows
  exact absurd grows (Nat.not_succ_le_self _)

/-- An ID outside the array is undefined behaviour. -/
theorem not_solo_lock {id : UINT64} (use : LockUse) (outside : n ≤ getSessionIndex id) :
    ¬ (iocp n).Solo m [.lock id use] m' := by
  rw [Machine.solo_cons_iff (Frame.act_lock_of_le use outside)]
  rintro ⟨c, r, m₁, first, -⟩
  cases first

end Solo

/-- The call returns, and leaves all the memory as it was. -/
def Undisturbed (m : Shared n) (call : Frame n) : Prop :=
  (iocp n).Solo m [call] m ∧ ∀ m', (iocp n).Solo m [call] m' → m' = m

/-- A `SessionLock` that fails is without effect exactly on a held slot. -/
theorem undisturbed_lock_iff {m : Shared n} {id : UINT64} (use : LockUse) (stale : ¬ m.Live id) :
    Undisturbed m (.lock id use) ↔ m.Held id := by
  constructor
  · rintro ⟨returns, -⟩
    rcases Nat.lt_or_ge (getSessionIndex id) n with inside | outside
    · have named : getSessionIndex id = (⟨getSessionIndex id, inside⟩ : Fin n) := rfl
      refine ⟨⟨getSessionIndex id, inside⟩, named, ?_⟩
      intro zero
      rw [solo_lock_iff use stale named, if_pos zero] at returns
      exact not_solo_releaseSession _ returns
    · exact absurd returns (not_solo_lock use outside)
  · rintro ⟨i, named, held⟩
    have run : ∀ m', (iocp n).Solo m [.lock id use] m' ↔ m' = m := by
      intro m'
      rw [solo_lock_iff use stale named, if_neg held]
    exact ⟨(run m).mpr rfl, fun m' => (run m').mp⟩

/-- **Stale session IDs.** With the ID of no session that is live in its slot,
`SendPacket` and `Disconnect` leave everything as it was, the packet and the
record of releases included, if and only if the slot the ID names exists and
its `ioCount` is not zero. -/
theorem stale_id_iff (m : Shared n) (id : UINT64) (p : PacketPtr) (stale : ¬ m.Live id) :
    Undisturbed m (.lock id (.send p)) ∧ Undisturbed m (.lock id .disconnect) ↔ m.Held id := by
  rw [undisturbed_lock_iff _ stale, undisturbed_lock_iff _ stale]
  exact and_self_iff

/-- One client is accepted: the eleven operations of the accept thread. -/
def acceptOne : List (Nat × Choice 1) :=
  (0, .socket (some 1)) :: List.replicate 11 (0, .none) ++ [(0, .outcome true)]

/-- The slot of the first session. -/
def firstSlot : Fin 1 := 0

/-- The client closes its end: a worker releases the session. -/
def closeOne : List (Nat × Choice 1) :=
  (1, .completed ⟨firstSlot, false, 0⟩) :: List.replicate 23 (1, .none)

/-- The ID of the first session. -/
def firstID : UINT64 := 0x1000000000000

theorem not_undisturbed_of_run {n : Nat} {steps : List (Nat × Choice n)} {id : UINT64}
    {s : Conf (Frame n) (Shared n)} (use : LockUse) (i : Fin n) (named : getSessionIndex id = i)
    (reached : ((iocp n).run steps s).map (fun s => ((s.mem.slot i).ioCount,
      decide ((s.mem.slot i).sessionID = id))) = some (0, false)) :
    ∃ s', (iocp n).run steps s = some s' ∧ ¬ s'.mem.Live id ∧
      ¬ Undisturbed s'.mem (.lock id use) := by
  obtain ⟨s', run, found⟩ := Option.map_eq_some_iff.mp reached
  obtain ⟨zero, other⟩ := Prod.mk.inj found
  have same : ∀ j : Fin n, getSessionIndex id = j → j = i :=
    fun j there => Fin.ext (there.symm.trans named)
  have stale : ¬ s'.mem.Live id := by
    rintro ⟨j, there, bears, -⟩
    rw [same j there] at bears
    exact of_decide_eq_false other bears
  refine ⟨s', run, stale, ?_⟩
  rw [undisturbed_lock_iff use stale]
  rintro ⟨j, there, held⟩
  rw [same j there] at held
  exact held zero

/-- After a server of one slot has released its first session, a call of
`Disconnect` with that session's ID disturbs it. -/
theorem stale_id_disturbs :
    ∃ s, (iocp 1).run (acceptOne ++ closeOne) (Shared.boot 1 0 [.worker]) = some s ∧
      ¬ s.mem.Live firstID ∧ ¬ Undisturbed s.mem (.lock firstID .disconnect) :=
  not_undisturbed_of_run .disconnect 0 (by decide) (by decide +kernel)

/-- While the first session waits for its client, calls with the ID of a later
session of the same slot do nothing. -/
theorem stale_id_harmless :
    ∃ s, (iocp 1).run acceptOne (Shared.boot 1 0 [.worker]) = some s ∧
      Undisturbed s.mem (.lock 0x2000000000000 (.send 0)) ∧
      Undisturbed s.mem (.lock 0x2000000000000 .disconnect) := by
  have reached : ((iocp 1).run acceptOne (Shared.boot 1 0 [.worker])).map (fun s =>
      ((s.mem.slot 0).ioCount, (s.mem.slot 0).sessionID)) = some (1, firstID) := by
    decide +kernel
  obtain ⟨s, run, found⟩ := Option.map_eq_some_iff.mp reached
  obtain ⟨one, first⟩ := Prod.mk.inj found
  have named : getSessionIndex 0x2000000000000 = (0 : Fin 1) := by decide
  have only : ∀ j : Fin 1, j = 0 := fun j => Subsingleton.elim j 0
  have stale : ¬ s.mem.Live 0x2000000000000 := by
    rintro ⟨j, -, bears, -⟩
    rw [only j, first] at bears
    revert bears
    decide
  refine ⟨s, run, (stale_id_iff s.mem 0x2000000000000 0 stale).mpr ⟨0, named, ?_⟩⟩
  rw [one]
  decide

end ChattingServer
