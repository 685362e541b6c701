import ChattingServer.LoneRelease

/-!
# A send that is refused

`PostSend` takes the flag, moves a batch into `completeSendBuf`, counts it and
increments `ioCount` before `WSASend` answers.  When the answer is an error it
takes back the increment and nothing else: unless that was the last one, and the
session is released, the flag stays taken with nobody left to clear it.
-/

namespace ChattingServer

variable {n : Nat}

theorem foldl_pushBounded {α : Type} (capacity : Nat) (xs queue : List α) :
    xs.foldl (pushBounded capacity) queue = queue ++ xs.take (capacity - queue.length) := by
  induction xs generalizing queue with
  | nil => simp
  | cons x xs ih =>
      rw [List.foldl_cons, ih, pushBounded]
      split_ifs with room
      · obtain ⟨k, left⟩ := Nat.exists_eq_add_of_lt room
        have more : capacity - queue.length = k + 1 := by omega
        have less : capacity - (queue ++ [x]).length = k := by
          rw [List.length_append, List.length_singleton]
          omega
        rw [more, less, List.take_succ_cons, List.append_assoc]
        rfl
      · have none : capacity - queue.length = 0 := by omega
        rw [none, List.take_zero, List.take_zero]

/-- The session when `PostSend` comes to its `WSASend`, but for `ioCount`. -/
def Session.gathered (s : Session) : Session :=
  { s with
    isSendFlag := true
    sendBuf := s.sendBuf.drop 100
    completeSendBuf := (s.sendBuf.take 100).foldl (pushBounded sendCapacity) s.completeSendBuf
    sendCount := min 100 s.sendBuf.length }

section Solo

variable {m m' : Shared n} {rest : List (Frame n)} {i : Fin n}

/-- The rounds of the `while` that `PostSend` has left, with `k` of them. -/
theorem solo_gather (k : Nat) {s : Session} {pktCount : Nat} (rounds : pktCount + k = 100)
    (found : 0 < pktCount + s.sendBuf.length) :
    (iocp n).Solo (m.setSlot i s) (PostSend.loop i pktCount ++ rest) m' ↔
      (iocp n).Solo (m.setSlot i
        { s with
          sendBuf := s.sendBuf.drop k
          completeSendBuf :=
            (s.sendBuf.take k).foldl (pushBounded sendCapacity) s.completeSendBuf })
        (.postSend (.count (min 100 (pktCount + s.sendBuf.length))) i :: rest) m' := by
  have move (p : PacketPtr) (pktCount : Nat) : (Frame.postSend (.move p pktCount) i : Frame n).act =
      ⟨.session i (.pushComplete p), fun _ => PostSend.loop i (pktCount + 1)⟩ := rfl
  induction k generalizing s pktCount with
  | zero =>
      have full : ¬ pktCount < 100 := by omega
      have all : min 100 (pktCount + s.sendBuf.length) = pktCount := by omega
      rw [PostSend.loop, if_neg full, all]
      rfl
  | succ k ih =>
      rw [PostSend.loop, if_pos (by omega), List.singleton_append,
        solo_session (f := .postSend (.pop pktCount) i) rfl]
      obtain ⟨sock, sessionID, index, isSendFlag, sendCount, isReleased, ioCount, sendBuf,
        completeSendBuf, recvOut, sendOut⟩ := s
      cases sendBuf with
      | nil =>
          have begun : ¬ pktCount = 0 := by
            intro zero
            rw [zero] at found
            exact Nat.lt_irrefl 0 found
          have all : min 100 (pktCount + ([] : List PacketPtr).length) = pktCount :=
            Nat.min_eq_right (by rw [List.length_nil]; omega)
          simp only [SessionOp.exec, Shared.slot_setSlot_self, Shared.setSlot_setSlot,
            List.head?_nil, List.tail_nil, if_neg begun, all, List.singleton_append,
            List.drop_nil, List.take_nil, List.foldl_nil]
      | cons p ps =>
          simp only [SessionOp.exec, Shared.slot_setSlot_self, Shared.setSlot_setSlot,
            List.head?_cons, List.tail_cons, List.singleton_append]
          rw [solo_session (move p pktCount)]
          simp only [SessionOp.exec, Shared.slot_setSlot_self, Shared.setSlot_setSlot]
          have all : pktCount + 1 + ps.length = pktCount + (p :: ps).length := by
            rw [List.length_cons]
            omega
          refine (ih ?_ ?_).trans ?_
          · omega
          · omega
          · simp only [all, List.drop_succ_cons, List.take_succ_cons, List.foldl_cons]

/-- `WSASend` accepts, or `PostSend` takes its increment back. -/
theorem solo_issue :
    (iocp n).Solo m (.postSend .issue i :: rest) m' ↔
      (iocp n).Solo (m.setSlot i ((m.slot i).outstanding true)) rest m' ∨
        (iocp n).Solo m (.postSend .undo i :: rest) m' := by
  rw [Machine.solo_cons_iff (show (Frame.postSend .issue i).act = ⟨.wsaSend i, _⟩ from rfl)]
  constructor
  · rintro ⟨c, r, m₁, first, others⟩
    rcases Shared.issue_cases first with ⟨rfl, rfl⟩ | ⟨rfl, rfl⟩
    · exact Or.inl others
    · exact Or.inr others
  · rintro (accepted | refused)
    · exact ⟨.outcome true, true, _, rfl, accepted⟩
    · exact ⟨.outcome false, false, _, rfl, refused⟩

/-- A `PostSend` that wins the flag and finds packets. -/
theorem solo_postSend (free : (m.slot i).isSendFlag = false) (queued : (m.slot i).sendBuf ≠ []) :
    (iocp n).Solo m [.postSend .cas i] m' ↔
      m' = m.setSlot i (Session.outstanding
          { (m.slot i).gathered with ioCount := (m.slot i).ioCount + 1 } true) ∨
        m' = if (m.slot i).ioCount = 0 then (m.setSlot i (m.slot i).gathered).released i
          else m.setSlot i (m.slot i).gathered := by
  have found : 0 < 0 + (m.slot i).sendBuf.length := by
    rw [Nat.zero_add]
    exact List.length_pos_of_ne_nil queued
  rw [solo_session (f := .postSend .cas i) rfl]
  simp only [SessionOp.exec, free, Bool.not_false]
  rw [solo_gather 100 rfl (s := { m.slot i with isSendFlag := true }) found,
    solo_store (f := .postSend (.count _) i) rfl, solo_store (f := .postSend .inc i) rfl,
    solo_issue, Machine.solo_nil_iff, solo_session (f := .postSend .undo i) rfl]
  simp only [SessionOp.exec, Shared.slot_setSlot_self, Shared.setSlot_setSlot, Nat.zero_add,
    Int.add_sub_cancel]
  apply or_congr (Iff.of_eq rfl)
  rcases eq_or_ne (m.slot i).ioCount 0 with last | more
  · rw [decide_eq_true last, if_pos last]
    exact solo_releaseSession.trans Machine.solo_nil_iff
  · rw [decide_eq_false more, if_neg more]
    exact Machine.solo_nil_iff

end Solo

/-! ## What is left of the session -/

/-- How often a packet waits in the queues of the session. -/
def Session.waiting (s : Session) (p : PacketPtr) : Nat := (s.sendBuf ++ s.completeSendBuf).count p

/-- `PostSend` has left the session disconnected, or able to send: the flag is
clear, nothing is counted, and each packet that it took from `sendBuf` has been
given back or is in `sendBuf` again. -/
def SendSettled (i : Fin n) (m m' : Shared n) : Prop :=
  (m'.slot i).isReleased = true ∨
    (m'.slot i).isSendFlag = false ∧ (m'.slot i).sendCount = 0 ∧
      (m'.slot i).completeSendBuf <+: (m.slot i).completeSendBuf ∧
      ∀ p, m.packets.refs p - m'.packets.refs p = (m.slot i).waiting p - (m'.slot i).waiting p

/-- `completeSendBuf` takes the whole batch. -/
def Session.BatchFits (s : Session) : Prop :=
  s.completeSendBuf.length + min 100 s.sendBuf.length ≤ sendCapacity

/-- A batch that fits is moved, and of one that does not packets are lost. -/
theorem queued_gathered_iff {s : Session} (queued : s.sendBuf ≠ []) :
    (∀ p, s.gathered.waiting p = s.waiting p) ↔ s.BatchFits := by
  have pos : 0 < s.sendBuf.length := List.length_pos_of_ne_nil queued
  have moved : s.gathered.completeSendBuf = s.completeSendBuf ++
      (s.sendBuf.take 100).take (sendCapacity - s.completeSendBuf.length) :=
    foldl_pushBounded sendCapacity _ _
  constructor
  · intro same
    have lengths := (List.perm_iff_count.mpr same).length_eq
    rw [List.length_append, moved] at lengths
    simp only [Session.gathered, List.length_append, List.length_drop, List.length_take] at lengths
    unfold Session.BatchFits
    omega
  · intro fits p
    unfold Session.BatchFits at fits
    have whole : (s.sendBuf.take 100).take (sendCapacity - s.completeSendBuf.length) =
        s.sendBuf.take 100 := by
      apply List.take_of_length_le
      rw [List.length_take]
      omega
    have parts := congrArg (List.count p) (List.take_append_drop 100 s.sendBuf)
    rw [List.count_append] at parts
    rw [Session.waiting, Session.waiting, List.count_append, List.count_append, moved, whole,
      List.count_append]
    simp only [Session.gathered]
    omega

section Settled

variable {m : Shared n} {i : Fin n}

theorem sendSettled_gathered_iff :
    SendSettled i m (m.setSlot i (m.slot i).gathered) ↔ (m.slot i).isReleased = true := by
  unfold SendSettled
  rw [Shared.slot_setSlot_self]
  constructor
  · rintro (released | ⟨clear, -⟩)
    · exact released
    · cases clear
  · exact Or.inl

theorem sendSettled_released_iff (queued : (m.slot i).sendBuf ≠ []) :
    SendSettled i m ((m.setSlot i (m.slot i).gathered).released i) ↔ (m.slot i).BatchFits := by
  have after : ((m.setSlot i (m.slot i).gathered).released i).slot i =
      (m.slot i).gathered.init := by
    unfold Shared.released
    rw [Shared.slot_setSlot_self]
    exact Function.update_self ..
  have refs (p : PacketPtr) : ((m.setSlot i (m.slot i).gathered).released i).packets.refs p =
      m.packets.refs p - (m.slot i).gathered.waiting p := by
    unfold Shared.released
    rw [Shared.slot_setSlot_self]
    exact Packets.refs_foldl_subRef _ m.packets p
  unfold SendSettled
  rw [after, ← queued_gathered_iff queued]
  constructor
  · rintro (released | ⟨-, -, -, given⟩)
    · cases released
    · intro p
      have back := given p
      rw [refs] at back
      have none : (m.slot i).gathered.init.waiting p = 0 := List.count_nil
      omega
  · intro same
    refine Or.inr ⟨rfl, rfl, List.nil_prefix, ?_⟩
    intro p
    have all := same p
    have none : (m.slot i).gathered.init.waiting p = 0 := List.count_nil
    rw [refs]
    omega

/-- The condition of `send_failure_iff`. -/
def Session.Recovers (s : Session) : Prop :=
  if s.ioCount = 0 then s.BatchFits else s.isReleased = true

/-- **A send that is refused.** Whatever the session, a `PostSend` that wins the
flag, finds packets and has its `WSASend` refused settles it if and only if
either nobody else holds it, and `completeSendBuf` takes the batch, or it is
disconnected already. -/
theorem send_failure_iff {m' : Shared n} (free : (m.slot i).isSendFlag = false)
    (queued : (m.slot i).sendBuf ≠ []) (run : (iocp n).Solo m [.postSend .cas i] m')
    (refused : (m'.slot i).sendOut = (m.slot i).sendOut) :
    SendSettled i m m' ↔ (m.slot i).Recovers := by
  unfold Session.Recovers
  rcases (solo_postSend free queued).mp run with rfl | rfl
  · rw [Shared.slot_setSlot_self] at refused
    exact absurd refused (Nat.succ_ne_self _)
  · split_ifs with last
    · exact sendSettled_released_iff queued
    · exact sendSettled_gathered_iff

end Settled

/-- A broadcast to the first session comes to its `PostSend`. -/
def broadcastOne : List (Nat × Choice 1) :=
  (2, .call (.broadcast [firstID])) :: List.replicate 10 (2, .none)

/-- The client closes its end, and the worker that learns of it has set
`isReleased`. -/
def clientGone : List (Nat × Choice 1) := [(1, .completed ⟨firstSlot, false, 0⟩), (1, .none)]

/-- The `WSASend` of a broadcast is refused after the client has closed its end.
The caller and a worker hold the session, and it is disconnected, so that the
refusal settles it. -/
theorem send_failure_disconnected :
    ∃ s m', (iocp 1).Steps (fun _ _ _ => True) (Shared.boot 1 0 [.worker, .caller]) s ∧
      s.top 2 = some (.postSend .cas 0) ∧ (s.mem.slot 0).ioCount = 2 ∧
      (s.mem.slot 0).isReleased = true ∧ (iocp 1).Solo s.mem [.postSend .cas 0] m' ∧
      SendSettled 0 s.mem m' := by
  have run : (iocp 1).run (acceptOne ++ broadcastOne ++ clientGone)
      (Shared.boot 1 0 [.worker, .caller]) = some _ := rfl
  obtain ⟨s, reached, top, free, released, held, batch⟩ :
      ∃ s, (iocp 1).Steps (fun _ _ _ => True) (Shared.boot 1 0 [.worker, .caller]) s ∧
        s.top 2 = some (.postSend .cas 0) ∧ (s.mem.slot 0).isSendFlag = false ∧
        (s.mem.slot 0).isReleased = true ∧ (s.mem.slot 0).ioCount = 2 ∧
        (s.mem.slot 0).sendBuf = [0] :=
    ⟨_, .of_run run, rfl, rfl, rfl, rfl, rfl⟩
  have queued : (s.mem.slot 0).sendBuf ≠ [] := by
    rw [batch]
    exact List.cons_ne_nil 0 []
  have more : (s.mem.slot 0).ioCount ≠ 0 := by
    rw [held]
    decide
  have refused := (solo_postSend free queued).mpr (Or.inr (if_neg more).symm)
  have after := s.mem.slot_setSlot_self 0 (s.mem.slot 0).gathered
  refine ⟨s, _, reached, top, held, released, refused, ?_⟩
  refine (send_failure_iff free queued refused ?_).mpr ?_
  · rw [after]
    rfl
  · rw [Session.Recovers, if_neg more]
    exact released

/-- The `WSASend` of a broadcast to a live session is refused: the session stays
live, with the flag taken, the packet in `completeSendBuf` and no send
outstanding. -/
theorem send_failure_strands :
    ∃ s m', (iocp 1).Steps (fun _ _ _ => True) (Shared.boot 1 0 [.worker, .caller]) s ∧
      s.top 2 = some (.postSend .cas 0) ∧ (s.mem.slot 0).isSendFlag = false ∧
      (s.mem.slot 0).sendBuf ≠ [] ∧ (iocp 1).Solo s.mem [.postSend .cas 0] m' ∧
      (m'.slot 0).sendOut = (s.mem.slot 0).sendOut ∧ ¬ SendSettled 0 s.mem m' ∧
      (m'.slot 0).isReleased = false ∧ (m'.slot 0).isSendFlag = true ∧
      (m'.slot 0).completeSendBuf = [0] ∧ (m'.slot 0).sendOut = 0 := by
  have run : (iocp 1).run (acceptOne ++ broadcastOne) (Shared.boot 1 0 [.worker, .caller]) =
      some _ := rfl
  obtain ⟨s, reached, top, free, live, held, batch, none, out⟩ :
      ∃ s, (iocp 1).Steps (fun _ _ _ => True) (Shared.boot 1 0 [.worker, .caller]) s ∧
        s.top 2 = some (.postSend .cas 0) ∧ (s.mem.slot 0).isSendFlag = false ∧
        (s.mem.slot 0).isReleased = false ∧ (s.mem.slot 0).ioCount = 2 ∧
        (s.mem.slot 0).sendBuf = [0] ∧ (s.mem.slot 0).completeSendBuf = [] ∧
        (s.mem.slot 0).sendOut = 0 :=
    ⟨_, .of_run run, rfl, rfl, rfl, rfl, rfl, rfl, rfl⟩
  have queued : (s.mem.slot 0).sendBuf ≠ [] := by
    rw [batch]
    exact List.cons_ne_nil 0 []
  have more : (s.mem.slot 0).ioCount ≠ 0 := by
    rw [held]
    decide
  have refused := (solo_postSend free queued).mpr (Or.inr (if_neg more).symm)
  have after := s.mem.slot_setSlot_self 0 (s.mem.slot 0).gathered
  refine ⟨s, _, reached, top, free, queued, refused, ?_, ?_, ?_, ?_, ?_, ?_⟩
  · rw [after]
    rfl
  · rw [sendSettled_gathered_iff, live]
    exact Bool.false_ne_true
  · rw [after]
    exact live
  · rw [after]
    rfl
  · rw [after]
    simp only [Session.gathered, batch, none]
    rfl
  · rw [after]
    exact out

end ChattingServer
