import ChattingServer.StaleIds

/-!
# One release with nobody else about

A `ReleaseSession` that no other thread interrupts gives back every packet of
the two queues, initialises the slot and pushes its index
(`solo_releaseSession`): whatever the session was, also none.
-/

namespace ChattingServer

variable {n : Nat}

/-- `SubRef`, with the `Free` of the last one. -/
def Packets.subRef (k : Packets) (p : PacketPtr) : Packets :=
  { k with
    refs := Function.update k.refs p (k.refs p - 1)
    pool := if k.refs p - 1 = 0 then p :: k.pool else k.pool }

/-- Every packet has lost as many references as the list names it. -/
theorem Packets.refs_foldl_subRef (ps : List PacketPtr) (k : Packets) (p : PacketPtr) :
    (ps.foldl Packets.subRef k).refs p = k.refs p - ps.count p := by
  induction ps generalizing k with
  | nil => exact (Int.sub_zero _).symm
  | cons q ps ih =>
      rw [List.foldl_cons, ih, Packets.subRef]
      dsimp only
      rcases eq_or_ne q p with rfl | other
      · rw [Function.update_self, List.count_cons_self]
        omega
      · rw [Function.update_of_ne other.symm, List.count_cons_of_ne other]

/-- `Init`.  What the kernel owes is not its business. -/
def Session.init (s : Session) : Session :=
  { Session.new with
    recvOut := s.recvOut
    sendOut := s.sendOut }

/-- The packets of a list have lost a reference each. -/
def Shared.returned (m : Shared n) (ps : List PacketPtr) : Shared n :=
  { m with packets := ps.foldl Packets.subRef m.packets }

/-- What a `ReleaseSession` of the slot makes of the memory. -/
def Shared.released (m : Shared n) (i : Fin n) : Shared n where
  slot := Function.update m.slot i (m.slot i).init
  server :=
    { m.server with
      indexStack := (m.slot i).index :: m.server.indexStack
      sessionCount := m.server.sessionCount - 1
      log := .push i (m.slot i).index :: .leave i (m.slot i).sessionID :: m.server.log }
  packets := ((m.slot i).sendBuf ++ (m.slot i).completeSendBuf).foldl Packets.subRef m.packets

section Solo

variable {m m' : Shared n} {rest : List (Frame n)} {i : Fin n}

/-- An operation on packets has one result. -/
theorem solo_packet {α : Type} {f : Frame n} {op : PacketOp α} {next : α → List (Frame n)}
    (act : f.act = ⟨.packet op, next⟩) :
    (iocp n).Solo m (f :: rest) m' ↔
      (iocp n).Solo { m with packets := (op.exec m.packets).2 }
        (next (op.exec m.packets).1 ++ rest) m' := by
  rw [Machine.solo_cons_iff act]
  constructor
  · rintro ⟨c, r, m₁, first, others⟩
    cases first
    exact others
  · intro others
    exact ⟨.none, _, _, rfl, others⟩

/-- An operation on what the server keeps has one result, or none. -/
theorem solo_server {α : Type} {f : Frame n} {op : ServerOp α} {next : α → List (Frame n)}
    (act : f.act = ⟨.server op, next⟩) {r : α} {server : Server}
    (result : op.exec m.server = some (r, server)) :
    (iocp n).Solo m (f :: rest) m' ↔
      (iocp n).Solo { m with server := server } (next r ++ rest) m' := by
  have done (c : Choice n) : exec (.server op) c m = some (r, { m with server := server }) :=
    congrArg (Option.map _) result
  rw [Machine.solo_cons_iff act]
  constructor
  · rintro ⟨c, r', m₁, first, others⟩
    have same := (done c).symm.trans first
    cases same
    exact others
  · intro others
    exact ⟨.none, r, _, done .none, others⟩

theorem solo_subRef (p : PacketPtr) :
    (iocp n).Solo m (.subRef p :: rest) m' ↔ (iocp n).Solo (m.returned [p]) rest m' := by
  have free : (Frame.free p : Frame n).act = ⟨.packet (.freeBlock p), fun _ => []⟩ := rfl
  rw [solo_packet (f := .subRef p) rfl]
  simp only [PacketOp.exec, Shared.returned, List.foldl_cons, List.foldl_nil, Packets.subRef]
  rcases eq_or_ne (m.packets.refs p - 1) 0 with last | more
  · rw [decide_eq_true last, if_pos last]
    exact solo_packet free
  · rw [decide_eq_false more, if_neg more]
    rfl

/-- One of the two queues of a session, and the operation that pops it. -/
structure SendQueue where
  queue : Session → List PacketPtr
  put : Session → List PacketPtr → Session
  pop : SessionOp (Option PacketPtr)
  exec_pop (s : Session) : pop.exec s = ((queue s).head?, put s (queue s).tail)
  queue_put (s : Session) (ps : List PacketPtr) : queue (put s ps) = ps
  put_put (s : Session) (ps qs : List PacketPtr) : put (put s ps) qs = put s qs

/-- A loop that gives every packet of a queue back. -/
theorem solo_drain (q : SendQueue) {pc next : ReleaseSession}
    (act : (Frame.releaseSession pc i : Frame n).act = ⟨.session i q.pop, fun
      | some p => [.subRef p, .releaseSession pc i]
      | none => [.releaseSession next i]⟩) :
    (iocp n).Solo m (.releaseSession pc i :: rest) m' ↔
      (iocp n).Solo ((m.setSlot i (q.put (m.slot i) [])).returned (q.queue (m.slot i)))
        (.releaseSession next i :: rest) m' := by
  generalize queue : q.queue (m.slot i) = ps
  induction ps generalizing m with
  | nil =>
      rw [solo_session act, q.exec_pop, queue]
      rfl
  | cons p ps ih =>
      rw [solo_session act, q.exec_pop, queue]
      simp only [List.head?_cons, List.tail_cons, List.cons_append, List.nil_append]
      rw [solo_subRef]
      have popped : ((m.setSlot i (q.put (m.slot i) ps)).returned [p]).slot i =
          q.put (m.slot i) ps := m.slot_setSlot_self i _
      have left := congrArg q.queue popped
      rw [q.queue_put] at left
      rw [ih left, popped, q.put_put]
      have twice : (((m.setSlot i (q.put (m.slot i) ps)).returned [p]).setSlot i
          (q.put (m.slot i) [])).returned ps =
          ((m.setSlot i (q.put (m.slot i) ps)).setSlot i (q.put (m.slot i) [])).returned
            (p :: ps) := rfl
      rw [twice, Shared.setSlot_setSlot]

def SendQueue.sendBuf : SendQueue where
  queue := Session.sendBuf
  put s ps := { s with sendBuf := ps }
  pop := .popSend
  exec_pop _ := rfl
  queue_put _ _ := rfl
  put_put _ _ _ := rfl

def SendQueue.completeSendBuf : SendQueue where
  queue := Session.completeSendBuf
  put s ps := { s with completeSendBuf := ps }
  pop := .popComplete
  exec_pop _ := rfl
  queue_put _ _ := rfl
  put_put _ _ _ := rfl

/-- The loops before `Init`. -/
theorem solo_drains :
    (iocp n).Solo m (.releaseSession .drainSend i :: rest) m' ↔
      (iocp n).Solo
        ((m.setSlot i { m.slot i with sendBuf := [], completeSendBuf := [] }).returned
          ((m.slot i).sendBuf ++ (m.slot i).completeSendBuf))
        (.releaseSession .loadIndex i :: rest) m' := by
  rw [solo_drain .sendBuf rfl, solo_drain .completeSendBuf rfl]
  have drained : ((m.setSlot i (SendQueue.sendBuf.put (m.slot i) [])).returned
      (m.slot i).sendBuf).slot i = { m.slot i with sendBuf := [] } := m.slot_setSlot_self i _
  have twice (s : Session) : (((m.setSlot i (SendQueue.sendBuf.put (m.slot i) [])).returned
      (m.slot i).sendBuf).setSlot i s).returned (m.slot i).completeSendBuf =
      (((m.setSlot i (SendQueue.sendBuf.put (m.slot i) [])).setSlot i s).returned
        (m.slot i).sendBuf).returned (m.slot i).completeSendBuf := rfl
  rw [show SendQueue.sendBuf.queue = Session.sendBuf from rfl, drained]
  simp only [SendQueue.completeSendBuf]
  rw [twice, Shared.setSlot_setSlot]
  simp only [Shared.returned, List.foldl_append]

/-- A store, and on. -/
theorem solo_store {f g : Frame n} {op : SessionOp Unit}
    (act : f.act = ⟨.session i op, fun _ => [g]⟩) (s : Session) :
    (iocp n).Solo (m.setSlot i s) (f :: rest) m' ↔
      (iocp n).Solo (m.setSlot i (op.exec s).2) (g :: rest) m' := by
  rw [solo_session act, Shared.slot_setSlot_self, Shared.setSlot_setSlot]
  rfl

/-- A queue that is empty needs no draining. -/
theorem solo_drained (q : SendQueue) {pc next : ReleaseSession}
    (act : (Frame.releaseSession pc i : Frame n).act = ⟨.session i q.pop, fun
      | some p => [.subRef p, .releaseSession pc i]
      | none => [.releaseSession next i]⟩) {s : Session} (drained : q.queue s = []) :
    (iocp n).Solo (m.setSlot i s) (.releaseSession pc i :: rest) m' ↔
      (iocp n).Solo (m.setSlot i (q.put s [])) (.releaseSession next i :: rest) m' := by
  rw [solo_drain q act, Shared.slot_setSlot_self, Shared.setSlot_setSlot, drained]
  rfl

/-- `Init`, with both queues drained. -/
theorem solo_init {s : Session} (drained : s.sendBuf = []) (drained' : s.completeSendBuf = []) :
    (iocp n).Solo (m.setSlot i s) (.releaseSession .loadIndex i :: rest) m' ↔
      (iocp n).Solo (m.setSlot i s.init) (.releaseSession (.push s.index) i :: rest) m' := by
  rw [solo_session (f := .releaseSession .loadIndex i) rfl]
  simp only [SessionOp.exec, Shared.slot_setSlot_self, Shared.setSlot_setSlot,
    List.singleton_append]
  generalize s.index = index
  rw [solo_store (f := .releaseSession (.initSock index) i) rfl,
    solo_store (f := .releaseSession (.initID index) i) rfl,
    solo_store (f := .releaseSession (.initIndex index) i) rfl,
    solo_store (f := .releaseSession (.initSendFlag index) i) rfl,
    solo_store (f := .releaseSession (.initSendCount index) i) rfl,
    solo_drained .sendBuf rfl, solo_drained .completeSendBuf rfl,
    solo_store (f := .releaseSession (.initReleased index) i) rfl,
    solo_store (f := .releaseSession (.initIo index) i) rfl]
  · rfl
  · exact drained'
  · exact drained

/-- **One release.** A lone `ReleaseSession` makes of the memory what
`released` says. -/
theorem solo_releaseSession :
    (iocp n).Solo m (.releaseSession .loadID i :: rest) m' ↔
      (iocp n).Solo (m.released i) rest m' := by
  have leave (id : UINT64) : (Frame.releaseSession (.leave id) i : Frame n).act =
      ⟨.server (.onClientLeave i id), fun _ => [.releaseSession .drainSend i]⟩ := rfl
  have push (index : Nat) : (Frame.releaseSession (.push index) i : Frame n).act =
      ⟨.server (.pushIndex i index), fun _ => [.releaseSession .count i]⟩ := rfl
  have count : (Frame.releaseSession .count i : Frame n).act =
      ⟨.server .decSessions, fun _ => []⟩ := rfl
  rw [solo_session (f := .releaseSession .loadID i) rfl]
  simp only [SessionOp.exec, Shared.setSlot_slot, List.singleton_append]
  rw [solo_server (leave _) rfl]
  simp only [List.singleton_append]
  rw [solo_drains]
  have early (k : Shared n) (s : Session) (ps : List PacketPtr) :
      (k.setSlot i s).returned ps = (k.returned ps).setSlot i s := rfl
  rw [early, solo_init rfl rfl, solo_server (push _) rfl]
  simp only [List.singleton_append]
  rw [solo_server count rfl]
  rfl

end Solo

end ChattingServer
