import ChattingServer.SlotLife
import ChattingServer.LoneRelease

/-!
# A receive that is refused

When `WSARecv` answers with an error `PostRecv` takes back its increment,
releases the session if that was the last one, and disconnects it.  In a
completion it never is the last one: the session is disconnected, and torn down
by whoever lets go of it last (`recv_failure`).  In the accept thread it is,
unless somebody else got hold of the new session: there the `DisConnect` comes
after the release, and the slot is released twice (`history_of_undo`).
-/

namespace ChattingServer

variable {n : Nat}

/-- A `DisConnect` of a slot that has just been initialised releases it. -/
theorem solo_disConnect_of_init {m m' : Shared n} {i : Fin n} {rest : List (Frame n)} {s : Session}
    (init : m.slot i = s.init) :
    (iocp n).Solo m (.disConnect .cas i :: rest) m' ↔
      (iocp n).Solo (Shared.released
        { m.setSlot i { m.slot i with isReleased := true } with
          server := m.server.record (.close i none) } i) rest m' := by
  have close (sock : Option Nat) : (Frame.disConnect (.close sock) i : Frame n).act =
      ⟨.server (.closesocket i sock), fun _ => [.disConnect .clearSock i]⟩ := rfl
  rw [solo_session (f := .disConnect .cas i) rfl, init]
  simp only [SessionOp.exec, Session.init, Session.new, List.singleton_append]
  rw [solo_session (f := .disConnect .loadSock i) rfl]
  simp only [SessionOp.exec, Shared.slot_setSlot_self, Shared.setSlot_setSlot,
    List.singleton_append]
  rw [solo_server (close _) rfl]
  simp only [List.singleton_append]
  rw [solo_session (f := .disConnect .clearSock i) rfl]
  simp only [SessionOp.exec, List.singleton_append]
  rw [solo_session (f := .disConnect .check i) rfl]
  simp only [SessionOp.exec, Shared.slot_setSlot_self]
  have aside (server : Server) (x y : Session) :
      Shared.setSlot { m.setSlot i x with server := server } i y =
        { (m.setSlot i x).setSlot i y with server := server } := rfl
  rw [Shared.setSlot_setSlot, aside, Shared.setSlot_setSlot]
  exact solo_releaseSession

/-- What the accept thread does when the receive of a new session is refused and
nobody else has got hold of it: the release is followed by a `DisConnect` and
another release of the slot. -/
theorem history_of_undo {m m' : Shared n} {i : Fin n} (last : (m.slot i).ioCount = 1)
    (run : (iocp n).Solo m [.postRecv .undo i .accept] m') :
    m'.server.history i = m.server.history i ++
      [.leave i (m.slot i).sessionID, .push i (m.slot i).index, .close i none, .leave i (-1),
        .push i 0] ∧ m'.server.indexStack = 0 :: (m.slot i).index :: m.server.indexStack := by
  rw [solo_session (f := .postRecv .undo i .accept) rfl] at run
  simp only [SessionOp.exec, last, Int.sub_self, decide_true, List.cons_append,
    List.nil_append] at run
  rw [solo_releaseSession] at run
  have init : (Shared.released (m.setSlot i { m.slot i with ioCount := 0 }) i).slot i =
      (m.slot i).init := by
    unfold Shared.released
    rw [Shared.slot_setSlot_self]
    exact Function.update_self ..
  rw [solo_disConnect_of_init init, Machine.solo_nil_iff] at run
  subst run
  simp [Shared.released, Shared.setSlot, Session.init, Session.new, Server.record, Server.history,
    Event.slot]

end ChattingServer
