import ChattingServer.StaleIds

/-!
# Who sends what is in `sendBuf`

`isSendFlag` belongs to the thread that drains `sendBuf`, then to the send the
kernel has outstanding, then to the worker that completes it; each of these
looks at `sendBuf` again before it is through.  The one that found `sendBuf`
empty does not: until it has cleared the flag, a `SendPacket` that finds the
flag set leaves its packet to nobody.
-/

namespace ChattingServer

variable {n : Nat}

/-- The places that hold the flag of slot `i` and look at `sendBuf` again. -/
@[simp] def Frame.drains (i : Fin n) : Frame n → Nat
  | .postSend .cas _ => 0
  | .postSend .clear _ => 0
  | .postSend _ j => share j i
  | .sendComplete .check _ => 0
  | .sendComplete _ j => share j i
  | _ => 0

/-- A `PostSend` of slot `i` has found `sendBuf` empty and still holds the flag. -/
@[simp] def Frame.clears (i : Fin n) : Frame n → Nat
  | .postSend .clear j => share j i
  | _ => 0

/-- The places from which a thread goes on to try for the flag of slot `i`. -/
@[simp] def Frame.looks (i : Fin n) : Frame n → Nat
  | .sendPacket _ j _ => share j i
  | .postSend .cas j => share j i
  | .sendComplete .check j => share j i
  | _ => 0

/-- A place inside `SendPacket`, `PostSend` or `SendComplete` of slot `i`. -/
def Frame.sends (i : Fin n) (f : Frame n) : Nat := f.drains i + f.clears i + f.looks i

def Session.flagged (s : Session) : Nat := if s.isSendFlag then 1 else 0

/-! ## The flag -/

@[simp] def SessionOp.raised : {α : Type} → SessionOp α → α → Nat
  | _, .casSendFlag, true => 1
  | _, _, _ => 0

/-- The operation takes the flag of slot `i`. -/
@[simp] def Op.raised (i : Fin n) : {α : Type} → Op n α → α → Nat
  | _, .session j op, r => if j = i then op.raised r else 0
  | _, _, _ => 0

@[simp] def SessionOp.lowered : {α : Type} → SessionOp α → Nat
  | _, .clearSendFlag => 1
  | _, _ => 0

/-- The operation gives the flag of slot `i` back. -/
@[simp] def Op.lowered (i : Fin n) : {α : Type} → Op n α → Nat
  | _, .session j op => if j = i then op.lowered else 0
  | _, _ => 0

/-- The kernel takes over a send of slot `i`. -/
@[simp] def Op.sent (i : Fin n) : {α : Type} → Op n α → α → Nat
  | _, .wsaSend j, true => share j i
  | _, _, _ => 0

/-- The kernel hands one back. -/
@[simp] def Op.received (i : Fin n) : {α : Type} → Op n α → α → Nat
  | _, .completion, c => if c.isSend then share c.slot i else 0
  | _, _, _ => 0

/-- The operation pushes to `sendBuf` of slot `i`. -/
def Op.pushed (i : Fin n) : {α : Type} → Op n α → Bool
  | _, .session j (.pushSend _) => j = i
  | _, _ => false

/-- The operation sets `isReleased` of slot `i`. -/
def Op.released (i : Fin n) : {α : Type} → Op n α → Bool
  | _, .session j .casReleased => j = i
  | _, _ => false

/-- The places at which the session of slot `i` ends, or goes on after a
`WSASend` that failed. -/
def Frame.ends (i : Fin n) : Frame n → Bool
  | .disConnect .cas j => j = i
  | .releaseSession _ j => j = i
  | .postSend .undo j => j = i
  | _ => false

/-! ## The places that send nothing -/

@[simp] def SessionOp.mute : {α : Type} → SessionOp α → Bool
  | _, .casSendFlag => false
  | _, .clearSendFlag => false
  | _, .storeSendCount _ => false
  | _, .pushSend _ => false
  | _, .popSend => false
  | _, .pushComplete _ => false
  | _, .popComplete => false
  | _, _ => true

/-- The operation has nothing to do with what is sent. -/
@[simp] def Op.mute : {α : Type} → Op n α → Bool
  | _, .session _ op => op.mute
  | _, .wsaSend _ => false
  | _, .completion => false
  | _, _ => true

/-- A place that sends nothing, nor drops what is to be sent, and from which a
thread does not come to one that does but through `ReleaseSession`. -/
@[simp] def Frame.mute : Frame n → Bool
  | .releaseSession _ _ => false
  | .sessionLock .releasedAgain _ _ _ => false
  | .sendPacket _ _ _ => false
  | .postSend _ _ => false
  | .sendComplete _ _ => false
  | .workerThread .idle => false
  | _ => true

theorem Frame.mute_act {f : Frame n} (mute : f.mute = true) : f.act.op.mute = true := by
  cases f with
  | lock id use =>
      rcases Frame.act_lock_cases id use with ⟨j, -, act⟩ | act
      · rw [act]
        rfl
      · rw [act]
        rfl
  | releaseSession pc j => cases mute
  | sendPacket pc j p => cases mute
  | postSend pc j => cases mute
  | sendComplete pc j => cases mute
  | acceptThread pc => cases pc <;> rfl
  | postRecv pc j who => cases pc <;> rfl
  | disConnect pc j => cases pc <;> rfl
  | sessionLock pc j id use => cases pc <;> rfl
  | recvComplete pc j => cases pc <;> rfl
  | workerThread pc =>
      cases pc with
      | idle => cases mute
      | _ => rfl
  | _ => rfl

theorem Op.lowered_of_mute {i : Fin n} {α : Type} {op : Op n α} (mute : op.mute = true) :
    op.lowered i = 0 := by
  cases op with
  | session j op =>
      cases op with
      | clearSendFlag => cases mute
      | _ => exact ite_self 0
  | _ => rfl

theorem Op.pushed_of_mute {i : Fin n} {α : Type} {op : Op n α} (mute : op.mute = true) :
    op.pushed i = false := by
  cases op with
  | session j op =>
      cases op with
      | pushSend p => cases mute
      | _ => rfl
  | _ => rfl

theorem Op.released_of_aside {i : Fin n} {α : Type} {op : Op n α} (aside : op.aside = true) :
    op.released i = false := by
  cases op with
  | session j op =>
      cases op with
      | casReleased => cases aside
      | _ => rfl
  | _ => rfl

theorem Op.weights_of_mute (i : Fin n) {α : Type} {op : Op n α} (r : α) (mute : op.mute = true) :
    op.raised i r = 0 ∧ op.lowered i = 0 ∧ op.sent i r = 0 ∧ op.received i r = 0 := by
  cases op with
  | session j op =>
      refine ⟨?_, lowered_of_mute mute, rfl, rfl⟩
      cases op with
      | casSendFlag => cases mute
      | _ => exact ite_self 0
  | wsaSend j => cases mute
  | completion => cases mute
  | _ => exact ⟨rfl, rfl, rfl, rfl⟩

/-- The flag goes from place to place, to the kernel and back. -/
theorem raised_next (i : Fin n) (f : Frame n) (r : f.act.α) (stays : f.ends i = false) :
    ((f.act.next r).map fun g => g.drains i + g.clears i).sum + f.act.op.lowered i +
        f.act.op.sent i r =
      f.drains i + f.clears i + f.act.op.raised i r + f.act.op.received i r := by
  have goes := f.goes r
  generalize f.act.next r = fs at goes ⊢
  cases goes with
  | lock id use r j named =>
      clear stays
      revert r
      rw [Frame.act_lock_of_lt use named]
      simp
  | lockStray id use r outside =>
      clear stays
      revert r
      rw [Frame.act_lock_of_le use outside]
      simp
  | initSendFlag j index =>
      have other : j ≠ i := of_decide_eq_false stays
      simp [share, other]
  | sendUndone j | sendUndoneLast j =>
      have other : j ≠ i := of_decide_eq_false stays
      simp [share, other]
  | setRefResponse p targets => simp [Function.comp_def]
  | _ => simp [share]

theorem SessionOp.flagged_exec {α : Type} (op : SessionOp α) (s : Session)
    (owned : op.lowered ≤ s.flagged) :
    (op.exec s).2.flagged + op.lowered = s.flagged + op.raised (op.exec s).1 := by
  cases op with
  | casSendFlag =>
      simp only [exec, Session.flagged]
      cases s.isSendFlag <;> rfl
  | clearSendFlag =>
      have one : s.flagged ≤ 1 := by
        unfold Session.flagged
        split <;> decide
      exact Nat.le_antisymm owned one
  | _ => rfl

namespace SlotStep

variable {i : Fin n} {s s' : Session} {α : Type} {op : Op n α} {r : α}

theorem flagged (step : SlotStep i s op r s') (owned : op.lowered i ≤ s.flagged) :
    s'.flagged + op.lowered i = s.flagged + op.raised i r := by
  cases step with
  | away away => cases op <;> simp_all [Op.touches]
  | session op =>
      simp only [Op.lowered, Op.raised, if_true] at owned ⊢
      exact op.flagged_exec s owned
  | _ => rfl

theorem sendOut (step : SlotStep i s op r s') :
    s'.sendOut + op.received i r = s.sendOut + op.sent i r := by
  cases step with
  | away away =>
      cases op with
      | wsaSend j => cases r <;> simp_all [Op.touches, share]
      | _ => simp_all [Op.touches, share]
  | session op => cases op <;> rfl
  | sent transferred out =>
      simp only [Op.received, Op.sent, share_self, if_true]
      omega
  | _ => simp [share_self]

/-- Only a push puts something in an empty `sendBuf`. -/
theorem sendBuf (step : SlotStep i s op r s') (pushes : op.pushed i = false)
    (empty : s.sendBuf = []) : s'.sendBuf = [] := by
  cases step with
  | session op =>
      cases op with
      | pushSend p => simp [Op.pushed] at pushes
      | popSend => exact congrArg List.tail empty
      | _ => exact empty
  | _ => exact empty

theorem isReleased (step : SlotStep i s op r s') (stays : op.released i = false)
    (live : s.isReleased = false) : s'.isReleased = false := by
  cases step with
  | session op =>
      cases op with
      | casReleased => simp [Op.released] at stays
      | clearReleased => rfl
      | _ => exact live
  | _ => exact live

end SlotStep

/-! ## Who looks next -/

/-- The places at which a thread may stop looking. -/
def Frame.decides (i : Fin n) : Frame n → Bool
  | .postSend .cas j => j = i
  | .postSend (.pop 0) j => j = i
  | .sendPacket .check j _ => j = i
  | .sendComplete .check j => j = i
  | _ => false

/-- At a place that does not decide, whoever would have looked still will, or has left
it to the kernel. -/
theorem waits_next (i : Fin n) (f : Frame n) (r : f.act.α) (stays : f.ends i = false)
    (undecided : f.decides i = false) :
    f.drains i + f.looks i + f.act.op.received i r ≤
      ((f.act.next r).map fun g => g.drains i + g.looks i).sum + f.act.op.sent i r := by
  have goes := f.goes r
  generalize f.act.next r = fs at goes ⊢
  cases goes with
  | lock id use r j named =>
      clear stays undecided
      revert r
      rw [Frame.act_lock_of_lt use named]
      simp
  | lockStray id use r outside =>
      clear stays undecided
      revert r
      rw [Frame.act_lock_of_le use outside]
      simp
  | sendReleased j p | sendLive j p =>
      have other : j ≠ i := of_decide_eq_false undecided
      simp [share, other]
  | flagWon j | flagLost j | popSendNone j | sentReleased j | sentLive j =>
      have other : j ≠ i := of_decide_eq_false undecided
      simp [share, other]
  | sendUndone j | sendUndoneLast j =>
      have other : j ≠ i := of_decide_eq_false stays
      simp [share, other]
  | _ => simp

theorem eq_of_pushed {i : Fin n} {f : Frame n} (pushes : f.act.op.pushed i = true) :
    ∃ p, f = .sendPacket .push i p := by
  by_cases mute : f.mute = true
  · rw [Op.pushed_of_mute (Frame.mute_act mute)] at pushes
    cases pushes
  cases f with
  | sendPacket pc j p =>
      cases pc with
      | push =>
          obtain rfl : j = i := of_decide_eq_true pushes
          exact ⟨p, rfl⟩
      | _ => cases pushes
  | releaseSession pc j => cases pc <;> cases pushes
  | sessionLock pc j id use => cases pc <;> cases pushes
  | postSend pc j => cases pc <;> cases pushes
  | sendComplete pc j => cases pc <;> cases pushes
  | workerThread pc => cases pc <;> cases pushes
  | _ => exact absurd rfl mute

/-- A thread gives back a flag that it holds. -/
theorem lowered_le {i : Fin n} {f : Frame n} (stays : f.ends i = false) :
    f.act.op.lowered i ≤ f.drains i + f.clears i := by
  by_cases mute : f.mute = true
  · rw [Op.lowered_of_mute (Frame.mute_act mute)]
    exact Nat.zero_le _
  cases f with
  | releaseSession pc j =>
      have other : j ≠ i := of_decide_eq_false stays
      cases pc <;> simp [other]
  | sessionLock pc j id use => cases pc <;> simp
  | sendPacket pc j p => cases pc <;> simp
  | postSend pc j => cases pc <;> simp [share]
  | sendComplete pc j => cases pc <;> simp [share]
  | workerThread pc => cases pc <;> simp
  | _ => exact absurd rfl mute

theorem released_of_stays {i : Fin n} {f : Frame n} (stays : f.ends i = false) :
    f.act.op.released i = false := by
  by_cases outside : f.outside = true
  · exact Op.released_of_aside (Frame.aside_of_outside outside)
  cases f with
  | disConnect pc j => cases pc <;> exact stays
  | acceptThread pc => cases pc <;> rfl
  | releaseSession pc j => cases pc <;> rfl
  | undefined => rfl
  | _ => exact absurd rfl outside

/-! ## Runs -/

/-- The session of slot `i` stays live, and its `WSASend` calls are accepted. -/
def StaysLive (i : Fin n) (s : Conf (Frame n) (Shared n)) (t : Nat) : Prop :=
  (s.top t).any (Frame.ends i) = false

/-- A place that tries for the flag of slot `i`. -/
def Frame.swaps (i : Fin n) : Frame n → Bool
  | .postSend .cas j => j = i
  | _ => false

/-- Nobody tries for the flag between the holder's look at an empty `sendBuf`
and its `clear`, with a packet waiting by then and nobody else to look. -/
def Woken (i : Fin n) (s : Conf (Frame n) (Shared n)) (t : Nat) : Prop :=
  (s.top t).any (Frame.swaps i) = true → (s.mem.slot i).sendBuf ≠ [] →
    s.tally (Frame.clears i) = 0 ∨ 1 < s.tally (Frame.looks i)

instance (i : Fin n) (s : Conf (Frame n) (Shared n)) (t : Nat) : Decidable (StaysLive i s t) :=
  inferInstanceAs (Decidable (_ = _))

instance (i : Fin n) (s : Conf (Frame n) (Shared n)) (t : Nat) : Decidable (Woken i s t) :=
  inferInstanceAs (Decidable (_ → _ → _ ∨ _))

/-- The session of slot `i` has nothing to send, and nobody is sending. -/
structure Fresh (i : Fin n) (s : Conf (Frame n) (Shared n)) : Prop where
  live : (s.mem.slot i).isReleased = false
  flag : (s.mem.slot i).isSendFlag = false
  sendBuf : (s.mem.slot i).sendBuf = []
  sendOut : (s.mem.slot i).sendOut = 0
  nobody : s.tally (Frame.sends i) = 0

/-- The flag of a live session is set as long as somebody holds it. -/
structure Flagged (i : Fin n) (s : Conf (Frame n) (Shared n)) : Prop where
  live : (s.mem.slot i).isReleased = false
  flag : (s.mem.slot i).flagged =
    s.tally (fun f => f.drains i + f.clears i) + (s.mem.slot i).sendOut

/-- A waiting packet has somebody who will look. -/
structure Attended (i : Fin n) (s : Conf (Frame n) (Shared n)) : Prop where
  live : (s.mem.slot i).isReleased = false
  flag : (s.mem.slot i).flagged =
    s.tally (fun f => f.drains i + f.clears i) + (s.mem.slot i).sendOut
  looked : (s.mem.slot i).sendBuf ≠ [] →
    0 < s.tally (fun f => f.drains i + f.looks i) + (s.mem.slot i).sendOut

theorem Attended.flagged {i : Fin n} {s : Conf (Frame n) (Shared n)} (inv : Attended i s) :
    Flagged i s :=
  ⟨inv.live, inv.flag⟩

theorem Fresh.flagged {i : Fin n} {s : Conf (Frame n) (Shared n)} (fresh : Fresh i s) :
    Flagged i s := by
  have none : s.tally (fun f => f.drains i + f.clears i) = 0 := by
    have le : s.tally (fun f => f.drains i + f.clears i) ≤ s.tally (Frame.sends i) :=
      Conf.tally_le fun f => Nat.le_add_right ..
    exact Nat.le_zero.mp (fresh.nobody ▸ le)
  refine ⟨fresh.live, ?_⟩
  rw [none, fresh.sendOut, Session.flagged, fresh.flag]
  rfl

theorem Fresh.attended {i : Fin n} {s : Conf (Frame n) (Shared n)} (fresh : Fresh i s) :
    Attended i s :=
  ⟨fresh.flagged.live, fresh.flagged.flag, fun waiting => absurd fresh.sendBuf waiting⟩

theorem StaysLive.ends {i : Fin n} {s : Conf (Frame n) (Shared n)} {t : Nat} {f : Frame n}
    {rest : List (Frame n)} (stays : StaysLive i s t) (here : s.threads[t]? = some (f :: rest)) :
    f.ends i = false := by
  have top : s.top t = some f := Conf.top_of_here here
  unfold StaysLive at stays
  rw [top] at stays
  exact stays

section Step

variable {i : Fin n} {s : Conf (Frame n) (Shared n)} {t : Nat} {c : Choice n} {f : Frame n}
  {rest : List (Frame n)}

/-- Who finds the flag taken leaves it to its holder, who looks again unless it is about to
clear the flag; who takes it looks itself. -/
theorem Attended.decide_cas (inv : Attended i s) (woken : Woken i s t)
    (here : s.threads[t]? = some (.postSend .cas i :: rest))
    {r : (Frame.postSend .cas i : Frame n).act.α} {m : Shared n}
    (done : exec (Frame.postSend .cas i : Frame n).act.op c s.mem = some (r, m))
    (waiting : (m.slot i).sendBuf ≠ []) :
    0 < (Conf.mk m (s.threads.set t ((Frame.postSend .cas i).act.next r ++ rest))).tally
      (fun f => f.drains i + f.looks i) + (m.slot i).sendOut := by
  have tally := Machine.tally_step (fun f => f.drains i + f.looks i) here
    ((Frame.postSend .cas i).act.next r) m
  have own := Conf.le_tally (w := fun f => f.drains i + f.looks i)
    (List.mem_of_getElem? here) List.mem_cons_self
  cases taken : (s.mem.slot i).isSendFlag with
  | false =>
      obtain rfl : r = true := by
        cases done
        exact congrArg not taken
      have next : (((Frame.postSend .cas i).act.next true).map
          fun f => f.drains i + f.looks i).sum = 1 := by
        simp [PostSend.loop, share_self]
      omega
  | true =>
      have kept : (m.slot i).sendBuf = (s.mem.slot i).sendBuf ∧
          (m.slot i).sendOut = (s.mem.slot i).sendOut := by
        cases done
        rw [s.mem.slot_setSlot_self]
        exact ⟨rfl, rfl⟩
      obtain rfl : r = false := by
        cases done
        exact congrArg not taken
      have top : s.top t = some (.postSend .cas i) := Conf.top_of_here here
      have holder := inv.flag
      rw [Session.flagged, taken, if_pos rfl, Conf.tally_add] at holder
      have others := woken (by rw [top]; exact decide_eq_true rfl) (kept.1 ▸ waiting)
      have mine : (Frame.postSend .cas i : Frame n).looks i = 1 := share_self i
      have looks := Conf.le_tally (w := Frame.looks i) (List.mem_of_getElem? here)
        List.mem_cons_self
      have next : (((Frame.postSend .cas i).act.next false).map
          fun f => f.drains i + f.looks i).sum = 0 := rfl
      have drains : (Frame.postSend .cas i : Frame n).drains i = 0 := rfl
      rw [next, Conf.tally_add, Conf.tally_add] at tally
      rw [Conf.tally_add]
      omega

/-- Where a thread decides, it goes on looking or leaves it to another. -/
theorem Attended.decide (inv : Attended i s) (woken : Woken i s t)
    (here : s.threads[t]? = some (f :: rest)) (decides : f.decides i = true)
    {r : f.act.α} {m : Shared n} (done : exec f.act.op c s.mem = some (r, m))
    (waiting : (m.slot i).sendBuf ≠ []) :
    0 < (Conf.mk m (s.threads.set t (f.act.next r ++ rest))).tally
      (fun f => f.drains i + f.looks i) + (m.slot i).sendOut := by
  have tally := Machine.tally_step (fun f => f.drains i + f.looks i) here (f.act.next r) m
  have own := Conf.le_tally (w := fun f => f.drains i + f.looks i)
    (List.mem_of_getElem? here) List.mem_cons_self
  cases f with
  | postSend pc j =>
      cases pc with
      | cas =>
          obtain rfl : j = i := of_decide_eq_true decides
          exact inv.decide_cas woken here done waiting
      | pop k =>
          cases k with
          | zero =>
              obtain rfl : j = i := of_decide_eq_true decides
              cases queue : (s.mem.slot j).sendBuf with
              | nil =>
                  have left : (m.slot j).sendBuf = (s.mem.slot j).sendBuf.tail := by
                    cases done
                    rw [s.mem.slot_setSlot_self]
                    rfl
                  rw [queue] at left
                  exact absurd left waiting
              | cons p queue' =>
                  obtain rfl : r = some p := by
                    cases done
                    exact congrArg List.head? queue
                  have next : (((Frame.postSend (.pop 0) j).act.next (some p)).map
                      fun f => f.drains j + f.looks j).sum = 1 := by simp [share_self]
                  omega
          | succ k => cases decides
      | _ => cases decides
  | sendPacket pc j p =>
      cases pc with
      | check =>
          obtain rfl : j = i := of_decide_eq_true decides
          obtain rfl : r = false := by
            cases done
            exact inv.live
          have next : (((Frame.sendPacket .check j p).act.next false).map
              fun f => f.drains j + f.looks j).sum = 1 := by simp [share_self]
          omega
      | _ => cases decides
  | sendComplete pc j =>
      cases pc with
      | check =>
          obtain rfl : j = i := of_decide_eq_true decides
          obtain rfl : r = false := by
            cases done
            exact inv.live
          have next : (((Frame.sendComplete .check j).act.next false).map
              fun f => f.drains j + f.looks j).sum = 1 := by simp [share_self]
          omega
      | _ => cases decides
  | _ => cases decides

theorem Flagged.next (inv : Flagged i s) (here : s.threads[t]? = some (f :: rest))
    (stays : f.ends i = false) {r : f.act.α} {m : Shared n}
    (done : exec f.act.op c s.mem = some (r, m)) :
    Flagged i ⟨m, s.threads.set t (f.act.next r ++ rest)⟩ := by
  have slot := slot_exec i done
  have sendOut := slot.sendOut
  refine ⟨slot.isReleased (released_of_stays stays) inv.live, ?_⟩
  have frames := raised_next i f r stays
  have tally := Machine.tally_step (fun f => f.drains i + f.clears i) here (f.act.next r) m
  have before := inv.flag
  have owned := lowered_le stays
  have held := Conf.le_tally (w := fun f => f.drains i + f.clears i)
    (List.mem_of_getElem? here) List.mem_cons_self
  have flagged := slot.flagged (by omega)
  dsimp only at tally ⊢
  omega

theorem Attended.step {s' : Conf (Frame n) (Shared n)} (inv : Attended i s)
    (stays : StaysLive i s t) (woken : Woken i s t)
    (step : (iocp n).step s t c = some s') : Attended i s' := by
  obtain ⟨f, rest, r, m, here, done, rfl⟩ := iocp_step_cases step
  have stays := stays.ends here
  have slot := slot_exec i done
  have sendOut := slot.sendOut
  have flagged := inv.flagged.next here stays done
  refine ⟨flagged.live, flagged.flag, ?_⟩
  intro waiting
  cases decides : f.decides i with
  | true => exact inv.decide woken here decides done waiting
  | false =>
      have frames := waits_next i f r stays decides
      have tally := Machine.tally_step (fun f => f.drains i + f.looks i) here (f.act.next r) m
      have own := Conf.le_tally (w := fun f => f.drains i + f.looks i)
        (List.mem_of_getElem? here) List.mem_cons_self
      dsimp only at tally own waiting ⊢
      cases pushes : f.act.op.pushed i with
      | true =>
          obtain ⟨p, rfl⟩ := eq_of_pushed pushes
          have next : (((Frame.sendPacket .push i p).act.next r).map
              fun f => f.drains i + f.looks i).sum = 1 := by simp [share_self]
          omega
      | false =>
          have waited : (s.mem.slot i).sendBuf ≠ [] :=
            fun empty => waiting (slot.sendBuf pushes empty)
          have looked := inv.looked waited
          omega

end Step

/-- **No lost wake-up**, for runs in which nobody tries for the flag at the
wrong moment: when nobody is sending, nothing is waiting. -/
theorem no_lost_wakeup {i : Fin n} {s₀ s : Conf (Frame n) (Shared n)} (fresh : Fresh i s₀)
    (run : (iocp n).Steps (fun s t _ => StaysLive i s t ∧ Woken i s t) s₀ s)
    (nobody : s.tally (Frame.sends i) = 0) (nothing : (s.mem.slot i).sendOut = 0) :
    (s.mem.slot i).sendBuf = [] := by
  have inv : Attended i s := run.invariant fresh.attended
    fun _ _ _ _ before admitted step => before.step admitted.1 admitted.2 step
  have none : s.tally (fun f => f.drains i + f.looks i) ≤ s.tally (Frame.sends i) := by
    apply Conf.tally_le
    intro f
    unfold Frame.sends
    omega
  by_contra waiting
  have looked := inv.looked waiting
  omega

/-- A packet is sent and the send completes. -/
def sendAndComplete : List (Nat × Choice 1) :=
  (1, .call (.broadcast [firstID])) :: List.replicate 16 (1, .none) ++
    (1, .outcome true) :: List.replicate 2 (1, .none) ++
    (2, .completed ⟨firstSlot, true, 1⟩) :: List.replicate 9 (2, .none)

/-- What the first session has to send, and how many are at it. -/
def sending (s : Conf (Frame 1) (Shared 1)) : (Bool × Bool) × List PacketPtr × Nat × Nat :=
  let first := s.mem.slot firstSlot
  ((first.isReleased, first.isSendFlag), first.sendBuf, first.sendOut,
    s.tally (Frame.sends firstSlot))

theorem steps_of_sending (guard : Conf (Frame 1) (Shared 1) → Nat → Choice 1 → Prop)
    [∀ s t c, Decidable (guard s t c)] (steps : List (Nat × Choice 1))
    (waiting : List PacketPtr)
    (reached : (((iocp 1).run acceptOne (Shared.boot 1 0 [.caller, .worker])).bind fun s₀ =>
      ((iocp 1).runIf guard steps s₀).map fun s => (sending s₀, sending s)) =
        some (((false, false), [], 0, 0), (false, false), waiting, 0, 0)) :
    ∃ s₀ s, (iocp 1).run acceptOne (Shared.boot 1 0 [.caller, .worker]) = some s₀ ∧
      Fresh 0 s₀ ∧ (iocp 1).Steps guard s₀ s ∧ s.tally (Frame.sends 0) = 0 ∧
      (s.mem.slot 0).sendOut = 0 ∧ (s.mem.slot 0).sendBuf = waiting := by
  obtain ⟨s₀, accepted, rest⟩ := Option.bind_eq_some_iff.mp reached
  obtain ⟨s, run, found⟩ := Option.map_eq_some_iff.mp rest
  simp only [sending, Prod.mk.injEq] at found
  obtain ⟨⟨⟨live, flag⟩, sendBuf, sendOut, nobody⟩, -, waits, nothing, none⟩ := found
  exact ⟨s₀, s, accepted, ⟨live, flag, sendBuf, sendOut, nobody⟩, .of_runIf run, none, nothing,
    waits⟩

/-- After the one send of a session has completed nothing is waiting in it. -/
theorem no_lost_wakeup_one :
    ∃ s₀ s, Fresh 0 s₀ ∧
      (iocp 1).Steps (fun s t _ => StaysLive 0 s t ∧ Woken 0 s t) s₀ s ∧
      (s.mem.slot 0).sendBuf = [] := by
  obtain ⟨s₀, s, -, fresh, run, nobody, nothing, -⟩ :=
    steps_of_sending (fun s t _ => StaysLive 0 s t ∧ Woken 0 s t)
      (sendAndComplete ++ List.replicate 2 (2, .none)) [] (by decide +kernel)
  exact ⟨s₀, s, fresh, run, no_lost_wakeup fresh run nobody nothing⟩

/-- The second packet comes when the worker that completes the first send has
just found `sendBuf` empty: it stays there. -/
theorem wakeup_lost :
    ∃ s₀ s, (iocp 1).run acceptOne (Shared.boot 1 0 [.caller, .worker]) = some s₀ ∧
      Fresh 0 s₀ ∧ (iocp 1).Steps (fun s t _ => StaysLive 0 s t) s₀ s ∧
      s.tally (Frame.sends 0) = 0 ∧ (s.mem.slot 0).sendOut = 0 ∧
      (s.mem.slot 0).sendBuf ≠ [] := by
  obtain ⟨s₀, s, accepted, fresh, run, nobody, nothing, waiting⟩ :=
    steps_of_sending (fun s t _ => StaysLive 0 s t)
      (sendAndComplete ++ (1, .call (.broadcast [firstID])) ::
        List.replicate 13 (1, .none) ++ List.replicate 2 (2, .none)) [0] (by decide +kernel)
  exact ⟨s₀, s, accepted, fresh, run, nobody, nothing, waiting ▸ List.cons_ne_nil 0 []⟩

end ChattingServer
