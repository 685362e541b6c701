import ChattingServer.SendWakeup

/-!
# The order of what is sent

A packet goes from `sendBuf` into the buffers of a `PostSend` and into
`completeSendBuf`, with the whole batch to `WSASend`, and is dropped by the
`SendComplete` of that batch.  `Sent` records each of these as it happens.
Whoever holds `isSendFlag` is somewhere on that way, alone, and `Pipeline` says
for each place what lies in the two queues.
-/

namespace ChattingServer

variable {n : Nat}

/-! ## The record -/

/-- What has been sent, oldest first. -/
structure Sent where
  /-- The packets pushed to `sendBuf`. -/
  pushed : List PacketPtr
  /-- `wBuf` of the last `PostSend` of each thread, by packet. -/
  wBuf : Nat → List PacketPtr
  /-- The batches handed to `WSASend`. -/
  batches : List (List PacketPtr)
  /-- How many of them the kernel has completed. -/
  completions : Nat
  /-- The packets `SendComplete` has called `SubRef` on. -/
  subRefs : List PacketPtr

def Sent.nothing : Sent where
  pushed := []
  wBuf := fun _ => []
  batches := []
  completions := 0
  subRefs := []

/-- A `SendComplete` of slot `i` that holds the flag. -/
def Frame.completes (i : Fin n) : Frame n → Bool
  | .sendComplete .check _ => false
  | .sendComplete _ j => j = i
  | _ => false

theorem completes_eq_false {i : Fin n} {f : Frame n} (idle : f.drains i + f.clears i = 0) :
    f.completes i = false := by
  cases f with
  | sendComplete pc j =>
      cases pc with
      | check => rfl
      | _ =>
          apply decide_eq_false
          intro same
          simp [share, same] at idle
  | _ => rfl

/-- What a step of thread `t` adds to the record of slot `i`. -/
def Sent.note (i : Fin n) (t : Nat) (f : Frame n) (rest : List (Frame n)) (r : f.act.α)
    (h : Sent) : Sent :=
  match f, r with
  | .sendPacket .push j p, _ => if j = i then { h with pushed := h.pushed ++ [p] } else h
  | .postSend .cas j, true =>
      if j = i then { h with wBuf := Function.update h.wBuf t [] } else h
  | .postSend (.pop _) j, some p =>
      if j = i then { h with wBuf := Function.update h.wBuf t (h.wBuf t ++ [p]) } else h
  | .postSend .issue j, true =>
      if j = i then { h with batches := h.batches ++ [h.wBuf t] } else h
  | .workerThread .idle, c =>
      if c.isSend && c.slot = i then { h with completions := h.completions + 1 } else h
  | .subRef p, _ =>
      if rest.head?.any (Frame.completes i) then { h with subRefs := h.subRefs ++ [p] } else h
  | _, _ => h

/-! ## Where the packets are -/

/-- The queues with a `PostSend` at a place, `wBuf` the packets it has popped. -/
def PostSend.At (s : Session) (wBuf : List PacketPtr) : PostSend → Prop
  | .cas => False
  | .pop pktCount => s.completeSendBuf = wBuf ∧ wBuf.length = pktCount ∧ pktCount < 100
  | .move p pktCount =>
      s.completeSendBuf ++ [p] = wBuf ∧ s.completeSendBuf.length = pktCount ∧ pktCount < 100
  | .clear => s.completeSendBuf = [] ∧ wBuf = []
  | .count pktCount =>
      s.completeSendBuf = wBuf ∧ wBuf.length = pktCount ∧ 0 < pktCount ∧ pktCount ≤ 100
  | _ =>
      s.completeSendBuf = wBuf ∧ s.sendCount = wBuf.length ∧ 0 < wBuf.length ∧
        wBuf.length ≤ 100

/-- The batch that is left with a `SendComplete` at a place. -/
def SendComplete.At (s : Session) : SendComplete → Prop
  | .count => s.sendCount = s.completeSendBuf.length
  | .zero cnt => cnt = s.completeSendBuf.length
  | .pop k => s.completeSendBuf.length = k + 1
  | .clear => s.completeSendBuf = []
  | .check => False

theorem PostSend.At.holds {s : Session} {wBuf : List PacketPtr} {pc : PostSend}
    (place : pc.At s wBuf) (i : Fin n) :
    (Frame.postSend pc i).drains i + (Frame.postSend pc i).clears i = 1 := by
  cases pc <;> first | exact place.elim | simp [share]

theorem SendComplete.At.holds {s : Session} {pc : SendComplete} (place : pc.At s) (i : Fin n) :
    (Frame.sendComplete pc i).drains i + (Frame.sendComplete pc i).clears i = 1 := by
  cases pc <;> first | exact place.elim | simp [share]

theorem SendComplete.At.completes {s : Session} {pc : SendComplete} (place : pc.At s)
    (i : Fin n) : (Frame.sendComplete pc i).completes i = true := by
  cases pc with
  | check => exact place.elim
  | _ => exact decide_eq_true rfl

/-- What may run above a `SendComplete` of slot `i`, with the packets it has
still to drop for it. -/
inductive Above (i : Fin n) : List (Frame n) → List PacketPtr → Prop
  | nothing : Above i [] []
  | subRef (p : PacketPtr) : Above i [.subRef p] [p]
  | free (p : PacketPtr) : Above i [.free p] []
  | disConnect : Above i [.disConnect .cas i] []

/-- Where the packets of slot `i` are: nobody holds the flag; a `PostSend` does;
the kernel does; a `SendComplete` does. -/
inductive Pipeline (i : Fin n) (s : Conf (Frame n) (Shared n)) (h : Sent) : Prop
  | idle (flag : (s.mem.slot i).isSendFlag = false)
      (pushed : h.pushed = h.batches.flatten ++ (s.mem.slot i).sendBuf)
      (complete : (s.mem.slot i).completeSendBuf = [])
      (completions : h.completions = h.batches.length)
      (subRefs : h.subRefs = h.batches.flatten)
  | posting (t : Nat) (pc : PostSend) (rest : List (Frame n))
      (here : s.threads[t]? = some (.postSend pc i :: rest))
      (place : pc.At (s.mem.slot i) (h.wBuf t))
      (pushed : h.pushed = h.batches.flatten ++ h.wBuf t ++ (s.mem.slot i).sendBuf)
      (completions : h.completions = h.batches.length)
      (subRefs : h.subRefs = h.batches.flatten)
  | outstanding (out : 0 < (s.mem.slot i).sendOut) (before : List (List PacketPtr))
      (batches : h.batches = before ++ [(s.mem.slot i).completeSendBuf])
      (count : (s.mem.slot i).sendCount = (s.mem.slot i).completeSendBuf.length)
      (pushed : h.pushed = h.batches.flatten ++ (s.mem.slot i).sendBuf)
      (completions : h.completions = before.length)
      (subRefs : h.subRefs = before.flatten)
  | completing (t : Nat) (above : List (Frame n)) (drops : List PacketPtr) (pc : SendComplete)
      (rest : List (Frame n))
      (here : s.threads[t]? = some (above ++ .sendComplete pc i :: rest))
      (top : Above i above drops) (place : pc.At (s.mem.slot i))
      (pushed : h.pushed = h.batches.flatten ++ (s.mem.slot i).sendBuf)
      (completions : h.completions = h.batches.length)
      (subRefs : h.subRefs ++ drops ++ (s.mem.slot i).completeSendBuf = h.batches.flatten)

/-! ## Steps of others -/

/-- The operation changes what only the holder of the flag of slot `i` may. -/
def Op.pipes (i : Fin n) : {α : Type} → Op n α → Bool
  | _, .session j .popSend => j = i
  | _, .session j (.pushComplete _) => j = i
  | _, .session j .popComplete => j = i
  | _, .session j (.storeSendCount _) => j = i
  | _, _ => false

/-- A push to `sendBuf` of slot `i` finds room. -/
def PushFits (i : Fin n) (s : Conf (Frame n) (Shared n)) (t : Nat) : Prop :=
  (s.top t).any (fun f => f.act.op.pushed i) = true → (s.mem.slot i).sendBuf.length < sendCapacity

instance (i : Fin n) (s : Conf (Frame n) (Shared n)) (t : Nat) : Decidable (PushFits i s t) :=
  inferInstanceAs (Decidable (_ → _))

theorem Op.pipes_of_mute {i : Fin n} {α : Type} {op : Op n α} (mute : op.mute = true) :
    op.pipes i = false := by
  cases op with
  | session j op => cases op <;> first | rfl | cases mute
  | _ => rfl

theorem pipes_eq_false {i : Fin n} {f : Frame n} (idle : f.drains i + f.clears i = 0)
    (stays : f.ends i = false) : f.act.op.pipes i = false := by
  by_cases mute : f.mute = true
  · exact Op.pipes_of_mute (Frame.mute_act mute)
  cases f with
  | releaseSession pc j => cases pc <;> first | rfl | exact stays
  | postSend pc j =>
      cases pc with
      | cas => rfl
      | clear => rfl
      | _ =>
          have other : j ≠ i := by
            intro same
            simp [share, same] at idle
          simp [Op.pipes, other]
  | sendComplete pc j =>
      cases pc with
      | check => rfl
      | _ =>
          have other : j ≠ i := by
            intro same
            simp [share, same] at idle
          simp [Op.pipes, other]
  | sessionLock pc j id use => cases pc <;> rfl
  | sendPacket pc j p => cases pc <;> rfl
  | workerThread pc => cases pc <;> rfl
  | _ => exact absurd rfl mute

theorem Session.flagged_le (s : Session) : s.flagged ≤ 1 := by
  unfold flagged
  split <;> decide

theorem Session.flagged_eq_zero_iff {s : Session} : s.flagged = 0 ↔ s.isSendFlag = false := by
  unfold flagged
  cases s.isSendFlag <;> decide

namespace SlotStep

variable {i : Fin n} {s s' : Session} {α : Type} {op : Op n α} {r : α}

theorem received_le (step : SlotStep i s op r s') : op.received i r ≤ s.sendOut := by
  cases step with
  | away away =>
      cases op with
      | completion => simp_all [Op.touches, share]
      | _ => exact Nat.zero_le _
  | sent transferred out =>
      simp only [Op.received, share_self, if_true]
      exact out
  | _ => simp

theorem raised_add_flagged (step : SlotStep i s op r s') : op.raised i r + s.flagged ≤ 1 := by
  have one := s.flagged_le
  cases step with
  | away away => cases op <;> simp_all [Op.touches]
  | session op =>
      cases op with
      | casSendFlag =>
          simp only [Op.raised, SessionOp.exec, if_true, Session.flagged]
          cases s.isSendFlag <;> decide
      | _ => simpa using one
  | _ => simpa using one

/-- Who neither pushes nor holds the flag leaves the two queues and `sendCount`
as they are. -/
theorem quiet (step : SlotStep i s op r s') (pushes : op.pushed i = false)
    (pipes : op.pipes i = false) :
    s'.sendBuf = s.sendBuf ∧ s'.completeSendBuf = s.completeSendBuf ∧
      s'.sendCount = s.sendCount := by
  cases step with
  | session op =>
      cases op with
      | pushSend p => simp [Op.pushed] at pushes
      | popSend => simp [Op.pipes] at pipes
      | pushComplete p => simp [Op.pipes] at pipes
      | popComplete => simp [Op.pipes] at pipes
      | storeSendCount count => simp [Op.pipes] at pipes
      | _ => exact ⟨rfl, rfl, rfl⟩
  | _ => exact ⟨rfl, rfl, rfl⟩

end SlotStep

/-- A step that neither pushes nor has to do with the flag is not recorded. -/
theorem Sent.note_eq_self {i : Fin n} {t : Nat} {f : Frame n} {rest : List (Frame n)}
    {r : f.act.α} {h : Sent} (pushes : f.act.op.pushed i = false)
    (idle : f.drains i + f.clears i = 0) (raised : f.act.op.raised i r = 0)
    (received : f.act.op.received i r = 0)
    (below : rest.head?.any (Frame.completes i) = false) : Sent.note i t f rest r h = h := by
  cases f with
  | sendPacket pc j p =>
      cases pc with
      | push => exact if_neg (of_decide_eq_false pushes)
      | _ => rfl
  | postSend pc j =>
      have other (holds : (Frame.postSend pc j : Frame n).drains i = share j i) : j ≠ i := by
        intro same
        rw [holds, share, if_pos same] at idle
        omega
      cases pc with
      | cas =>
          cases r with
          | false => rfl
          | true =>
              apply if_neg
              intro same
              simp [same] at raised
      | pop k =>
          cases r with
          | none => rfl
          | some p => exact if_neg (other rfl)
      | issue =>
          cases r with
          | false => rfl
          | true => exact if_neg (other rfl)
      | _ => rfl
  | workerThread pc =>
      cases pc with
      | idle =>
          apply if_neg
          intro sends
          simp only [Bool.and_eq_true, decide_eq_true_eq] at sends
          simp [sends.1, sends.2, share] at received
      | _ => rfl
  | subRef p =>
      apply if_neg
      rw [below]
      exact Bool.false_ne_true
  | acceptThread pc => cases pc <;> rfl
  | postRecv pc j who => cases pc <;> rfl
  | disConnect pc j => cases pc <;> rfl
  | releaseSession pc j => cases pc <;> rfl
  | sessionLock pc j id use => cases pc <;> rfl
  | sendComplete pc j => cases pc <;> rfl
  | recvComplete pc j => cases pc <;> rfl
  | _ => rfl

theorem raised_eq_zero {i : Fin n} {f : Frame n} (other : f ≠ .postSend .cas i) (r : f.act.α) :
    f.act.op.raised i r = 0 := by
  by_cases mute : f.mute = true
  · exact (Op.weights_of_mute i r (Frame.mute_act mute)).1
  cases f with
  | postSend pc j =>
      cases pc with
      | cas =>
          have elsewhere : j ≠ i := fun same => other (same ▸ rfl)
          simp [elsewhere]
      | _ => simp
  | releaseSession pc j => cases pc <;> simp
  | sessionLock pc j id use => cases pc <;> simp
  | sendPacket pc j p => cases pc <;> simp
  | sendComplete pc j => cases pc <;> simp
  | workerThread pc => cases pc <;> simp
  | _ => exact absurd rfl mute

theorem received_eq_zero {i : Fin n} {f : Frame n} (other : f ≠ .workerThread .idle)
    (r : f.act.α) : f.act.op.received i r = 0 := by
  by_cases mute : f.mute = true
  · exact (Op.weights_of_mute i r (Frame.mute_act mute)).2.2.2
  cases f with
  | workerThread pc =>
      cases pc with
      | idle => exact absurd rfl other
      | _ => rfl
  | releaseSession pc j => cases pc <;> rfl
  | sessionLock pc j id use => cases pc <;> rfl
  | sendPacket pc j p => cases pc <;> rfl
  | postSend pc j => cases pc <;> rfl
  | sendComplete pc j => cases pc <;> rfl
  | _ => exact absurd rfl mute

/-- A step of slot `i` that leaves the pipeline alone, but may push. -/
structure Quiet (i : Fin n) (m m' : Shared n) (h h' : Sent) : Prop where
  complete : (m'.slot i).completeSendBuf = (m.slot i).completeSendBuf
  count : (m'.slot i).sendCount = (m.slot i).sendCount
  pushed : ∃ packets, h' = { h with pushed := h.pushed ++ packets } ∧
    (m'.slot i).sendBuf = (m.slot i).sendBuf ++ packets

section Step

variable {i : Fin n} {s : Conf (Frame n) (Shared n)} {t : Nat} {c : Choice n} {f : Frame n}
  {rest : List (Frame n)} {h : Sent}

theorem quiet_of_idle (here : s.threads[t]? = some (f :: rest)) (stays : f.ends i = false)
    (fits : PushFits i s t) (idle : f.drains i + f.clears i = 0) {r : f.act.α} {m : Shared n}
    (done : exec f.act.op c s.mem = some (r, m)) (raised : f.act.op.raised i r = 0)
    (received : f.act.op.received i r = 0)
    (below : rest.head?.any (Frame.completes i) = false) :
    Quiet i s.mem m h (Sent.note i t f rest r h) := by
  cases pushes : f.act.op.pushed i with
  | true =>
      obtain ⟨p, rfl⟩ := eq_of_pushed pushes
      have room : (s.mem.slot i).sendBuf.length < sendCapacity := by
        apply fits
        rw [Conf.top, here]
        exact pushes
      cases done
      refine ⟨?_, ?_, [p], if_pos rfl, ?_⟩
      · rw [s.mem.slot_setSlot_self]
        rfl
      · rw [s.mem.slot_setSlot_self]
        rfl
      · rw [s.mem.slot_setSlot_self]
        exact if_pos room
  | false =>
      obtain ⟨sendBuf, complete, count⟩ :=
        (slot_exec i done).quiet pushes (pipes_eq_false idle stays)
      refine ⟨complete, count, [], ?_, ?_⟩
      · rw [Sent.note_eq_self pushes idle raised received below, List.append_nil]
      · rw [sendBuf, List.append_nil]

/-- The places of the pipeline see only the fields a quiet step keeps. -/
theorem PostSend.At.congr {s s' : Session} {wBuf : List PacketPtr} {pc : PostSend}
    (place : pc.At s wBuf) (complete : s'.completeSendBuf = s.completeSendBuf)
    (count : s'.sendCount = s.sendCount) : pc.At s' wBuf := by
  unfold At at place ⊢
  rw [complete, count]
  exact place

theorem SendComplete.At.congr {s s' : Session} {pc : SendComplete} (place : pc.At s)
    (complete : s'.completeSendBuf = s.completeSendBuf) (count : s'.sendCount = s.sendCount) :
    pc.At s' := by
  unfold At at place ⊢
  rw [complete, count]
  exact place

/-- Everything but the holder's own steps. -/
theorem Pipeline.quiet (p : Pipeline i s h) {threads : List (List (Frame n))} {m : Shared n}
    {h' : Sent} (quiet : Quiet i s.mem m h h')
    (flag : (m.slot i).flagged = (s.mem.slot i).flagged)
    (out : (m.slot i).sendOut = (s.mem.slot i).sendOut)
    (stayed : ∀ (t : Nat) (stack : List (Frame n)), s.threads[t]? = some stack →
      (∃ g ∈ stack, 0 < g.drains i + g.clears i) → threads[t]? = some stack) :
    Pipeline i ⟨m, threads⟩ h' := by
  obtain ⟨complete, count, packets, rfl, sendBuf⟩ := quiet
  cases p with
  | idle flag' pushed complete' completions subRefs =>
      have flag' : (m.slot i).isSendFlag = false :=
        Session.flagged_eq_zero_iff.mp (flag.trans (Session.flagged_eq_zero_iff.mpr flag'))
      refine .idle flag' ?_ (complete.trans complete') completions subRefs
      rw [sendBuf, pushed, List.append_assoc]
  | posting t pc rest here place pushed completions subRefs =>
      have holder := stayed t _ here
        ⟨_, List.mem_cons_self, Nat.lt_of_lt_of_eq Nat.one_pos (place.holds i).symm⟩
      refine .posting t pc rest holder
        (place.congr complete count) ?_ completions subRefs
      rw [sendBuf, pushed, List.append_assoc]
  | outstanding out' before batches count' pushed completions subRefs =>
      refine .outstanding (out ▸ out') before ?_ ?_ ?_ completions subRefs
      · rw [complete]
        exact batches
      · rw [complete, count]
        exact count'
      · rw [sendBuf, pushed, List.append_assoc]
  | completing t above drops pc rest here top place pushed completions subRefs =>
      have holder := stayed t _ here ⟨_, List.mem_append_right above List.mem_cons_self,
        Nat.lt_of_lt_of_eq Nat.one_pos (place.holds i).symm⟩
      refine .completing t above drops pc rest holder top
        (place.congr complete count) ?_ completions ?_
      · rw [sendBuf, pushed, List.append_assoc]
      · rw [complete]
        exact subRefs

/-- A thread that does not hold the flag, does not take it and hands no
completed send over. -/
theorem Pipeline.other (p : Pipeline i s h) (flagged : Flagged i s)
    (here : s.threads[t]? = some (f :: rest)) (stays : f.ends i = false) (fits : PushFits i s t)
    (idle : ∀ g ∈ f :: rest, g.drains i + g.clears i = 0) {r : f.act.α} {m : Shared n}
    (done : exec f.act.op c s.mem = some (r, m)) (raised : f.act.op.raised i r = 0)
    (received : f.act.op.received i r = 0) :
    Pipeline i ⟨m, s.threads.set t (f.act.next r ++ rest)⟩ (Sent.note i t f rest r h) := by
  have first := idle f List.mem_cons_self
  have slot := slot_exec i done
  have frames := raised_next i f r stays
  have lowered := lowered_le stays
  have owned := flagged.flag
  have flag := slot.flagged (by omega)
  have out := slot.sendOut
  have head : rest.head?.any (Frame.completes i) = false := by
    cases rest with
    | nil => rfl
    | cons g rest => exact completes_eq_false (idle g (List.mem_cons_of_mem f List.mem_cons_self))
  refine p.quiet (quiet_of_idle here stays fits first done raised received head) (by omega)
    (by omega) ?_
  rintro k stack there ⟨g, inside, holds⟩
  rcases eq_or_ne t k with rfl | other
  · -- nobody in this thread holds the flag
    rw [here] at there
    cases there
    have := idle g inside
    omega
  · rw [List.getElem?_set_ne other]
    exact there

theorem exec_session {α : Type} {op : SessionOp α} {r : α} {m m' : Shared n}
    (done : exec (.session i op) c m = some (r, m')) :
    r = (op.exec (m.slot i)).1 ∧ m'.slot i = (op.exec (m.slot i)).2 := by
  cases done
  exact ⟨rfl, m.slot_setSlot_self ..⟩

/-- The test of the `while`, with a batch that is in `completeSendBuf`. -/
theorem PostSend.loop_posting {m : Shared n} {k : Nat} (bound : t < s.threads.length)
    (batch : (m.slot i).completeSendBuf = h.wBuf t) (length : (h.wBuf t).length = k)
    (le : k ≤ 100)
    (pushed : h.pushed = h.batches.flatten ++ h.wBuf t ++ (m.slot i).sendBuf)
    (completions : h.completions = h.batches.length) (subRefs : h.subRefs = h.batches.flatten) :
    Pipeline i ⟨m, s.threads.set t (PostSend.loop i k ++ rest)⟩ h := by
  unfold PostSend.loop
  split
  · rename_i more
    exact .posting t (.pop k) rest (List.getElem?_set_self bound) ⟨batch, length, more⟩ pushed
      completions subRefs
  · exact .posting t (.count k) rest (List.getElem?_set_self bound)
      ⟨batch, length, by omega, le⟩ pushed completions subRefs

/-! The steps of the `PostSend` that holds the flag. -/

section PostSend

variable (bound : t < s.threads.length)
  (pushed : h.pushed = h.batches.flatten ++ h.wBuf t ++ (s.mem.slot i).sendBuf)
  (completions : h.completions = h.batches.length) (subRefs : h.subRefs = h.batches.flatten)

include bound pushed completions subRefs

/-- A packet popped joins the batch; an empty queue ends the loop. -/
theorem Pipeline.post_pop {k : Nat}
    (place : (PostSend.pop k).At (s.mem.slot i) (h.wBuf t))
    {r : (Frame.postSend (.pop k) i).act.α} {m : Shared n}
    (done : exec (Frame.postSend (.pop k) i).act.op c s.mem = some (r, m)) :
    Pipeline i ⟨m, s.threads.set t ((Frame.postSend (.pop k) i).act.next r ++ rest)⟩
      (Sent.note i t (.postSend (.pop k) i) rest r h) := by
  obtain ⟨batch, length, more⟩ := place
  obtain ⟨result, same⟩ := exec_session done
  have complete : (m.slot i).completeSendBuf = (s.mem.slot i).completeSendBuf := by
    rw [same]
    rfl
  have left : (m.slot i).sendBuf = (s.mem.slot i).sendBuf.tail := by
    rw [same]
    rfl
  have popped : r = (s.mem.slot i).sendBuf.head? := result
  cases queue : (s.mem.slot i).sendBuf with
  | nil =>
      rw [queue] at popped left pushed
      subst popped
      show Pipeline i ⟨m, s.threads.set t ((if k = 0 then _ else _) ++ rest)⟩ h
      split
      · have none : h.wBuf t = [] := List.eq_nil_of_length_eq_zero (by omega)
        exact .posting t .clear rest (List.getElem?_set_self bound)
          ⟨complete.trans (batch.trans none), none⟩ (left ▸ pushed) completions subRefs
      · exact .posting t (.count k) rest (List.getElem?_set_self bound)
          ⟨complete.trans batch, length, by omega, by omega⟩ (left ▸ pushed) completions
          subRefs
  | cons p queue' =>
      rw [queue] at popped left pushed
      subst popped
      have note : Sent.note i t (.postSend (.pop k) i) rest (some p) h =
          { h with wBuf := Function.update h.wBuf t (h.wBuf t ++ [p]) } := if_pos rfl
      have buffers : Function.update h.wBuf t (h.wBuf t ++ [p]) t = h.wBuf t ++ [p] :=
        Function.update_self ..
      rw [List.head?_cons, note]
      refine .posting t (.move p k) rest (List.getElem?_set_self bound)
        ⟨?_, (congrArg List.length (complete.trans batch)).trans length, more⟩ ?_ completions
        subRefs
      · exact (congrArg (· ++ [p]) (complete.trans batch)).trans buffers.symm
      · show h.pushed = h.batches.flatten ++ Function.update h.wBuf t (h.wBuf t ++ [p]) t ++
          (m.slot i).sendBuf
        rw [pushed, buffers, left, List.tail_cons]
        simp only [List.append_assoc, List.cons_append, List.nil_append]

/-- The packet goes on to `completeSendBuf`, as it has to the batch. -/
theorem Pipeline.post_move {p : PacketPtr} {k : Nat}
    (place : (PostSend.move p k).At (s.mem.slot i) (h.wBuf t))
    {r : (Frame.postSend (.move p k) i).act.α} {m : Shared n}
    (done : exec (Frame.postSend (.move p k) i).act.op c s.mem = some (r, m)) :
    Pipeline i ⟨m, s.threads.set t ((Frame.postSend (.move p k) i).act.next r ++ rest)⟩
      (Sent.note i t (.postSend (.move p k) i) rest r h) := by
  obtain ⟨batch, length, more⟩ := place
  obtain ⟨-, same⟩ := exec_session done
  have room : (s.mem.slot i).completeSendBuf.length < sendCapacity := by
    rw [length]
    exact Nat.lt_trans more (by decide)
  have complete : (m.slot i).completeSendBuf = (s.mem.slot i).completeSendBuf ++ [p] := by
    rw [same]
    exact if_pos room
  have left : (m.slot i).sendBuf = (s.mem.slot i).sendBuf := by
    rw [same]
    rfl
  refine PostSend.loop_posting bound (complete.trans batch) ?_ more (left ▸ pushed)
    completions subRefs
  show (h.wBuf t).length = k + 1
  rw [← batch, List.length_append, length]
  rfl

omit bound in
/-- With nothing to send the flag is cleared. -/
theorem Pipeline.post_clear
    (place : PostSend.clear.At (s.mem.slot i) (h.wBuf t))
    {r : (Frame.postSend .clear i).act.α} {m : Shared n}
    (done : exec (Frame.postSend .clear i).act.op c s.mem = some (r, m)) :
    Pipeline i ⟨m, s.threads.set t ((Frame.postSend .clear i).act.next r ++ rest)⟩
      (Sent.note i t (.postSend .clear i) rest r h) := by
  obtain ⟨batch, none⟩ := place
  obtain ⟨-, same⟩ := exec_session done
  have left : (m.slot i).sendBuf = (s.mem.slot i).sendBuf := by
    rw [same]
    rfl
  have complete : (m.slot i).completeSendBuf = (s.mem.slot i).completeSendBuf := by
    rw [same]
    rfl
  have flag : (m.slot i).isSendFlag = false := by
    rw [same]
    rfl
  refine .idle flag ?_ (complete.trans batch) completions subRefs
  show h.pushed = h.batches.flatten ++ (m.slot i).sendBuf
  rw [pushed, none, List.append_nil, left]

/-- The length of the batch is stored. -/
theorem Pipeline.post_count {k : Nat}
    (place : (PostSend.count k).At (s.mem.slot i) (h.wBuf t))
    {r : (Frame.postSend (.count k) i).act.α} {m : Shared n}
    (done : exec (Frame.postSend (.count k) i).act.op c s.mem = some (r, m)) :
    Pipeline i ⟨m, s.threads.set t ((Frame.postSend (.count k) i).act.next r ++ rest)⟩
      (Sent.note i t (.postSend (.count k) i) rest r h) := by
  obtain ⟨batch, length, nonempty, le⟩ := place
  obtain ⟨-, same⟩ := exec_session done
  have left : (m.slot i).sendBuf = (s.mem.slot i).sendBuf := by
    rw [same]
    rfl
  have complete : (m.slot i).completeSendBuf = (s.mem.slot i).completeSendBuf := by
    rw [same]
    rfl
  have count : (m.slot i).sendCount = (h.wBuf t).length := by
    rw [same, length]
    rfl
  exact .posting t .inc rest (List.getElem?_set_self bound)
    ⟨complete.trans batch, count, length ▸ nonempty, length ▸ le⟩ (left ▸ pushed) completions
    subRefs

theorem Pipeline.post_inc
    (place : PostSend.inc.At (s.mem.slot i) (h.wBuf t))
    {r : (Frame.postSend .inc i).act.α} {m : Shared n}
    (done : exec (Frame.postSend .inc i).act.op c s.mem = some (r, m)) :
    Pipeline i ⟨m, s.threads.set t ((Frame.postSend .inc i).act.next r ++ rest)⟩
      (Sent.note i t (.postSend .inc i) rest r h) := by
  obtain ⟨-, same⟩ := exec_session done
  have left : (m.slot i).sendBuf = (s.mem.slot i).sendBuf := by
    rw [same]
    rfl
  have kept : PostSend.inc.At (m.slot i) (h.wBuf t) := by
    rw [same]
    exact place
  exact .posting t .issue rest (List.getElem?_set_self bound) kept (left ▸ pushed) completions
    subRefs

/-- What `WSASend` accepts is a batch, and the kernel has it. -/
theorem Pipeline.post_issue
    (place : PostSend.issue.At (s.mem.slot i) (h.wBuf t))
    {r : (Frame.postSend .issue i).act.α} {m : Shared n}
    (done : exec (Frame.postSend .issue i).act.op c s.mem = some (r, m)) :
    Pipeline i ⟨m, s.threads.set t ((Frame.postSend .issue i).act.next r ++ rest)⟩
      (Sent.note i t (.postSend .issue i) rest r h) := by
  obtain ⟨batch, count, nonempty, le⟩ := place
  rcases Shared.issue_cases done with ⟨rfl, rfl⟩ | ⟨rfl, rfl⟩
  · have note : Sent.note i t (.postSend .issue i) rest true h =
        { h with batches := h.batches ++ [h.wBuf t] } := if_pos rfl
    rw [note]
    refine .outstanding ?_ h.batches ?_ ?_ ?_ completions subRefs
    · rw [s.mem.slot_setSlot_self]
      exact Nat.succ_pos _
    · rw [s.mem.slot_setSlot_self]
      exact congrArg (fun last => h.batches ++ [last]) batch.symm
    · rw [s.mem.slot_setSlot_self]
      exact count.trans (congrArg List.length batch.symm)
    · rw [s.mem.slot_setSlot_self]
      show h.pushed = _
      rw [pushed, List.flatten_append, List.flatten_singleton]
      rfl
  · exact .posting t .undo rest (List.getElem?_set_self bound) ⟨batch, count, nonempty, le⟩ pushed
      completions subRefs

end PostSend

/-- A step of the `PostSend` that holds the flag. -/
theorem Pipeline.post {pc : PostSend} (here : s.threads[t]? = some (.postSend pc i :: rest))
    (stays : (Frame.postSend pc i).ends i = false) (place : pc.At (s.mem.slot i) (h.wBuf t))
    (pushed : h.pushed = h.batches.flatten ++ h.wBuf t ++ (s.mem.slot i).sendBuf)
    (completions : h.completions = h.batches.length) (subRefs : h.subRefs = h.batches.flatten)
    {r : (Frame.postSend pc i).act.α} {m : Shared n}
    (done : exec (Frame.postSend pc i).act.op c s.mem = some (r, m)) :
    Pipeline i ⟨m, s.threads.set t ((Frame.postSend pc i).act.next r ++ rest)⟩
      (Sent.note i t (.postSend pc i) rest r h) := by
  have bound : t < s.threads.length := (List.getElem?_eq_some_iff.mp here).1
  cases pc with
  | cas => exact place.elim
  | pop k => exact Pipeline.post_pop bound pushed completions subRefs place done
  | move p k => exact Pipeline.post_move bound pushed completions subRefs place done
  | clear => exact Pipeline.post_clear pushed completions subRefs place done
  | count k => exact Pipeline.post_count bound pushed completions subRefs place done
  | inc => exact Pipeline.post_inc bound pushed completions subRefs place done
  | issue => exact Pipeline.post_issue bound pushed completions subRefs place done
  | undo => exact absurd rfl (of_decide_eq_false stays)

/-- The test of the `for`, with the rest of a batch in `completeSendBuf`. -/
theorem SendComplete.loop_completing {m : Shared n} (above : List (Frame n))
    (drops : List PacketPtr) {k : Nat} (bound : t < s.threads.length) (top : Above i above drops)
    (length : (m.slot i).completeSendBuf.length = k)
    (pushed : h.pushed = h.batches.flatten ++ (m.slot i).sendBuf)
    (completions : h.completions = h.batches.length)
    (subRefs : h.subRefs ++ drops ++ (m.slot i).completeSendBuf = h.batches.flatten) :
    Pipeline i ⟨m, s.threads.set t (above ++ SendComplete.loop i k ++ rest)⟩ h := by
  rw [List.append_assoc]
  cases k with
  | zero =>
      exact .completing t above drops .clear rest (List.getElem?_set_self bound) top
        (List.eq_nil_of_length_eq_zero length) pushed completions subRefs
  | succ k =>
      exact .completing t above drops (.pop k) rest (List.getElem?_set_self bound) top length
        pushed completions subRefs

/-- A step of the `SendComplete` that holds the flag. -/
theorem Pipeline.complete {pc : SendComplete}
    (here : s.threads[t]? = some (.sendComplete pc i :: rest)) (place : pc.At (s.mem.slot i))
    (pushed : h.pushed = h.batches.flatten ++ (s.mem.slot i).sendBuf)
    (completions : h.completions = h.batches.length)
    (subRefs : h.subRefs ++ (s.mem.slot i).completeSendBuf = h.batches.flatten)
    {r : (Frame.sendComplete pc i).act.α} {m : Shared n}
    (done : exec (Frame.sendComplete pc i).act.op c s.mem = some (r, m)) :
    Pipeline i ⟨m, s.threads.set t ((Frame.sendComplete pc i).act.next r ++ rest)⟩ h := by
  have bound : t < s.threads.length := (List.getElem?_eq_some_iff.mp here).1
  cases pc with
  | count =>
      obtain ⟨result, same⟩ := exec_session done
      have kept : m.slot i = s.mem.slot i := same
      have read : r = (s.mem.slot i).sendCount := result
      refine .completing t [] [] (.zero r) rest (List.getElem?_set_self bound) .nothing ?_
        (kept ▸ pushed) completions ?_
      · rw [kept]
        exact read.trans place
      · rw [kept, List.append_nil]
        exact subRefs
  | zero cnt =>
      obtain ⟨-, same⟩ := exec_session done
      have complete : (m.slot i).completeSendBuf = (s.mem.slot i).completeSendBuf := by
        rw [same]
        rfl
      have left : (m.slot i).sendBuf = (s.mem.slot i).sendBuf := by
        rw [same]
        rfl
      refine SendComplete.loop_completing [] [] bound .nothing ?_
        (left ▸ pushed) completions ?_
      · rw [complete]
        exact place.symm
      · rw [complete, List.append_nil]
        exact subRefs
  | pop k =>
      obtain ⟨result, same⟩ := exec_session done
      have complete : (m.slot i).completeSendBuf = (s.mem.slot i).completeSendBuf.tail := by
        rw [same]
        rfl
      have left : (m.slot i).sendBuf = (s.mem.slot i).sendBuf := by
        rw [same]
        rfl
      have popped : r = (s.mem.slot i).completeSendBuf.head? := result
      have place : (s.mem.slot i).completeSendBuf.length = k + 1 := place
      cases queue : (s.mem.slot i).completeSendBuf with
      | nil =>
          rw [queue] at place
          cases place
      | cons p queue' =>
          rw [queue] at popped complete subRefs place
          subst popped
          refine SendComplete.loop_completing [.subRef p] [p] bound
            (.subRef p) ?_ (left ▸ pushed) completions ?_
          · rw [complete]
            exact Nat.succ.inj place
          · rw [complete, List.append_assoc]
            exact subRefs
  | clear =>
      obtain ⟨-, same⟩ := exec_session done
      have complete : (m.slot i).completeSendBuf = (s.mem.slot i).completeSendBuf := by
        rw [same]
        rfl
      have left : (m.slot i).sendBuf = (s.mem.slot i).sendBuf := by
        rw [same]
        rfl
      have flag : (m.slot i).isSendFlag = false := by
        rw [same]
        rfl
      have none : (s.mem.slot i).completeSendBuf = [] := place
      rw [none, List.append_nil] at subRefs
      exact .idle flag (left ▸ pushed) (complete.trans none) completions subRefs
  | check => exact place.elim

/-- A step of what runs above that `SendComplete`. -/
theorem Pipeline.complete_above {pc : SendComplete} {above : List (Frame n)}
    {drops : List PacketPtr} (top : Above i (f :: above) drops)
    (here : s.threads[t]? = some (f :: above ++ .sendComplete pc i :: rest))
    (stays : f.ends i = false) (place : pc.At (s.mem.slot i))
    (pushed : h.pushed = h.batches.flatten ++ (s.mem.slot i).sendBuf)
    (completions : h.completions = h.batches.length)
    (subRefs : h.subRefs ++ drops ++ (s.mem.slot i).completeSendBuf = h.batches.flatten)
    {r : f.act.α} {m : Shared n} (done : exec f.act.op c s.mem = some (r, m)) :
    Pipeline i ⟨m, s.threads.set t (f.act.next r ++ (above ++ .sendComplete pc i :: rest))⟩
      (Sent.note i t f (above ++ .sendComplete pc i :: rest) r h) := by
  have bound : t < s.threads.length := (List.getElem?_eq_some_iff.mp here).1
  cases top with
  | subRef p =>
      have note : Sent.note i t (.subRef p) (.sendComplete pc i :: rest) r h =
          { h with subRefs := h.subRefs ++ [p] } := if_pos (place.completes i)
      have same : m.slot = s.mem.slot := by
        cases done
        rfl
      have dropped : h.subRefs ++ [p] ++ [] ++ (s.mem.slot i).completeSendBuf =
          h.batches.flatten := by
        rw [List.append_nil]
        exact subRefs
      rw [List.nil_append, note]
      cases r with
      | true =>
          exact .completing t [.free p] [] pc rest (List.getElem?_set_self bound) (.free p)
            (same ▸ place) (same ▸ pushed) completions (same ▸ dropped)
      | false =>
          exact .completing t [] [] pc rest (List.getElem?_set_self bound) .nothing
            (same ▸ place) (same ▸ pushed) completions (same ▸ dropped)
  | free p =>
      have same : m.slot = s.mem.slot := by
        cases done
        rfl
      exact .completing t [] [] pc rest (List.getElem?_set_self bound) .nothing
        (same ▸ place) (same ▸ pushed) completions (same ▸ subRefs)
  | disConnect => exact absurd rfl (of_decide_eq_false stays)

end Step

end ChattingServer
