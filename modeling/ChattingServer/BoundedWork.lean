import ChattingServer.StaleIds
import Mathlib.Algebra.BigOperators.Group.Finset.Basic
import Mathlib.Data.Fintype.Basic

/-!
# The session layer does not spin

`ReleaseSession` drains queues that other threads may still fill, `PostSend` and
`SendComplete` go round once a packet, and a send that ends starts the next.  All
that is paid for from outside: `Frame.left` are the steps a place has left until
its thread waits for something to come in, a packet in a queue has three for
whoever takes it out, and what comes in pays for the rest, 400 steps each and for
every target of a broadcast (`work_bounded`).
-/

namespace ChattingServer

variable {n : Nat}

/-! ## The record -/

@[simp] def Request.targets : Request → Nat
  | .reply targets => targets.length
  | _ => 0

@[simp] def Call.targets : Call → Nat
  | .broadcast targets => targets.length
  | _ => 0

/-- What the step takes in: a client, a completion, a frame, the answer of a
handler or a call, with one more for each target; or a look at `redisQ`. -/
@[simp] def Frame.intake : (f : Frame n) → f.act.α → Nat
  | .acceptThread .accept, _ => 1
  | .workerThread .idle, _ => 1
  | .recvComplete .ring _, .frame => 1
  | .onRecv _ _, r => 1 + r.targets
  | .redisThread, _ => 1
  | .caller, c => 1 + c.targets
  | _, _ => 0

/-- The steps of all threads, and what they have taken in. -/
structure Work where
  steps : Nat
  intake : Nat
  deriving DecidableEq

def Work.note (_ : Nat) (f : Frame n) (_ : List (Frame n)) (r : f.act.α) (h : Work) : Work :=
  ⟨h.steps + 1, h.intake + f.intake r⟩

/-! ## The steps that are left -/

@[simp] def AcceptThread.left : AcceptThread n → Nat
  | .accept => 0
  | .full _ => 50
  | .pop _ => 49
  | .nextID _ _ => 48
  | .setID _ _ _ => 47
  | .setIndex _ _ => 46
  | .setSock _ _ => 45
  | .count _ => 44
  | .loadID _ => 43
  | .join _ _ => 42

@[simp] def PostRecv.left : PostRecv → Nat
  | .check => 41
  | .inc => 40
  | .issue => 39
  | .undo => 38

@[simp] def DisConnect.left : DisConnect → Nat
  | .cas => 21
  | .loadSock => 20
  | .close _ => 19
  | .clearSock => 18
  | .check => 17

@[simp] def ReleaseSession.left : ReleaseSession → Nat
  | .loadID => 16
  | .leave _ => 15
  | .drainSend => 14
  | .drainComplete => 13
  | .loadIndex => 12
  | .initSock _ => 11
  | .initID _ => 10
  | .initIndex _ => 9
  | .initSendFlag _ => 8
  | .initSendCount _ => 7
  | .initDrainSend _ => 6
  | .initDrainComplete _ => 5
  | .initReleased _ => 4
  | .initIo _ => 3
  | .push _ => 2
  | .count => 1

@[simp] def SessionLock.left : SessionLock → Nat
  | .id => 248
  | .released => 247
  | .idAgain => 246
  | .releasedAgain => 245
  | .fail => 17
  | .failAgain => 1

/-- With three steps for whoever takes out what is pushed. -/
@[simp] def SendPacket.left : SendPacket → Nat
  | .addRef => 227
  | .push => 226
  | .check => 222

@[simp] def PostSend.left : PostSend → Nat
  | .cas => 221
  | .pop pktCount => 22 + 2 * (99 - pktCount)
  | .move _ pktCount => 24 + 2 * (99 - pktCount)
  | .clear => 1
  | .count _ => 20
  | .inc => 19
  | .issue => 18
  | .undo => 17

@[simp] def SendComplete.left : SendComplete → Nat
  | .count => 347
  | .zero cnt => 246 + cnt
  | .pop k => 245 + k
  | .clear => 223
  | .check => 222

@[simp] def RecvComplete.left : RecvComplete → Nat
  | .ring => 43
  | .dequeue _ => 48
  | .decode _ => 47
  | .handle _ => 46
  | .check => 42

@[simp] def WorkerThread.left : WorkerThread n → Nat
  | .idle => 0
  | .dec _ => 18
  | .check _ => 17

@[simp] def AllocUse.left : AllocUse n → Nat
  | .frame _ => 48
  | .response targets => 249 * targets.length + 2
  | .loginResult _ _ => 258

@[simp] def Frame.left : Frame n → Nat
  | .acceptThread pc => pc.left
  | .postRecv pc _ _ => pc.left
  | .disConnect pc _ => pc.left
  | .releaseSession pc _ => pc.left
  | .lock _ _ => 249
  | .sessionLock pc _ _ _ => pc.left
  | .sessionUnLock _ => 17
  | .sendPacket pc _ _ => pc.left
  | .postSend pc _ => pc.left
  | .sendComplete pc _ => pc.left
  | .recvComplete pc _ => pc.left
  | .workerThread pc => pc.left
  | .alloc use => use.left + 2
  | .setRef _ use => use.left + 1
  | .subRef _ => 2
  | .free _ => 1
  | .onRecv _ _ => 0
  | .loginAddRef _ _ => 2
  | .loginPush _ _ => 1
  | .redisThread => 0
  | .completeLogin _ _ _ => 258
  | .caller => 0
  | .undefined => 0

/-! ## The queues -/

def Session.backlog (s : Session) : Nat := s.sendBuf.length + s.completeSendBuf.length

def Shared.backlog (m : Shared n) : Nat := ∑ i, (m.slot i).backlog

@[simp] def SessionOp.enqueues : {α : Type} → SessionOp α → Nat
  | _, .pushSend _ => 1
  | _, .pushComplete _ => 1
  | _, _ => 0

@[simp] def SessionOp.dequeues : {α : Type} → SessionOp α → α → Nat
  | _, .popSend, some _ => 1
  | _, .popComplete, some _ => 1
  | _, _, _ => 0

@[simp] def Op.enqueues : {α : Type} → Op n α → Nat
  | _, .session _ op => op.enqueues
  | _, _ => 0

@[simp] def Op.dequeues : {α : Type} → Op n α → α → Nat
  | _, .session _ op, r => op.dequeues r
  | _, _, _ => 0

theorem length_pushBounded_le {α : Type} (capacity : Nat) (queue : List α) (x : α) :
    (pushBounded capacity queue x).length ≤ queue.length + 1 := by
  unfold pushBounded
  split
  · exact Nat.le_of_eq List.length_append
  · exact Nat.le_succ _

theorem SessionOp.backlog_exec (s : Session) {α : Type} (op : SessionOp α) :
    (op.exec s).2.backlog + op.dequeues (op.exec s).1 ≤ s.backlog + op.enqueues := by
  cases op with
  | pushSend p =>
      have longer := length_pushBounded_le sendCapacity s.sendBuf p
      simp only [exec, Session.backlog, enqueues, dequeues]
      omega
  | pushComplete p =>
      have longer := length_pushBounded_le sendCapacity s.completeSendBuf p
      simp only [exec, Session.backlog, enqueues, dequeues]
      omega
  | popSend =>
      simp only [exec, Session.backlog, enqueues]
      cases s.sendBuf with
      | nil => exact Nat.le_refl _
      | cons p rest =>
          simp only [List.head?_cons, List.tail_cons, List.length_cons, dequeues]
          omega
  | popComplete =>
      simp only [exec, Session.backlog, enqueues]
      cases s.completeSendBuf with
      | nil => exact Nat.le_refl _
      | cons p rest =>
          simp only [List.head?_cons, List.tail_cons, List.length_cons, dequeues]
          omega
  | _ => exact Nat.le_refl _

/-- Replacing one session replaces its part of the backlog. -/
theorem backlog_setSlot (m : Shared n) (i : Fin n) (s : Session) :
    (m.setSlot i s).backlog + (m.slot i).backlog = m.backlog + s.backlog := by
  have others : ∑ j ∈ Finset.univ.erase i, ((m.setSlot i s).slot j).backlog =
      ∑ j ∈ Finset.univ.erase i, (m.slot j).backlog := by
    apply Finset.sum_congr rfl
    intro j member
    rw [m.slot_setSlot_of_ne (Finset.ne_of_mem_erase member)]
  have new := Finset.add_sum_erase Finset.univ (fun j => ((m.setSlot i s).slot j).backlog)
    (Finset.mem_univ i)
  have old := Finset.add_sum_erase Finset.univ (fun j => (m.slot j).backlog) (Finset.mem_univ i)
  rw [m.slot_setSlot_self] at new
  unfold Shared.backlog
  omega

/-- A step adds at most what it pushes, and takes away what it pops. -/
theorem backlog_exec {α : Type} {op : Op n α} {c : Choice n} {m m' : Shared n} {r : α}
    (done : exec op c m = some (r, m')) :
    m'.backlog + op.dequeues r ≤ m.backlog + op.enqueues := by
  cases op with
  | session i op =>
      cases done
      have replaced := backlog_setSlot m i (op.exec (m.slot i)).2
      have own := op.backlog_exec (m.slot i)
      simp only [Op.enqueues, Op.dequeues]
      omega
  | server op =>
      obtain ⟨_, -, same⟩ := Option.map_eq_some_iff.mp done
      cases same
      exact Nat.le_refl _
  | packet op =>
      cases done
      exact Nat.le_refl _
  | outside op =>
      obtain ⟨_, -, same⟩ := Option.map_eq_some_iff.mp done
      cases same
      exact Nat.le_refl _
  | wsaRecv i =>
      rcases Shared.issue_cases done with ⟨rfl, rfl⟩ | ⟨rfl, rfl⟩
      · have replaced := backlog_setSlot m i ((m.slot i).outstanding false)
        exact Nat.le_of_add_le_add_right replaced.le
      · exact Nat.le_refl _
  | wsaSend i =>
      rcases Shared.issue_cases done with ⟨rfl, rfl⟩ | ⟨rfl, rfl⟩
      · have replaced := backlog_setSlot m i ((m.slot i).outstanding true)
        exact Nat.le_of_add_le_add_right replaced.le
      · exact Nat.le_refl _
  | completion =>
      obtain ⟨s, completed, rfl⟩ := Shared.complete_cases done
      have replaced := backlog_setSlot m r.slot s
      have same : s.backlog = (m.slot r.slot).backlog := by
        rcases Session.completed_cases completed with ⟨-, -, rfl⟩ | ⟨-, -, rfl⟩ <;> rfl
      rw [same] at replaced
      exact (Nat.add_right_cancel replaced).le
  | undefined => cases done

/-! ## Batches -/

/-- What is stored as a send count is at most 100. -/
@[simp] def Op.Batched : {α : Type} → Op n α → Prop
  | _, .session _ (.storeSendCount count) => count ≤ 100
  | _, _ => True

/-- The loop of `PostSend` has not passed 100 packets. -/
@[simp] def Frame.Batched : Frame n → Prop
  | .postSend (.pop pktCount) _ => pktCount < 100
  | .postSend (.move _ pktCount) _ => pktCount < 100
  | .postSend (.count pktCount) _ => pktCount ≤ 100
  | _ => True

/-- No session counts more than 100 packets as sent at once. -/
def Shared.Batched (m : Shared n) : Prop := ∀ i, (m.slot i).sendCount ≤ 100

theorem Frame.batched_act {f : Frame n} (batched : f.Batched) : f.act.op.Batched := by
  cases f with
  | lock id use =>
      rcases Frame.act_lock_cases id use with ⟨j, -, act⟩ | act
      · rw [act]
        trivial
      · rw [act]
        trivial
  | acceptThread pc => cases pc <;> trivial
  | postRecv pc j who => cases pc <;> trivial
  | disConnect pc j => cases pc <;> trivial
  | releaseSession pc j =>
      cases pc with
      | initSendCount index => exact Nat.zero_le 100
      | _ => trivial
  | sessionLock pc j id use => cases pc <;> trivial
  | sendPacket pc j p => cases pc <;> trivial
  | postSend pc j =>
      cases pc with
      | count pktCount => exact batched
      | _ => trivial
  | sendComplete pc j =>
      cases pc with
      | zero cnt => exact Nat.zero_le 100
      | _ => trivial
  | recvComplete pc j => cases pc <;> trivial
  | workerThread pc => cases pc <;> trivial
  | _ => trivial

/-- Only the loop of `PostSend` counts. -/
theorem Frame.batched_next {f : Frame n} (batched : f.Batched) (r : f.act.α) :
    ∀ g ∈ f.act.next r, g.Batched := by
  have goes := f.goes r
  generalize f.act.next r = fs at goes ⊢
  cases goes with
  | popSend i k p => exact List.forall_mem_singleton.mpr batched
  | popSendLast i k any => exact List.forall_mem_singleton.mpr (Nat.le_of_lt batched)
  | moved i p k more => exact List.forall_mem_singleton.mpr more
  | movedLast i p k enough => exact List.forall_mem_singleton.mpr batched
  | setRefResponse p targets => simp [or_imp, forall_and]
  | _ => simp

theorem SlotStep.batched {i : Fin n} {s s' : Session} {α : Type} {op : Op n α} {r : α}
    (step : SlotStep i s op r s') (stored : op.Batched) (before : s.sendCount ≤ 100) :
    s'.sendCount ≤ 100 := by
  cases step with
  | session op =>
      cases op with
      | storeSendCount count => exact stored
      | _ => exact before
  | _ => exact before

theorem Shared.Batched.exec {α : Type} {op : Op n α} {c : Choice n} {m m' : Shared n} {r : α}
    (batched : m.Batched) (stored : op.Batched)
    (done : ChattingServer.exec op c m = some (r, m')) : m'.Batched :=
  fun i => (slot_exec i done).batched stored (batched i)

/-! ## A step is paid for -/

/-- The locks that a response is sent under. -/
theorem left_locks (targets : List UINT64) (p : PacketPtr) :
    ((targets.map fun id => (Frame.lock id (.send p) : Frame n)).map Frame.left).sum =
      249 * targets.length := by
  induction targets with
  | nil => rfl
  | cons id rest ih =>
      simp only [List.map_cons, List.sum_cons, List.length_cons, ih, Frame.left]
      omega

/-- **What a step costs.**  It is paid for by the place that it leaves, by the
packet that it takes out of a queue, or by what comes in. -/
theorem Frame.left_step {f : Frame n} {c : Choice n} {m m' : Shared n} {r : f.act.α}
    (small : m.Batched) (done : exec f.act.op c m = some (r, m')) :
    ((f.act.next r).map Frame.left).sum + 1 + 3 * f.act.op.enqueues ≤
      f.left + 3 * f.act.op.dequeues r + 400 * f.intake r := by
  have goes := f.goes r
  generalize f.act.next r = fs at goes ⊢
  cases goes with
  | lock id use r j named =>
      rw [show (Frame.lock id use : Frame n).intake r = 0 from rfl]
      clear done
      revert r
      rw [Frame.act_lock_of_lt use named]
      simp
  | lockStray id use r outside =>
      rw [show (Frame.lock id use : Frame n).intake r = 0 from rfl]
      revert r
      rw [Frame.act_lock_of_le use outside]
      intro r done
      cases done
  | undefined => cases done
  | loadCount j cnt =>
      cases done
      have most : ((SessionOp.loadSendCount.exec (m.slot j)).1 : Nat) ≤ 100 := small j
      simp
      omega
  | setRefResponse p targets =>
      have locks := left_locks (n := n) targets p
      simp only [List.map_append, List.sum_append, locks]
      simp
  -- the loops are paid for by the packets they have still to see
  | popSend j k p | popNext j k p =>
      simp
      omega
  | popSendLast j k any =>
      simp
      omega
  | moved j p k more =>
      simp
      omega
  | zeroSome j k =>
      simp
      omega
  | requestReply id p targets =>
      simp
      omega
  | callBroadcast targets =>
      simp
      omega
  | _ => simp


/-! ## Over runs -/

theorem backlog_boot (n : Nat) (sessionID : UINT64) (kinds : List ThreadKind) :
    (Shared.boot n sessionID kinds).mem.backlog = 0 :=
  Finset.sum_eq_zero fun _ _ => rfl

theorem left_boot (n : Nat) (sessionID : UINT64) (kinds : List ThreadKind) :
    (Shared.boot n sessionID kinds).tally Frame.left = 0 := by
  apply Conf.tally_eq_zero
  intro stack member f inside
  rcases Shared.boot_frames n sessionID kinds stack member f inside with rfl | ⟨kind, rfl⟩
  · rfl
  · cases kind <;> rfl

/-- The sends of all sessions, and of all threads, are in batches of 100. -/
structure Batches (s : Conf (Frame n) (Shared n)) : Prop where
  memory : s.mem.Batched
  frames : ∀ stack ∈ s.threads, ∀ f ∈ stack, f.Batched

theorem Batches.boot (n : Nat) (sessionID : UINT64) (kinds : List ThreadKind) :
    Batches (Shared.boot n sessionID kinds) where
  memory _ := Nat.zero_le 100
  frames stack member f inside := by
    rcases Shared.boot_frames n sessionID kinds stack member f inside with rfl | ⟨kind, rfl⟩
    · trivial
    · cases kind <;> trivial

theorem Batches.step {s s' : Conf (Frame n) (Shared n)} {t : Nat} {c : Choice n}
    (batches : Batches s) (step : (iocp n).step s t c = some s') : Batches s' := by
  obtain ⟨f, rest, r, m, here, done, rfl⟩ := iocp_step_cases step
  have own : f.Batched := batches.frames _ (List.mem_of_getElem? here) f List.mem_cons_self
  refine ⟨batches.memory.exec (Frame.batched_act own) done, ?_⟩
  refine Machine.forall_frames_step here (Frame.batched_next own r) ?_
  intro stack member g inside
  obtain ⟨stack', member', inside'⟩ := Machine.exists_of_stayed here member inside
  exact batches.frames stack' member' g inside'

/-- From any point of a run on, what is done is paid for by the steps that were
left there, by the packets in the queues, and by what came in since. -/
theorem Batches.paid {guard : Conf (Frame n) (Shared n) → Nat → Choice n → Prop}
    {s s' : Conf (Frame n) (Shared n)} {h h' : Work} (batches : Batches s)
    (run : (iocp n).NotedSteps Work.note guard (s, h) (s', h')) :
    h'.steps + s'.tally Frame.left + 3 * s'.mem.backlog + 400 * h.intake ≤
      h.steps + s.tally Frame.left + 3 * s.mem.backlog + 400 * h'.intake := by
  refine run.paid (w := Frame.left) (I := Batches) (fun m => 3 * m.backlog) Work.steps
    (fun h => 400 * h.intake) batches (fun _ _ _ _ inv _ step => inv.step step) ?_
  intro s t c f rest r m x inv _ _ taken
  have done : exec f.act.op c s.mem = some (r, m) := taken
  have queues := backlog_exec done
  have cost := Frame.left_step inv.memory done
  change x.steps + 1 + ((f.act.next r).map Frame.left).sum + 3 * m.backlog + 400 * x.intake ≤
    x.steps + f.left + 3 * s.mem.backlog + 400 * (x.intake + f.intake r)
  omega

theorem Batches.of_run {sessionID : UINT64} {kinds : List ThreadKind}
    {s : Conf (Frame n) (Shared n)}
    (run : (iocp n).Steps (fun _ _ _ => True) (Shared.boot n sessionID kinds) s) : Batches s :=
  run.invariant (.boot n sessionID kinds) fun _ _ _ _ batches _ step => batches.step step

/-- Nothing done, and nothing taken in. -/
def Work.nothing : Work := ⟨0, 0⟩

/-- **The session layer does not spin.**  In any run the steps of all threads
together are at most 400 for whatever has come in: a client, a completion, a
frame, a call or an answer with each of its targets, a look at `redisQ`.  And from any
point of it on, however the threads take turns, what is done without anything
coming in is at most the steps that are left there and three for each packet in
a queue. -/
theorem work_bounded {sessionID : UINT64} {kinds : List ThreadKind}
    {s : Conf (Frame n) (Shared n)} {h : Work}
    (run : (iocp n).NotedSteps Work.note (fun _ _ _ => True)
      (Shared.boot n sessionID kinds, .nothing) (s, h)) :
    h.steps + s.tally Frame.left + 3 * s.mem.backlog ≤ 400 * h.intake ∧
      ∀ (s' : Conf (Frame n) (Shared n)) (h' : Work),
        (iocp n).NotedSteps Work.note (fun _ _ _ => True) (s, h) (s', h') →
        h'.intake = h.intake → h'.steps ≤ h.steps + s.tally Frame.left + 3 * s.mem.backlog := by
  have batches : Batches s := Batches.of_run run.steps
  have paid := (Batches.boot n sessionID kinds).paid run
  rw [left_boot, backlog_boot] at paid
  refine ⟨by simpa [Work.nothing] using paid, ?_⟩
  intro s' h' later same
  have further := batches.paid later
  rw [same] at further
  omega

/-- A client comes and goes: 37 steps for two things taken in, and then every
thread waits. -/
theorem work_bounded_close :
    ∃ s h, (iocp 1).NotedSteps Work.note (fun _ _ _ => True)
        (Shared.boot 1 0 [.worker], .nothing) (s, h) ∧
      h = ⟨37, 2⟩ ∧ h.steps ≤ 400 * h.intake ∧
      ∀ (s' : Conf (Frame 1) (Shared 1)) (h' : Work),
        (iocp 1).NotedSteps Work.note (fun _ _ _ => True) (s, h) (s', h') →
        h'.intake = 2 → h'.steps ≤ 37 := by
  have reached : ((iocp 1).runNoted Work.note (fun _ _ _ => True) (acceptOne ++ closeOne)
      (Shared.boot 1 0 [.worker], .nothing)).map (fun p =>
        (p.2, p.1.tally Frame.left, p.1.mem.backlog)) = some (⟨37, 2⟩, 0, 0) := by
    decide +kernel
  obtain ⟨⟨s, h⟩, taken, found⟩ := Option.map_eq_some_iff.mp reached
  have work : h = ⟨37, 2⟩ := congrArg Prod.fst found
  have left : s.tally Frame.left = 0 := congrArg (·.2.1) found
  have backlog : s.mem.backlog = 0 := congrArg (·.2.2) found
  have run := Machine.NotedSteps.of_run taken
  obtain ⟨bounded, after⟩ := work_bounded run
  refine ⟨s, h, run, work, by omega, ?_⟩
  intro s' h' later same
  have most := after s' h' later (by rw [same, work])
  rw [left, backlog, work] at most
  exact most

end ChattingServer
