import ChattingServer.PacketOwnership
import ChattingServer.StaleIds

/-!
# Packets come back to the pool

In a run whose pushes all find room, a packet that has been made is in the pool
once, on its way, or counted once for each of its owners
(`packet_conservation`).  A `push` that finds `sendBuf` full returns `false`,
which `SendPacket` does not look at: the reference it added stays behind
(`packet_lost`).
-/

namespace ChattingServer

variable {n : Nat}

/-! ## Borrowed packets -/

/-- The packet a frame will add a reference to, which somebody else keeps
alive until then. -/
def Frame.borrows : Frame n → Option PacketPtr
  | .lock _ (.send p) => some p
  | .sessionLock _ _ _ (.send p) => some p
  | .sendPacket .addRef _ p => some p
  | .onRecv _ p => some p
  | .loginAddRef _ p => some p
  | _ => none

/-- The caller of a frame that borrows a packet drops its own reference
afterwards. -/
def Lent : List (Frame n) → Prop := Supported Frame.borrows fun f p => f = .subRef p

theorem Lent.of_response {q : PacketPtr} {targets : List UINT64} {rest : List (Frame n)}
    (below : Lent rest) :
    Lent ((AllocUse.response targets : AllocUse n).frames q ++ rest) := by
  rw [AllocUse.frames, List.append_assoc]
  refine supported_append ?_ (below.cons_of_none rfl)
  intro f member p borrowed
  obtain ⟨id, -, rfl⟩ := List.mem_map.mp member
  cases borrowed
  exact ⟨_, List.mem_cons_self, rfl⟩

/-- Frames that do not allocate a response or hand a request to its handler
borrow nothing new. -/
theorem borrows_next (f : Frame n) (r : f.act.α)
    (response : ∀ q targets, f ≠ .setRef q (.response targets))
    (handle : ∀ q i, f ≠ .recvComplete (.handle q) i) :
    ∀ g ∈ f.act.next r, g.borrows = f.borrows ∨ g.borrows = none := by
  have goes := f.goes r
  generalize f.act.next r = fs at goes ⊢
  cases goes with
  | handle i p id => exact absurd rfl (handle p i)
  | setRefResponse p targets => exact absurd rfl (response p targets)
  | lock id use | idSame i id use | idOther i id use | lockReleased i id use | lockLive i id use
  | idSameAgain i id use | idOtherAgain i id use | lockReleasedAgain i id use =>
      cases use <;> simp [Frame.borrows]
  | _ => simp [Frame.borrows]

theorem lent_next (f : Frame n) (rest : List (Frame n)) (r : f.act.α) (lent : Lent (f :: rest)) :
    Lent (f.act.next r ++ rest) := by
  by_cases response : ∃ q targets, f = .setRef q (.response targets)
  · obtain ⟨q, targets, rfl⟩ := response
    exact Lent.of_response lent.2
  · by_cases handle : ∃ q i, f = .recvComplete (.handle q) i
    · obtain ⟨q, i, rfl⟩ := handle
      refine ⟨?_, nofun, nofun, lent.2⟩
      intro p borrowed
      cases borrowed
      exact ⟨_, List.mem_cons_self, rfl⟩
    · push Not at response handle
      exact supported_of_same (borrows_next f r response handle) lent

/-! ## Conservation -/

/-- The step finds room for what it pushes, and the whole of the frame it
dequeues. -/
def Kept (s : Conf (Frame n) (Shared n)) (t : Nat) (c : Choice n) : Prop :=
  match s.top t with
  | some (.sendPacket .push i _) => (s.mem.slot i).sendBuf.length < sendCapacity
  | some (.postSend (.move _ _) i) => (s.mem.slot i).completeSendBuf.length < sendCapacity
  | some (.loginPush _ _) => s.mem.packets.redisQ.length < redisCapacity
  | some (.recvComplete (.dequeue _) _) =>
      match c with
      | .outcome ok => ok = true
      | _ => False
  | _ => True

/-- Every packet that has been made is in the pool, on its way, or counted, and
is counted once for each owner. -/
structure Conserved (s : Conf (Frame n) (Shared n)) : Prop where
  refs : ∀ p, s.mem.packets.refs p = owners s p
  once : ∀ p, s.mem.packets.pool.count p + inUse (s.mem.packets.refs p) +
    s.tally (Frame.moving p) = made s.mem.packets.blocks p
  lent : s.Forall Lent

theorem Conserved.boot (n : Nat) (sessionID : UINT64) (kinds : List ThreadKind) :
    Conserved (Shared.boot n sessionID kinds) := by
  have single := Shared.boot_frames n sessionID kinds
  have owned (p : PacketPtr) : (Shared.boot n sessionID kinds).tally (Frame.owned p) = 0 := by
    apply Conf.tally_eq_zero
    intro stack member f inside
    rcases single stack member f inside with rfl | ⟨kind, rfl⟩
    · rfl
    · cases kind <;> rfl
  have moving (p : PacketPtr) : (Shared.boot n sessionID kinds).tally (Frame.moving p) = 0 := by
    apply Conf.tally_eq_zero
    intro stack member f inside
    rcases single stack member f inside with rfl | ⟨kind, rfl⟩
    · rfl
    · cases kind <;> rfl
  refine ⟨?_, ?_, ?_⟩
  · intro p
    have empty : (Shared.start n sessionID).queued p = 0 := by
      have slots : ∑ i, ((Shared.start n sessionID).slot i).queued p = 0 :=
        Finset.sum_eq_zero fun i _ => rfl
      rw [Shared.queued, slots]
      rfl
    show (0 : Int) = ((Shared.boot n sessionID kinds).tally (Frame.owned p) +
      (Shared.start n sessionID).queued p : Nat)
    rw [owned, empty]
    rfl
  · intro p
    rw [moving]
    rfl
  · intro stack member
    rcases List.mem_cons.mp member with rfl | other
    · exact supported_nil.cons_of_none rfl
    · obtain ⟨kind, -, rfl⟩ := List.mem_map.mp other
      apply supported_nil.cons_of_none
      cases kind <;> rfl

section Step

variable {s : Conf (Frame n) (Shared n)} {t : Nat} {c : Choice n} {f : Frame n}
  {rest : List (Frame n)}

/-- A reference that a running thread still has to drop is counted. -/
theorem Conserved.refs_pos (inv : Conserved s) {p : PacketPtr} {stack : List (Frame n)}
    (here : stack ∈ s.threads) {g : Frame n} (member : g ∈ stack) (owned : 0 < g.owned p) :
    0 < s.mem.packets.refs p := by
  have part := Conf.le_tally (w := Frame.owned p) here member
  have refs := inv.refs p
  unfold owners at refs
  omega

/-- A packet that is on its way is not counted. -/
theorem Conserved.refs_zero (inv : Conserved s) {p : PacketPtr} {stack : List (Frame n)}
    (here : stack ∈ s.threads) {g : Frame n} (member : g ∈ stack) (moving : 0 < g.moving p) :
    s.mem.packets.refs p = 0 := by
  have part := Conf.le_tally (w := Frame.moving p) here member
  have once := inv.once p
  have atMost : made s.mem.packets.blocks p ≤ 1 := by
    unfold made
    split <;> omega
  by_contra counted
  have one : inUse (s.mem.packets.refs p) = 1 := if_neg counted
  omega

theorem Conserved.ready (inv : Conserved s) (kept : Kept s t c)
    (here : s.threads[t]? = some (f :: rest)) : f.act.op.Ready s.mem := by
  have top : s.top t = some f := Conf.top_of_here here
  have stack := List.mem_of_getElem? here
  unfold Kept at kept
  rw [top] at kept
  cases f with
  | lock id use =>
      rcases Frame.act_lock_cases id use with ⟨i, -, act⟩ | act
      · rw [act]
        trivial
      · rw [act]
        trivial
  | acceptThread pc => cases pc <;> trivial
  | postRecv pc i who => cases pc <;> trivial
  | disConnect pc i => cases pc <;> trivial
  | releaseSession pc i => cases pc <;> trivial
  | sessionLock pc i id use => cases pc <;> trivial
  | sendPacket pc i q =>
      cases pc with
      | addRef =>
          obtain ⟨g, owner, rfl⟩ := (inv.lent _ stack).1 q rfl
          exact inv.refs_pos stack (List.mem_cons_of_mem _ owner) (share_self q).ge
      | push => exact kept
      | check => trivial
  | postSend pc i =>
      cases pc with
      | move q k => exact kept
      | _ => trivial
  | sendComplete pc i => cases pc <;> trivial
  | recvComplete pc i => cases pc <;> trivial
  | workerThread pc => cases pc <;> trivial
  | setRef q use => exact inv.refs_zero stack List.mem_cons_self (share_self q).ge
  | subRef q => exact inv.refs_pos stack List.mem_cons_self (share_self q).ge
  | loginAddRef id q =>
      obtain ⟨g, owner, rfl⟩ := (inv.lent _ stack).1 q rfl
      exact inv.refs_pos stack (List.mem_cons_of_mem _ owner) (share_self q).ge
  | loginPush id q => exact kept
  | _ => trivial

/-- A frame of which `Dequeue` was meant to find the whole finds it. -/
theorem dequeue_of_kept (kept : Kept s t c) (here : s.threads[t]? = some (f :: rest))
    {m : Shared n} {r : f.act.α} (done : exec f.act.op c s.mem = some (r, m)) (q : PacketPtr)
    (i : Fin n) (dequeues : f = .recvComplete (.dequeue q) i) : HEq r true := by
  subst dequeues
  have top : s.top t = some (.recvComplete (.dequeue q) i) := Conf.top_of_here here
  unfold Kept at kept
  rw [top] at kept
  cases c with
  | outcome ok =>
      obtain rfl : ok = true := kept
      cases done
      rfl
  | _ => exact kept.elim

theorem Conserved.step {s' : Conf (Frame n) (Shared n)} (inv : Conserved s) (kept : Kept s t c)
    (step : (iocp n).step s t c = some s') : Conserved s' := by
  obtain ⟨f, rest, r, m, here, done, rfl⟩ := iocp_step_cases step
  have ready := inv.ready kept here
  refine ⟨?_, ?_, Machine.forall_step inv.lent here (lent_next f rest r)⟩
  · intro p
    have frames := owned_next p f r (dequeue_of_kept kept here done)
    have memory := refs_exec p done ready
    have tally := Machine.tally_step (Frame.owned p) here (f.act.next r) m
    have before := inv.refs p
    unfold owners at before ⊢
    dsimp only
    omega
  · intro p
    have frames := moving_next p f r
    have memory := pool_exec p done ready
    have tally := Machine.tally_step (Frame.moving p) here (f.act.next r) m
    have before := inv.once p
    dsimp only
    omega

end Step

/-- **Packet reference conservation**, for runs in which every push finds room
and every frame is dequeued whole. -/
theorem packet_conservation (n : Nat) (sessionID : UINT64) (kinds : List ThreadKind)
    {s : Conf (Frame n) (Shared n)} (run : (iocp n).Steps Kept (Shared.boot n sessionID kinds) s)
    (p : PacketPtr) :
    s.mem.packets.refs p = owners s p ∧
      s.mem.packets.pool.count p + (if owners s p = 0 then 0 else 1) +
        s.tally (Frame.moving p) = if p < s.mem.packets.blocks then 1 else 0 := by
  have inv : Conserved s := run.invariant (.boot n sessionID kinds)
    fun _ _ _ _ before kept step => before.step kept step
  have refs := inv.refs p
  have once := inv.once p
  refine ⟨refs, ?_⟩
  rw [refs, inUse] at once
  simpa [made] using once

instance (s : Conf (Frame n) (Shared n)) (t : Nat) (c : Choice n) : Decidable (Kept s t c) := by
  unfold Kept
  split
  · infer_instance
  · infer_instance
  · infer_instance
  · split <;> infer_instance
  · infer_instance

/-- A worker receives one frame from the first session, and the handler answers
it with a packet to that session.  The answer is queued, moved to
`completeSendBuf` and handed to `WSASend`, and the next receive is posted. -/
def receiveAndReply : List (Nat × Choice 1) :=
  [(1, .completed ⟨firstSlot, false, 1⟩), (1, .ring .frame), (1, .none), (1, .none),
    (1, .outcome true), (1, .outcome true), (1, .none), (1, .request (.reply [firstID]))] ++
    List.replicate 16 (1, .none) ++ (1, .outcome true) :: List.replicate 4 (1, .none) ++
    (1, .ring .stop) :: List.replicate 3 (1, .none) ++ [(1, .outcome true), (1, .none)]

/-- The send of the answer completes. -/
def replyCompletes : List (Nat × Choice 1) :=
  (1, .completed ⟨firstSlot, true, 1⟩) :: List.replicate 11 (1, .none)

/-- A frame is received whole and answered.  While `WSASend` has the answer, its
packet is counted once, for `completeSendBuf`; when the send has completed both
packets are back in the pool. -/
theorem packet_conservation_reply :
    ∃ s s', (iocp 1).Steps Kept (Shared.boot 1 0 [.worker]) s ∧ (iocp 1).Steps Kept s s' ∧
      (s.mem.slot firstSlot).completeSendBuf = [1] ∧ s.mem.packets.refs 1 = 1 ∧
      s.mem.packets.refs 1 = owners s 1 ∧
      s'.mem.packets.pool = [1, 0] ∧ s'.mem.packets.refs 1 = owners s' 1 := by
  have reached : ((iocp 1).runIf Kept (acceptOne ++ receiveAndReply)
      (Shared.boot 1 0 [.worker])).bind (fun s => ((iocp 1).runIf Kept replyCompletes s).map
        fun s' => ((s.mem.slot firstSlot).completeSendBuf, s.mem.packets.refs 1,
          s'.mem.packets.pool)) = some ([1], 1, [1, 0]) := by
    decide +kernel
  obtain ⟨s, replied, rest⟩ := Option.bind_eq_some_iff.mp reached
  obtain ⟨s', completed, found⟩ := Option.map_eq_some_iff.mp rest
  simp only [Prod.mk.injEq] at found
  obtain ⟨kept, counted, returned⟩ := found
  have run := Machine.Steps.of_runIf replied
  have later := Machine.Steps.of_runIf completed
  exact ⟨s, s', run, later, kept, counted, (packet_conservation 1 0 [.worker] run 1).1, returned,
    (packet_conservation 1 0 [.worker] (run.trans later) 1).1⟩

/-! ## A full queue -/

section Full

variable {m m' : Shared n} {rest : List (Frame n)}

theorem solo_of_session {α : Type} {f : Frame n} {i : Fin n} {op : SessionOp α} {r : α}
    {s' : Session} {next : α → List (Frame n)} (act : f.act = ⟨.session i op, next⟩)
    (does : op.exec (m.slot i) = (r, s'))
    (others : (iocp n).Solo (m.setSlot i s') (next r ++ rest) m') :
    (iocp n).Solo m (f :: rest) m' := by
  rw [solo_session act, does]
  exact others

/-- A read leaves the memory as it is. -/
theorem solo_of_read {α : Type} {f : Frame n} {i : Fin n} {op : SessionOp α} {r : α}
    {next : α → List (Frame n)} (act : f.act = ⟨.session i op, next⟩)
    (reads : op.exec (m.slot i) = (r, m.slot i))
    (others : (iocp n).Solo m (next r ++ rest) m') : (iocp n).Solo m (f :: rest) m' := by
  refine solo_of_session act reads ?_
  rw [m.setSlot_slot]
  exact others

theorem solo_of_packet {α : Type} {f : Frame n} {op : PacketOp α} {r : α} {k : Packets}
    {next : α → List (Frame n)} (act : f.act = ⟨.packet op, next⟩)
    (does : op.exec m.packets = (r, k))
    (others : (iocp n).Solo { m with packets := k } (next r ++ rest) m') :
    (iocp n).Solo m (f :: rest) m' := by
  rw [Machine.solo_cons_iff act]
  refine ⟨.none, r, _, ?_, others⟩
  show some ((op.exec m.packets).1, { m with packets := (op.exec m.packets).2 }) = _
  rw [does]

/-- What a `SendPacket` leaves behind when somebody else is sending. -/
def Shared.pushed (m : Shared n) (i : Fin n) (p : PacketPtr) : Shared n :=
  { m.setSlot i { m.slot i with sendBuf := pushBounded sendCapacity (m.slot i).sendBuf p } with
    packets := { m.packets with refs := Function.update m.packets.refs p (m.packets.refs p + 1) } }

/-- The session is live, and somebody is sending on it. -/
structure Session.Busy (s : Session) (id : UINT64) : Prop where
  bears : s.sessionID = id
  live : s.isReleased = false
  sending : s.isSendFlag = true
  held : s.ioCount ≠ 0

theorem solo_send_of_busy {id : UINT64} {i : Fin n} (p : PacketPtr)
    (named : getSessionIndex id = i) (busy : (m.slot i).Busy id) :
    (iocp n).Solo m [.lock id (.send p)] (m.pushed i p) := by
  obtain ⟨bears, live, sending, held⟩ := busy
  let locked : Session := { m.slot i with ioCount := (m.slot i).ioCount + 1 }
  let queued : Session := { locked with sendBuf := pushBounded sendCapacity locked.sendBuf p }
  have first : (m.setSlot i locked).slot i = locked := m.slot_setSlot_self i locked
  have same : (SessionOp.idIs id).exec locked = (true, locked) := by
    rw [SessionOp.exec, decide_eq_true bears.symm]
  have awake : SessionOp.isReleased.exec locked = (false, locked) := by
    rw [SessionOp.exec, show locked.isReleased = false from live]
  rw [← first] at same awake
  refine solo_of_session (Frame.act_lock_of_lt _ named) rfl ?_
  refine solo_of_read rfl same (solo_of_read rfl awake ?_)
  refine solo_of_read rfl same (solo_of_read rfl awake ?_)
  refine solo_of_packet rfl rfl ?_
  have pushes : (SessionOp.pushSend p).exec ((m.setSlot i locked).slot i) = ((), queued) := by
    rw [first]
    rfl
  refine solo_of_session rfl pushes ?_
  set m₁ : Shared n := Shared.setSlot _ i queued with hm₁
  have second : m₁.slot i = queued := Shared.slot_setSlot_self ..
  have awake : SessionOp.isReleased.exec (m₁.slot i) = (false, m₁.slot i) := by
    rw [second, SessionOp.exec, show queued.isReleased = false from live]
  have taken : SessionOp.casSendFlag.exec (m₁.slot i) = (false, m₁.slot i) := by
    rw [second]
    show (!(m.slot i).isSendFlag, { queued with isSendFlag := true }) = (false, queued)
    rw [sending]
    have same : queued.isSendFlag = true := sending
    exact Prod.ext rfl (by rw [← same])
  refine solo_of_read rfl awake (solo_of_read rfl taken ?_)
  have unlocks : SessionOp.decIo.exec (m₁.slot i) =
      (false, { queued with ioCount := (m.slot i).ioCount }) := by
    rw [second]
    show (decide ((m.slot i).ioCount + 1 - 1 = 0), { queued with ioCount := _ + 1 - 1 }) = _
    rw [Int.add_sub_cancel, decide_eq_false held]
  refine solo_of_session rfl unlocks ?_
  have whole : m₁.setSlot i { queued with ioCount := (m.slot i).ioCount } = m.pushed i p := by
    rw [hm₁, Shared.setSlot_setSlot]
    unfold Shared.pushed Shared.setSlot
    dsimp only
    rw [Function.update_idem]
  rw [whole]
  exact .done _

theorem Session.Busy.pushed {id : UINT64} {i : Fin n} (busy : (m.slot i).Busy id) (p : PacketPtr) :
    ((m.pushed i p).slot i).Busy id := by
  have here : (m.pushed i p).slot i =
      { m.slot i with sendBuf := pushBounded sendCapacity (m.slot i).sendBuf p } :=
    m.slot_setSlot_self i _
  rw [here]
  exact ⟨busy.bears, busy.live, busy.sending, busy.held⟩

/-- Any number of them, one after another. -/
theorem solo_sends_of_busy {id : UINT64} {i : Fin n} (p : PacketPtr)
    (named : getSessionIndex id = i) (busy : (m.slot i).Busy id) (k : Nat) :
    (iocp n).Solo m ((List.replicate k id).map fun id => .lock id (.send p))
      ((Shared.pushed · i p)^[k] m) := by
  induction k generalizing m with
  | zero => exact .done m
  | succ k ih => exact (solo_send_of_busy p named busy).append (ih (busy.pushed p))

theorem refs_pushed (i : Fin n) (p : PacketPtr) (k : Nat) :
    ((Shared.pushed · i p)^[k] m).packets.refs p = m.packets.refs p + k := by
  induction k generalizing m with
  | zero => simp
  | succ k ih =>
      have once : (m.pushed i p).packets.refs p = m.packets.refs p + 1 := Function.update_self ..
      rw [Function.iterate_succ_apply, ih, once]
      omega

theorem length_pushBounded {α : Type} {capacity : Nat} {queue : List α} (x : α)
    (fits : queue.length ≤ capacity) : (pushBounded capacity queue x).length ≤ capacity := by
  unfold pushBounded
  split
  · rw [List.length_append]
    exact ‹_›
  · exact fits

theorem sendBuf_pushed (i : Fin n) (p : PacketPtr) (k : Nat)
    (fits : (m.slot i).sendBuf.length ≤ sendCapacity) :
    ((((Shared.pushed · i p)^[k] m).slot i).sendBuf.length ≤ sendCapacity) := by
  induction k generalizing m with
  | zero => exact fits
  | succ k ih =>
      apply ih
      have here : (m.pushed i p).slot i =
          { m.slot i with sendBuf := pushBounded sendCapacity (m.slot i).sendBuf p } :=
        m.slot_setSlot_self i _
      rw [here]
      exact length_pushBounded p fits

/-- What one `SendPacket` leaves alone, any number do. -/
theorem kept_pushed {γ : Type} {g : Shared n → γ} {i : Fin n} {p : PacketPtr}
    (kept : ∀ m, g (m.pushed i p) = g m) (k : Nat) : g ((Shared.pushed · i p)^[k] m) = g m := by
  induction k generalizing m with
  | zero => rfl
  | succ k ih => rw [Function.iterate_succ_apply, ih, kept]

theorem completeSendBuf_pushed (i : Fin n) (p : PacketPtr) (k : Nat) :
    (((Shared.pushed · i p)^[k] m).slot i).completeSendBuf = (m.slot i).completeSendBuf := by
  refine kept_pushed (g := fun m => (m.slot i).completeSendBuf) ?_ k
  intro m
  have here : (m.pushed i p).slot i =
      { m.slot i with sendBuf := pushBounded sendCapacity (m.slot i).sendBuf p } :=
    m.slot_setSlot_self i _
  rw [here]

end Full

/-- The caller sends a packet to the first session, whose `WSASend` stays
pending, and has another one to send to it `k` times. -/
def sendOne (k : Nat) : List (Nat × Choice 1) :=
  acceptOne ++ (1, .call (.broadcast [firstID])) :: List.replicate 16 (1, .none) ++
    (1, .outcome true) :: List.replicate 2 (1, .none) ++
    [(1, .call (.broadcast (List.replicate k firstID)))]

theorem sendOne_reaches (k : Nat) :
    ∃ s, (iocp 1).run (sendOne k) (Shared.boot 1 0 [.caller]) = some s ∧
      s.threads = [[.acceptThread .accept],
        [.alloc (.response (List.replicate k firstID)), .caller]] ∧
      (s.mem.slot 0).Busy firstID ∧ (s.mem.slot 0).sendBuf = [] ∧
      (s.mem.slot 0).completeSendBuf = [0] ∧ s.mem.packets.pool = [] ∧
      s.mem.packets.blocks = 1 ∧ s.mem.packets.redisQ = [] := by
  refine ⟨_, rfl, rfl, ⟨?_, ?_, ?_, ?_⟩, rfl, rfl, rfl, rfl, rfl⟩
  · rfl
  · rfl
  · rfl
  · have two : (2 : Int) ≠ 0 := by decide
    exact two

/-- The second packet is counted for every send, but `sendBuf` has 4096 places. -/
theorem refs_after_sends {k : Nat} (sends : 0 < k) :
    ∃ s, (iocp 1).Steps (fun _ _ _ => True) (Shared.boot 1 0 [.caller]) s ∧
      s.mem.packets.refs 1 = k ∧ owners s 1 ≤ sendCapacity := by
  obtain ⟨⟨m, threads⟩, run, waiting, busy, empty, sent, pool, blocks, redisQ⟩ :=
    sendOne_reaches k
  dsimp only at waiting busy empty sent pool blocks redisQ
  have named : getSessionIndex firstID = (0 : Fin 1) := by decide
  let refs := Function.update m.packets.refs 1 1
  let m₁ : Shared 1 := { m with packets := { refs := refs, pool := [], blocks := 2, redisQ := [] } }
  let m₂ := (Shared.pushed · 0 1)^[k] m₁
  have counted : m₂.packets.refs 1 = 1 + k := refs_pushed 0 1 k
  let m₃ : Shared 1 := { m₂ with packets := { m₂.packets with
    refs := Function.update m₂.packets.refs 1 (m₂.packets.refs 1 - 1) } }
  have takes : PacketOp.takeBlock.exec m.packets =
      (1, ⟨m.packets.refs, [], 2, []⟩) := by
    obtain ⟨slot, server, refs, pool', blocks', redisQ'⟩ := m
    dsimp only at pool blocks redisQ ⊢
    subst pool blocks redisQ
    rfl
  have drops : (PacketOp.subRef 1).exec m₂.packets = (false, m₃.packets) := by
    have more : m₂.packets.refs 1 - 1 ≠ 0 := by omega
    rw [PacketOp.exec, decide_eq_false more]
  have alone : (iocp 1).Solo m [.alloc (.response (List.replicate k firstID))] m₃ := by
    have sends : (iocp 1).Solo m₁
        ((AllocUse.response (List.replicate k firstID) : AllocUse 1).frames 1 ++ []) m₃ := by
      rw [List.append_nil]
      have one : (iocp 1).Solo m₁ _ m₂ := solo_sends_of_busy (m := m₁) 1 named busy k
      exact one.append (solo_of_packet rfl drops (.done _))
    exact solo_of_packet rfl takes (solo_of_packet rfl rfl sends)
  have here : threads[1]? = some ([.alloc (.response (List.replicate k firstID))] ++
      [Frame.caller]) := by
    rw [waiting]
    rfl
  refine ⟨_, (Machine.Steps.of_run run).trans (Machine.Steps.of_solo alone here), ?_, ?_⟩
  · show Function.update m₂.packets.refs 1 (m₂.packets.refs 1 - 1) 1 = k
    rw [Function.update_self]
    omega
  · have first : (m₁.slot 0).sendBuf.length ≤ sendCapacity := by
      rw [show (m₁.slot 0).sendBuf = [] from empty]
      exact Nat.zero_le _
    have fits : (m₃.slot 0).sendBuf.length ≤ sendCapacity := sendBuf_pushed 0 1 k first
    have within := List.count_le_length (a := 1) (l := (m₃.slot 0).sendBuf)
    have others : (m₃.slot 0).completeSendBuf = [0] := (completeSendBuf_pushed 0 1 k).trans sent
    have redis : m₃.packets.redisQ = [] :=
      kept_pushed (g := fun m => m.packets.redisQ) (fun _ => rfl) k
    have frames : Conf.tally (Frame.owned 1)
      (⟨m₃, [[.acceptThread .accept], [.caller]]⟩ : Conf (Frame 1) (Shared 1)) = 0 := rfl
    have slots : m₃.queued 1 = (m₃.slot 0).queued 1 := by
      rw [Shared.queued, redis, Finset.univ_unique, Finset.sum_singleton]
      rfl
    rw [waiting]
    unfold owners
    show Conf.tally (Frame.owned 1)
      (⟨m₃, [[.acceptThread .accept], [.caller]]⟩ : Conf (Frame 1) (Shared 1)) + m₃.queued 1 ≤ _
    rw [frames, slots, Session.queued, others]
    exact Nat.zero_add _ ▸ within.trans fits

/-- The count of a packet can exceed its owners. -/
theorem packet_lost :
    ∃ s, (iocp 1).Steps (fun _ _ _ => True) (Shared.boot 1 0 [.caller]) s ∧
      s.mem.packets.refs 1 ≠ owners s 1 := by
  obtain ⟨s, run, refs, owned⟩ := refs_after_sends (Nat.succ_pos sendCapacity)
  refine ⟨s, run, ?_⟩
  omega

end ChattingServer
