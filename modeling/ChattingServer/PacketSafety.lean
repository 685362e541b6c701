import ChattingServer.PacketConservation

/-!
# No packet is used after it is freed

Two things lose references: a push that finds its queue full, and a frame of
which `Dequeue` comes up short.  Both leave a count too high, and no step leaves
one too low.  So in every run whatsoever, with stale IDs, full queues and frames
cut short, a packet that a thread has in hand or that is in a queue is counted,
and none of the pool is (`packets_alive`): packets can be lost but not freed
early or freed twice.
-/

namespace ChattingServer

variable {n : Nat}

/-! ## Lost references -/

/-- The operation finds no room for what it pushes. -/
def Op.Full (m : Shared n) : {α : Type} → Op n α → Prop
  | _, .session i op => ¬ op.HasRoom (m.slot i)
  | _, .packet (.pushRedis _ _) => redisCapacity ≤ m.packets.redisQ.length
  | _, _ => False

/-- A push that finds no room changes nothing. -/
theorem SessionOp.exec_of_full {s : Session} {α : Type} {op : SessionOp α}
    (full : ¬ op.HasRoom s) : (op.exec s).2 = s := by
  cases op with
  | pushSend q =>
      have same : pushBounded sendCapacity s.sendBuf q = s.sendBuf := if_neg full
      rw [exec, same]
  | pushComplete q =>
      have same : pushBounded sendCapacity s.completeSendBuf q = s.completeSendBuf := if_neg full
      rw [exec, same]
  | _ => exact absurd trivial full

section Full

variable {α : Type} {op : Op n α} {c : Choice n} {m m' : Shared n} {r : α}

theorem exec_of_full (full : op.Full m) (done : exec op c m = some (r, m')) : m' = m := by
  cases op with
  | session i op =>
      cases done
      rw [SessionOp.exec_of_full full, m.setSlot_slot]
  | packet op =>
      cases op with
      | pushRedis id q =>
          cases done
          have same : pushBounded redisCapacity m.packets.redisQ (id, q) = m.packets.redisQ :=
            if_neg (Nat.not_lt.mpr full)
          simp only [PacketOp.exec, same]
      | _ => exact full.elim
  | _ => exact full.elim

/-- A push that finds the queue full hands its thread no packet, and settles none. -/
theorem Op.idle_of_full (full : op.Full m) (p : PacketPtr) (r : α) :
    op.acquired p r = 0 ∧ op.lifted p r = 0 ∧ op.settled p = 0 := by
  cases op with
  | session i op =>
      cases op with
      | pushSend q => exact ⟨rfl, rfl, rfl⟩
      | pushComplete q => exact ⟨rfl, rfl, rfl⟩
      | _ => exact absurd trivial full
  | packet op =>
      cases op with
      | pushRedis id q => exact ⟨rfl, rfl, rfl⟩
      | _ => exact full.elim
  | _ => exact full.elim

end Full

/-- Frames pass on what they own, or lose it. -/
theorem owned_next_le (p : PacketPtr) (f : Frame n) (r : f.act.α) :
    ((f.act.next r).map (Frame.owned p)).sum + f.act.op.surrendered p ≤
      f.owned p + f.act.op.acquired p r := by
  by_cases short : ∃ q i, f = .recvComplete (.dequeue q) i ∧ HEq r false
  · obtain ⟨q, i, rfl, found⟩ := short
    obtain rfl : r = false := eq_of_heq found
    exact Nat.zero_le _
  · refine (owned_next p f r ?_).le
    intro q i dequeues
    subst dequeues
    cases r with
    | true => rfl
    | false => exact absurd ⟨q, i, rfl, HEq.rfl⟩ short

/-! ## The invariant -/

/-- Every packet is counted at least once for each owner, and is in the pool, on
its way, or counted. -/
structure Alive (s : Conf (Frame n) (Shared n)) : Prop where
  refs : ∀ p, (owners s p : Int) ≤ s.mem.packets.refs p
  once : ∀ p, s.mem.packets.pool.count p + inUse (s.mem.packets.refs p) +
    s.tally (Frame.moving p) = made s.mem.packets.blocks p
  lent : s.Forall Lent

theorem Alive.boot (n : Nat) (sessionID : UINT64) (kinds : List ThreadKind) :
    Alive (Shared.boot n sessionID kinds) := by
  have start := Conserved.boot n sessionID kinds
  exact ⟨fun p => (start.refs p).ge, start.once, start.lent⟩

section Alive

variable {s : Conf (Frame n) (Shared n)} (alive : Alive s) {p : PacketPtr}
include alive

theorem Alive.refs_pos (owned : 0 < owners s p) : 0 < s.mem.packets.refs p := by
  have refs := alive.refs p
  omega

theorem Alive.refs_pos_of_owned {stack : List (Frame n)} (here : stack ∈ s.threads) {g : Frame n}
    (member : g ∈ stack) (owned : 0 < g.owned p) : 0 < s.mem.packets.refs p := by
  have part := Conf.le_tally (w := Frame.owned p) here member
  refine alive.refs_pos ?_
  unfold owners
  omega

/-- Who borrows a packet has somebody below that owns it. -/
theorem Alive.refs_pos_of_borrows {stack : List (Frame n)} (here : stack ∈ s.threads)
    {g : Frame n} (member : g ∈ stack) (borrows : g.borrows = some p) :
    0 < s.mem.packets.refs p := by
  obtain ⟨owner, below, rfl⟩ := Supported.exists_offer (alive.lent _ here) member borrows
  exact alive.refs_pos_of_owned here below (share_self p).ge

/-- A packet that is counted is neither in the pool nor on its way. -/
theorem Alive.apart (counted : s.mem.packets.refs p ≠ 0) :
    p ∉ s.mem.packets.pool ∧ s.tally (Frame.moving p) = 0 := by
  have once := alive.once p
  have one : inUse (s.mem.packets.refs p) = 1 := if_neg counted
  have atMost : made s.mem.packets.blocks p ≤ 1 := by
    unfold made
    split <;> omega
  refine ⟨?_, by omega⟩
  intro member
  have inside := List.count_pos_iff.mpr member
  omega

theorem Alive.refs_zero {stack : List (Frame n)} (here : stack ∈ s.threads) {g : Frame n}
    (member : g ∈ stack) (moving : 0 < g.moving p) : s.mem.packets.refs p = 0 := by
  by_contra counted
  have part := Conf.le_tally (w := Frame.moving p) here member
  have none := (alive.apart counted).2
  omega

theorem Alive.ready_or_full {t : Nat} {f : Frame n} {rest : List (Frame n)}
    (here : s.threads[t]? = some (f :: rest)) : f.act.op.Ready s.mem ∨ f.act.op.Full s.mem := by
  have stack := List.mem_of_getElem? here
  cases f with
  | lock id use =>
      rcases Frame.act_lock_cases id use with ⟨i, -, act⟩ | act
      · rw [act]
        exact Or.inl trivial
      · rw [act]
        exact Or.inl trivial
  | acceptThread pc => cases pc <;> exact Or.inl trivial
  | postRecv pc i who => cases pc <;> exact Or.inl trivial
  | disConnect pc i => cases pc <;> exact Or.inl trivial
  | releaseSession pc i => cases pc <;> exact Or.inl trivial
  | sessionLock pc i id use => cases pc <;> exact Or.inl trivial
  | sendPacket pc i q =>
      cases pc with
      | addRef => exact Or.inl (alive.refs_pos_of_borrows stack List.mem_cons_self rfl)
      | push => exact em _
      | check => exact Or.inl trivial
  | postSend pc i =>
      cases pc with
      | move q k => exact em _
      | _ => exact Or.inl trivial
  | sendComplete pc i => cases pc <;> exact Or.inl trivial
  | recvComplete pc i => cases pc <;> exact Or.inl trivial
  | workerThread pc => cases pc <;> exact Or.inl trivial
  | setRef q use => exact Or.inl (alive.refs_zero stack List.mem_cons_self (share_self q).ge)
  | subRef q => exact Or.inl (alive.refs_pos_of_owned stack List.mem_cons_self (share_self q).ge)
  | loginAddRef id q => exact Or.inl (alive.refs_pos_of_borrows stack List.mem_cons_self rfl)
  | loginPush id q => exact Nat.lt_or_ge ..
  | _ => exact Or.inl trivial

end Alive

/-- No step leaves a count too low. -/
theorem Alive.step {s s' : Conf (Frame n) (Shared n)} {t : Nat} {c : Choice n} (alive : Alive s)
    (step : (iocp n).step s t c = some s') : Alive s' := by
  obtain ⟨f, rest, r, m, here, done, rfl⟩ := iocp_step_cases step
  refine ⟨?_, ?_, Machine.forall_step alive.lent here (lent_next f rest r)⟩
  · intro p
    have frames := owned_next_le p f r
    have tally := Machine.tally_step (Frame.owned p) here (f.act.next r) m
    have before := alive.refs p
    unfold owners at before ⊢
    dsimp only
    rcases alive.ready_or_full here with ready | full
    · have memory := refs_exec p done ready
      omega
    · obtain rfl := exec_of_full full done
      have idle := (Op.idle_of_full full p r).1
      omega
  · intro p
    have frames := moving_next p f r
    have tally := Machine.tally_step (Frame.moving p) here (f.act.next r) m
    have before := alive.once p
    dsimp only
    rcases alive.ready_or_full here with ready | full
    · have memory := pool_exec p done ready
      omega
    · obtain rfl := exec_of_full full done
      obtain ⟨-, lifted, settled⟩ := Op.idle_of_full full p r
      omega

theorem Alive.of_run {sessionID : UINT64} {kinds : List ThreadKind} {s : Conf (Frame n) (Shared n)}
    (run : (iocp n).Steps (fun _ _ _ => True) (Shared.boot n sessionID kinds) s) : Alive s :=
  run.invariant (.boot n sessionID kinds) fun _ _ _ _ before _ step => before.step step

/-- **No packet is used after it is freed**, in any run.  A packet that a thread
owns or has borrowed, or that is in a queue, is counted, and neither in the pool
nor on its way there; a count is never below the number of owners; and each packet
that has been made is in the pool once, on its way once, or counted. -/
theorem packets_alive {n : Nat} {sessionID : UINT64} {kinds : List ThreadKind}
    {s : Conf (Frame n) (Shared n)}
    (run : (iocp n).Steps (fun _ _ _ => True) (Shared.boot n sessionID kinds) s) (p : PacketPtr) :
    (0 < owners s p ∨ (∃ stack ∈ s.threads, ∃ f ∈ stack, f.borrows = some p) →
      0 < s.mem.packets.refs p ∧ p ∉ s.mem.packets.pool ∧ s.tally (Frame.moving p) = 0) ∧
    owners s p ≤ s.mem.packets.refs p ∧
    s.mem.packets.pool.count p + (if s.mem.packets.refs p = 0 then 0 else 1) +
      s.tally (Frame.moving p) = if p < s.mem.packets.blocks then 1 else 0 := by
  have alive := Alive.of_run run
  refine ⟨?_, alive.refs p, alive.once p⟩
  intro held
  have counted : 0 < s.mem.packets.refs p := by
    rcases held with owned | ⟨stack, here, f, member, borrows⟩
    · exact alive.refs_pos owned
    · exact alive.refs_pos_of_borrows here member borrows
  exact ⟨counted, alive.apart counted.ne'⟩

/-- A packet is sent 4097 times to a session whose `WSASend` is pending, so that one
push finds `sendBuf` full and its reference is never dropped.  The packet is
counted more often than it is owned, and stays out of the pool. -/
theorem packets_alive_full :
    ∃ s, (iocp 1).Steps (fun _ _ _ => True) (Shared.boot 1 0 [.caller]) s ∧
      owners s 1 < s.mem.packets.refs 1 ∧ s.mem.packets.pool.count 1 = 0 ∧
      s.tally (Frame.moving 1) = 0 := by
  obtain ⟨s, run, refs, owned⟩ := refs_after_sends (Nat.succ_pos sendCapacity)
  have once := (packets_alive run 1).2.2
  rw [if_neg (by omega)] at once
  have made : (if 1 < s.mem.packets.blocks then 1 else 0) ≤ 1 := by split <;> omega
  exact ⟨s, run, by omega, by omega, by omega⟩

end ChattingServer
