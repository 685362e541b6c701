import ChattingServer.IOCPServer
import Mathlib.Algebra.BigOperators.Group.Finset.Basic
import Mathlib.Data.Fintype.Basic

/-!
# Who owns a packet

The owners of a packet are the places in the running threads that will still
drop a reference to it, and its occurrences in the send queues of all sessions
and in `redisQ`.  An operation hands ownership to its thread (`acquired`) or
takes it (`surrendered`); `owned_next` checks the frames against that, and
`refs_exec` the memory.  What the two leave over is a push that finds its queue
full, and a frame of which `Dequeue` comes up short: both drop a reference that
nobody has then.
-/

namespace ChattingServer

variable {n : Nat}

/-! ## Owners -/

@[simp] def AllocUse.owned (p : PacketPtr) : AllocUse n → Nat
  | .loginResult _ job => share job p
  | _ => 0

/-- The references to `p` that the frame has still to drop or pass on. -/
@[simp] def Frame.owned (p : PacketPtr) : Frame n → Nat
  | .sendPacket .push _ q => share q p
  | .postSend (.move q _) _ => share q p
  | .recvComplete (.dequeue q) _ => share q p
  | .recvComplete (.decode q) _ => share q p
  | .recvComplete (.handle q) _ => share q p
  | .alloc use => use.owned p
  | .setRef _ use => use.owned p
  | .subRef q => share q p
  | .loginPush _ q => share q p
  | .completeLogin _ result job => share result p + share job p
  | _ => 0

/-- The places of `p` in the queues of a session. -/
def Session.queued (p : PacketPtr) (s : Session) : Nat :=
  s.sendBuf.count p + s.completeSendBuf.count p

/-- The places of `p` in all queues. -/
def Shared.queued (p : PacketPtr) (m : Shared n) : Nat :=
  ∑ i, (m.slot i).queued p + (m.packets.redisQ.map Prod.snd).count p

/-- The owners of a packet. -/
def owners (s : Conf (Frame n) (Shared n)) (p : PacketPtr) : Nat :=
  s.tally (Frame.owned p) + s.mem.queued p

/-- An `Alloc` has `p` from the pool and not yet counted it, or a `SubRef` has
counted it out and not yet put it back. -/
@[simp] def Frame.moving (p : PacketPtr) : Frame n → Nat
  | .setRef q _ => share q p
  | .free q => share q p
  | _ => 0

/-! ## What operations do to ownership -/

@[simp] def SessionOp.acquired (p : PacketPtr) : {α : Type} → SessionOp α → α → Nat
  | _, .popSend, some q => share q p
  | _, .popComplete, some q => share q p
  | _, _, _ => 0

@[simp] def PacketOp.acquired (p : PacketPtr) : {α : Type} → PacketOp α → α → Nat
  | _, .setRef q, _ => share q p
  | _, .addRef q, _ => share q p
  | _, .popRedis, some job => share job.2 p
  | _, _, _ => 0

/-- The references to `p` that the operation gives its thread. -/
@[simp] def Op.acquired (p : PacketPtr) : {α : Type} → Op n α → α → Nat
  | _, .session _ op, r => op.acquired p r
  | _, .packet op, r => op.acquired p r
  | _, _, _ => 0

@[simp] def SessionOp.surrendered (p : PacketPtr) : {α : Type} → SessionOp α → Nat
  | _, .pushSend q => share q p
  | _, .pushComplete q => share q p
  | _, _ => 0

@[simp] def PacketOp.surrendered (p : PacketPtr) : {α : Type} → PacketOp α → Nat
  | _, .subRef q => share q p
  | _, .pushRedis _ q => share q p
  | _, _ => 0

/-- The references to `p` that the operation takes from its thread. -/
@[simp] def Op.surrendered (p : PacketPtr) : {α : Type} → Op n α → Nat
  | _, .session _ op => op.surrendered p
  | _, .packet op => op.surrendered p
  | _, _ => 0

theorem owned_frames_lock (p q : PacketPtr) (ids : List UINT64) :
    ((ids.map fun id => (Frame.lock id (.send q) : Frame n)).map (Frame.owned p)).sum = 0 := by
  induction ids with
  | nil => rfl
  | cons id ids ih => simpa using ih

/-- Frames pass on what they own: what a frame has and its operation brings is
what its successors have and its operation takes. -/
theorem owned_next (p : PacketPtr) (f : Frame n) (r : f.act.α)
    (kept : ∀ q i, f = .recvComplete (.dequeue q) i → HEq r true) :
    ((f.act.next r).map (Frame.owned p)).sum + f.act.op.surrendered p =
      f.owned p + f.act.op.acquired p r := by
  have goes := f.goes r
  generalize f.act.next r = fs at goes ⊢
  cases goes with
  | lock id use r i named =>
      clear kept
      revert r
      rw [Frame.act_lock_of_lt use named]
      exact fun _ => rfl
  | lockStray id use r outside =>
      clear kept
      revert r
      rw [Frame.act_lock_of_le use outside]
      exact fun _ => rfl
  | dequeuedShort i q => exact absurd (eq_of_heq (kept q i rfl)) Bool.false_ne_true
  | setRefResponse q targets =>
      rw [List.map_append, List.sum_append, owned_frames_lock]
      simp
  | _ => simp [Nat.add_comm]

/-! ## The memory -/

/-- The operation finds room for what it pushes. -/
def SessionOp.HasRoom (s : Session) : {α : Type} → SessionOp α → Prop
  | _, .pushSend _ => s.sendBuf.length < sendCapacity
  | _, .pushComplete _ => s.completeSendBuf.length < sendCapacity
  | _, _ => True

theorem count_pushBounded {α : Type} [DecidableEq α] {capacity : Nat} {queue : List α} (x y : α)
    (room : queue.length < capacity) :
    (pushBounded capacity queue x).count y = queue.count y + [x].count y := by
  rw [pushBounded, if_pos room, List.count_append]

/-- Queues hold what they held, less what was popped, and what was pushed. -/
theorem SessionOp.queued_exec {α : Type} (p : PacketPtr) (op : SessionOp α) (s : Session)
    (room : op.HasRoom s) :
    (op.exec s).2.queued p + op.acquired p (op.exec s).1 = s.queued p + op.surrendered p := by
  cases op with
  | pushSend q =>
      have pushed := count_pushBounded q p room
      rw [count_singleton_share] at pushed
      simp only [exec, Session.queued, acquired, surrendered, pushed]
      omega
  | pushComplete q =>
      have pushed := count_pushBounded q p room
      rw [count_singleton_share] at pushed
      simp only [exec, Session.queued, acquired, surrendered, pushed]
      omega
  | popSend =>
      have popped := count_tail_share s.sendBuf p
      simp only [exec, Session.queued, surrendered]
      cases first : s.sendBuf.head? with
      | none =>
          rw [first] at popped
          simp only [Option.elim_none] at popped
          simp only [acquired]
          omega
      | some q =>
          rw [first] at popped
          simp only [Option.elim_some] at popped
          simp only [acquired]
          omega
  | popComplete =>
      have popped := count_tail_share s.completeSendBuf p
      simp only [exec, Session.queued, surrendered]
      cases first : s.completeSendBuf.head? with
      | none =>
          rw [first] at popped
          simp only [Option.elim_none] at popped
          simp only [acquired]
          omega
      | some q =>
          rw [first] at popped
          simp only [Option.elim_some] at popped
          simp only [acquired]
          omega
  | _ => rfl

/-- Replacing one session replaces its part of the queues. -/
theorem queued_setSlot (p : PacketPtr) (m : Shared n) (i : Fin n) (s : Session) :
    (m.setSlot i s).queued p + (m.slot i).queued p = m.queued p + s.queued p := by
  have others : ∑ j ∈ Finset.univ.erase i, ((m.setSlot i s).slot j).queued p =
      ∑ j ∈ Finset.univ.erase i, (m.slot j).queued p := by
    apply Finset.sum_congr rfl
    intro j member
    rw [m.slot_setSlot_of_ne (Finset.ne_of_mem_erase member)]
  have new := Finset.add_sum_erase Finset.univ (fun j => ((m.setSlot i s).slot j).queued p)
    (Finset.mem_univ i)
  have old := Finset.add_sum_erase Finset.univ (fun j => (m.slot j).queued p) (Finset.mem_univ i)
  have same : (m.setSlot i s).packets = m.packets := rfl
  rw [m.slot_setSlot_self] at new
  unfold Shared.queued
  rw [same]
  omega

theorem Session.queued_outstanding (p : PacketPtr) (s : Session) (isSend : Bool) :
    (s.outstanding isSend).queued p = s.queued p := by
  cases isSend <;> rfl

theorem Session.queued_completed {p : PacketPtr} {s s' : Session} {isSend : Bool}
    (done : s.completed isSend = some s') : s'.queued p = s.queued p := by
  rcases completed_cases done with ⟨-, -, rfl⟩ | ⟨-, -, rfl⟩ <;> rfl

/-- The operation finds room for what it pushes, a packet that it counts in has
no owner, and one that changes hands has. -/
def PacketOp.Ready (k : Packets) : {α : Type} → PacketOp α → Prop
  | _, .setRef q => k.refs q = 0
  | _, .addRef q => 0 < k.refs q
  | _, .subRef q => 0 < k.refs q
  | _, .pushRedis _ _ => k.redisQ.length < redisCapacity
  | _, _ => True

def Op.Ready (m : Shared n) : {α : Type} → Op n α → Prop
  | _, .session i op => op.HasRoom (m.slot i)
  | _, .packet op => op.Ready m.packets
  | _, _ => True

/-- The places of `p` in `redisQ`. -/
def Packets.queued (p : PacketPtr) (k : Packets) : Nat := (k.redisQ.map Prod.snd).count p

theorem update_share (refs : PacketPtr → Int) (q p : PacketPtr) (x : Int) :
    Function.update refs q x p = if q = p then x else refs p := by
  rw [Function.update_apply]
  simp only [eq_comm]

theorem PacketOp.refs_exec {α : Type} (p : PacketPtr) (op : PacketOp α) (k : Packets)
    (ready : op.Ready k) :
    (op.exec k).2.refs p + op.surrendered p + k.queued p =
      k.refs p + op.acquired p (op.exec k).1 + (op.exec k).2.queued p := by
  cases op with
  | takeBlock =>
      obtain ⟨refs, pool, blocks, redisQ⟩ := k
      cases pool <;> rfl
  | setRef q =>
      have zero : k.refs q = 0 := ready
      simp only [exec, surrendered, acquired, Packets.queued, share, update_share]
      split
      · rename_i same
        subst same
        rw [zero]
        omega
      · omega
  | addRef q =>
      simp only [exec, surrendered, acquired, Packets.queued, share, update_share]
      split
      · rename_i same
        subst same
        omega
      · omega
  | subRef q =>
      simp only [exec, surrendered, acquired, Packets.queued, share, update_share]
      split
      · rename_i same
        subst same
        omega
      · omega
  | freeBlock q => rfl
  | pushRedis id q =>
      have room : k.redisQ.length < redisCapacity := ready
      have pushed : (pushBounded redisCapacity k.redisQ (id, q)).map Prod.snd =
          k.redisQ.map Prod.snd ++ [q] := by
        rw [pushBounded, if_pos room, List.map_append]
        rfl
      simp only [exec, surrendered, acquired, Packets.queued, pushed, List.count_append,
        count_singleton_share]
      omega
  | popRedis =>
      have popped := count_tail_share (k.redisQ.map Prod.snd) p
      rw [← List.map_tail] at popped
      simp only [exec, surrendered, Packets.queued]
      cases first : k.redisQ.head? with
      | none =>
          rw [List.head?_map, first] at popped
          simp only [Option.map_none, Option.elim_none] at popped
          simp only [acquired]
          omega
      | some job =>
          rw [List.head?_map, first] at popped
          simp only [Option.map_some, Option.elim_some] at popped
          simp only [acquired]
          omega

/-- What an operation outside packets and sessions leaves alone. -/
theorem queued_of_setSlot {p : PacketPtr} {m : Shared n} {i : Fin n} {s : Session}
    (same : s.queued p = (m.slot i).queued p) : (m.setSlot i s).queued p = m.queued p := by
  have set := queued_setSlot p m i s
  omega

/-- **The count of a packet follows its owners.** -/
theorem refs_exec {α : Type} (p : PacketPtr) {op : Op n α} {c : Choice n} {m m' : Shared n} {r : α}
    (done : exec op c m = some (r, m')) (ready : op.Ready m) :
    m'.packets.refs p + op.surrendered p + m.queued p =
      m.packets.refs p + op.acquired p r + m'.queued p := by
  cases op with
  | session i op =>
      cases done
      have queues := op.queued_exec p (m.slot i) ready
      have set := queued_setSlot p m i (op.exec (m.slot i)).2
      have same : (m.setSlot i (op.exec (m.slot i)).2).packets = m.packets := rfl
      rw [same]
      simp only [Op.surrendered, Op.acquired]
      omega
  | server op =>
      obtain ⟨⟨r', server⟩, -, same⟩ := Option.map_eq_some_iff.mp done
      cases same
      rfl
  | packet op =>
      cases done
      have refs := op.refs_exec p m.packets ready
      simp only [Op.surrendered, Op.acquired, Shared.queued, Packets.queued] at refs ⊢
      omega
  | outside op =>
      obtain ⟨r', -, same⟩ := Option.map_eq_some_iff.mp done
      cases same
      rfl
  | wsaRecv i =>
      rcases Shared.issue_cases done with ⟨-, rfl⟩ | ⟨-, rfl⟩
      · rw [queued_of_setSlot (Session.queued_outstanding p _ _)]
        rfl
      · rfl
  | wsaSend i =>
      rcases Shared.issue_cases done with ⟨-, rfl⟩ | ⟨-, rfl⟩
      · rw [queued_of_setSlot (Session.queued_outstanding p _ _)]
        rfl
      · rfl
  | completion =>
      obtain ⟨s, completed, rfl⟩ := Shared.complete_cases done
      rw [queued_of_setSlot (Session.queued_completed completed)]
      rfl
  | undefined => cases done

/-! ## Between the pool and its owners -/

/-- The operation takes `p` from the pool, or counts its last reference out. -/
@[simp] def PacketOp.lifted (p : PacketPtr) : {α : Type} → PacketOp α → α → Nat
  | _, .takeBlock, q => share q p
  | _, .subRef q, true => share q p
  | _, _, _ => 0

@[simp] def Op.lifted (p : PacketPtr) : {α : Type} → Op n α → α → Nat
  | _, .packet op, r => op.lifted p r
  | _, _, _ => 0

/-- The operation counts `p` in, or puts it back. -/
@[simp] def PacketOp.settled (p : PacketPtr) : {α : Type} → PacketOp α → Nat
  | _, .setRef q => share q p
  | _, .freeBlock q => share q p
  | _, _ => 0

@[simp] def Op.settled (p : PacketPtr) : {α : Type} → Op n α → Nat
  | _, .packet op => op.settled p
  | _, _ => 0

theorem moving_frames_lock (p q : PacketPtr) (ids : List UINT64) :
    ((ids.map fun id => (Frame.lock id (.send q) : Frame n)).map (Frame.moving p)).sum = 0 := by
  induction ids with
  | nil => rfl
  | cons id ids ih => simpa using ih

theorem moving_next (p : PacketPtr) (f : Frame n) (r : f.act.α) :
    ((f.act.next r).map (Frame.moving p)).sum + f.act.op.settled p =
      f.moving p + f.act.op.lifted p r := by
  have goes := f.goes r
  generalize f.act.next r = fs at goes ⊢
  cases goes with
  | lock id use r i named =>
      revert r
      rw [Frame.act_lock_of_lt use named]
      exact fun _ => rfl
  | lockStray id use r outside =>
      revert r
      rw [Frame.act_lock_of_le use outside]
      exact fun _ => rfl
  | setRefResponse q targets =>
      rw [List.map_append, List.sum_append, moving_frames_lock]
      simp
  | _ => simp

/-- One for a packet with this count. -/
def inUse (refs : Int) : Nat := if refs = 0 then 0 else 1

theorem inUse_zero : inUse 0 = 0 := rfl

theorem inUse_of_pos {refs : Int} (pos : 0 < refs) : inUse refs = 1 := if_neg pos.ne'

/-- One for a packet that has been made. -/
def made (blocks : Nat) (p : PacketPtr) : Nat := if p < blocks then 1 else 0

theorem made_succ (blocks : Nat) (p : PacketPtr) :
    made (blocks + 1) p = made blocks p + share blocks p := by
  unfold made share
  rcases Nat.lt_trichotomy p blocks with old | rfl | new
  · rw [if_pos old, if_pos (Nat.lt_succ_of_lt old), if_neg (Nat.ne_of_gt old)]
  · rw [if_neg (Nat.lt_irrefl p), if_pos (Nat.lt_succ_self p), if_pos rfl]
  · rw [if_neg (Nat.lt_asymm new), if_neg (Nat.not_lt.mpr new), if_neg (Nat.ne_of_lt new)]

/-- A packet leaves the pool, is counted, counted out and comes back, one at a
time. -/
theorem PacketOp.pool_exec {α : Type} (p : PacketPtr) (op : PacketOp α) (k : Packets)
    (ready : op.Ready k) :
    (op.exec k).2.pool.count p + inUse ((op.exec k).2.refs p) + op.lifted p (op.exec k).1 +
        made k.blocks p =
      k.pool.count p + inUse (k.refs p) + op.settled p + made (op.exec k).2.blocks p := by
  cases op with
  | takeBlock =>
      obtain ⟨refs, pool, blocks, redisQ⟩ := k
      cases pool with
      | nil =>
          simp only [exec, lifted, settled, made_succ]
          omega
      | cons q rest =>
          simp only [exec, lifted, settled, count_cons_share]
          omega
  | setRef q =>
      have zero : k.refs q = 0 := ready
      simp only [exec, lifted, settled]
      rcases eq_or_ne q p with rfl | other
      · rw [Function.update_self, zero, inUse_zero, share_self]
        rfl
      · rw [Function.update_of_ne other.symm, share_of_ne other]
  | addRef q =>
      have owned : 0 < k.refs q := ready
      simp only [exec, lifted, settled]
      rcases eq_or_ne q p with rfl | other
      · rw [Function.update_self, inUse_of_pos owned, inUse_of_pos (by omega)]
      · rw [Function.update_of_ne other.symm]
  | subRef q =>
      have owned : 0 < k.refs q := ready
      simp only [exec, settled]
      rcases eq_or_ne q p with rfl | other
      · rw [Function.update_self, inUse_of_pos owned]
        rcases eq_or_ne (k.refs q - 1) 0 with last | more
        · rw [last, inUse_zero, decide_eq_true rfl]
          simp only [lifted, share_self]
        · rw [inUse_of_pos (by omega), decide_eq_false more]
          rfl
      · rw [Function.update_of_ne other.symm]
        cases decide (k.refs q - 1 = 0) with
        | true => simp only [lifted, share_of_ne other]
        | false => rfl
  | freeBlock q =>
      simp only [exec, lifted, settled, count_cons_share]
      omega
  | pushRedis id q => rfl
  | popRedis => rfl

theorem pool_exec {α : Type} (p : PacketPtr) {op : Op n α} {c : Choice n} {m m' : Shared n} {r : α}
    (done : exec op c m = some (r, m')) (ready : op.Ready m) :
    m'.packets.pool.count p + inUse (m'.packets.refs p) + op.lifted p r +
        made m.packets.blocks p =
      m.packets.pool.count p + inUse (m.packets.refs p) + op.settled p +
        made m'.packets.blocks p := by
  cases op with
  | session i op =>
      cases done
      rfl
  | server op =>
      obtain ⟨⟨r', server⟩, -, same⟩ := Option.map_eq_some_iff.mp done
      cases same
      rfl
  | packet op =>
      cases done
      exact op.pool_exec p m.packets ready
  | outside op =>
      obtain ⟨r', -, same⟩ := Option.map_eq_some_iff.mp done
      cases same
      rfl
  | wsaRecv i => rcases Shared.issue_cases done with ⟨-, rfl⟩ | ⟨-, rfl⟩ <;> rfl
  | wsaSend i => rcases Shared.issue_cases done with ⟨-, rfl⟩ | ⟨-, rfl⟩ <;> rfl
  | completion =>
      obtain ⟨s, -, rfl⟩ := Shared.complete_cases done
      rfl
  | undefined => cases done

end ChattingServer
