import ChattingServer.SendPipeline
import ChattingServer.Sockets

/-!
# No packet reaches another session

A slot serves one session after the other, and `sendBuf` belongs to the slot.
`Post` keeps beside a run what a slot is asked to send: each packet that is
queued with the ID its `SendPacket` was called with and the tenant the slot had
then, and each batch that `WSASend` has taken with the tenant it was taken for.
A `ReleaseSession` empties `sendBuf` before it gives the ID up, and who queues or
sends holds the slot: a packet goes out to the session it was meant for, or to
nobody (`no_misdelivery`).
-/

namespace ChattingServer

variable {n : Nat}

/-! ## The record -/

/-- Whom a slot serves: the ID it bears, the socket it was last given, and how
many IDs have been stored in it. -/
structure Tenant where
  id : UINT64
  sock : Option Nat
  turn : Nat

/-- A packet in `sendBuf`, with the ID that `SendPacket` was called with and
whom the slot served when it was queued. -/
structure Posted where
  packet : PacketPtr
  id : UINT64
  tenant : Tenant

/-- A packet in `sendBuf` was queued while the slot served this tenant, by a call with
the tenant's ID. -/
structure Posted.IsFor (q : Posted) (tenant : Tenant) : Prop where
  whom : q.tenant = tenant
  id : q.id = tenant.id

/-- What `WSASend` was given, and whom the slot served then. -/
structure Batch where
  tenant : Tenant
  packets : List Posted

/-- What one slot is asked to send. -/
structure Post where
  tenant : Tenant
  /-- The ID each thread has last looked for a session with. -/
  called : Nat → UINT64
  sendBuf : List Posted
  /-- The packets in the buffers of each thread's `PostSend`. -/
  wBuf : Nat → List Posted
  batches : List Batch

def Post.nothing : Post where
  tenant := ⟨-1, none, 0⟩
  called := fun _ => 0
  sendBuf := []
  wBuf := fun _ => []
  batches := []

/-- What an operation of thread `t` on the session does to it. -/
def SessionOp.post (t : Nat) (h : Post) : {α : Type} → SessionOp α → Post
  | _, .storeID id => { h with tenant := { h.tenant with id := id, turn := h.tenant.turn + 1 } }
  | _, .storeSock (some sock) => { h with tenant := { h.tenant with sock := some sock } }
  | _, .pushSend p =>
      { h with sendBuf := pushBounded sendCapacity h.sendBuf ⟨p, h.called t, h.tenant⟩ }
  | _, .popSend => { h with sendBuf := h.sendBuf.tail }
  | _, _ => h

def Post.write (i : Fin n) (t : Nat) (h : Post) : {α : Type} → Op n α → Post
  | _, .session j op => if j = i then op.post t h else h
  | _, _ => h

/-- What thread `t` goes on with. -/
def Post.hold (i : Fin n) (t : Nat) (f : Frame n) (r : f.act.α) (h : Post) : Post :=
  match f, r with
  | .lock id _, _ => { h with called := Function.update h.called t id }
  | .postSend .cas j, true =>
      if j = i then { h with wBuf := Function.update h.wBuf t [] } else h
  | .postSend (.pop _) j, some _ =>
      if j = i then
        { h with wBuf := Function.update h.wBuf t (h.wBuf t ++ h.sendBuf.take 1) }
      else
        h
  | .postSend .issue j, true =>
      if j = i then { h with batches := h.batches ++ [⟨h.tenant, h.wBuf t⟩] } else h
  | _, _ => h

def Post.note (i : Fin n) (t : Nat) (f : Frame n) (_ : List (Frame n)) (r : f.act.α) (h : Post) :
    Post :=
  (h.hold i t f r).write i t f.act.op

/-! ## The record and the slot -/

/-- The record tells the truth about the slot. -/
structure Post.Mirrors (h : Post) (s : Session) : Prop where
  id : h.tenant.id = s.sessionID
  sock : s.sock = none ∨ s.sock = h.tenant.sock
  sendBuf : h.sendBuf.map Posted.packet = s.sendBuf

theorem map_pushBounded {α β : Type} (f : α → β) (capacity : Nat) (queue : List α) (x : α) :
    (pushBounded capacity queue x).map f = pushBounded capacity (queue.map f) (f x) := by
  unfold pushBounded
  rw [List.length_map]
  split
  · exact List.map_append ..
  · rfl

theorem mem_of_mem_pushBounded {α : Type} {capacity : Nat} {queue : List α} {x y : α}
    (member : y ∈ pushBounded capacity queue x) : y ∈ queue ∨ y = x := by
  unfold pushBounded at member
  split at member
  · exact (List.mem_append.mp member).imp_right List.mem_singleton.mp
  · exact Or.inl member

theorem Post.Mirrors.exec {h : Post} {s : Session} (mirrors : h.Mirrors s) {α : Type}
    (op : SessionOp α) (t : Nat) : (op.post t h).Mirrors (op.exec s).2 := by
  cases op with
  | storeID id => exact ⟨rfl, mirrors.sock, mirrors.sendBuf⟩
  | storeSock sock =>
      cases sock with
      | none => exact ⟨mirrors.id, Or.inl rfl, mirrors.sendBuf⟩
      | some sock => exact ⟨mirrors.id, Or.inr rfl, mirrors.sendBuf⟩
  | pushSend p =>
      refine ⟨mirrors.id, mirrors.sock, ?_⟩
      simp only [SessionOp.post, SessionOp.exec, map_pushBounded, mirrors.sendBuf]
  | popSend =>
      refine ⟨mirrors.id, mirrors.sock, ?_⟩
      simp only [SessionOp.post, SessionOp.exec, List.map_tail, mirrors.sendBuf]
  | _ => exact ⟨mirrors.id, mirrors.sock, mirrors.sendBuf⟩

theorem Post.Mirrors.step {h : Post} {i : Fin n} {s s' : Session} {α : Type} {op : Op n α} {r : α}
    (mirrors : h.Mirrors s) (step : SlotStep i s op r s') (t : Nat) :
    (h.write i t op).Mirrors s' := by
  cases step with
  | away away =>
      cases op with
      | session j op =>
          have other : j ≠ i := of_decide_eq_false away
          rw [Post.write, if_neg other]
          exact mirrors
      | _ => exact mirrors
  | session op =>
      rw [Post.write, if_pos rfl]
      exact mirrors.exec op t
  | _ => exact ⟨mirrors.id, mirrors.sock, mirrors.sendBuf⟩

section Hold

variable (i : Fin n) (t : Nat) (f : Frame n) (r : f.act.α) (h : Post)

theorem Post.hold_slot :
    (h.hold i t f r).tenant = h.tenant ∧ (h.hold i t f r).sendBuf = h.sendBuf := by
  unfold hold
  split <;> first | exact ⟨rfl, rfl⟩ | split <;> exact ⟨rfl, rfl⟩

/-- A thread goes on with what is its own. -/
theorem Post.hold_other {k : Nat} (other : k ≠ t) :
    (h.hold i t f r).called k = h.called k ∧ (h.hold i t f r).wBuf k = h.wBuf k := by
  unfold hold
  split
  · exact ⟨Function.update_of_ne other .., rfl⟩
  · split
    · exact ⟨rfl, Function.update_of_ne other ..⟩
    · exact ⟨rfl, rfl⟩
  · split
    · exact ⟨rfl, Function.update_of_ne other ..⟩
    · exact ⟨rfl, rfl⟩
  · split <;> exact ⟨rfl, rfl⟩
  · exact ⟨rfl, rfl⟩

end Hold

/-- The operation changes whom slot `i` serves. -/
def Op.houses (i : Fin n) : {α : Type} → Op n α → Bool
  | _, .session j (.storeID _) => j = i
  | _, .session j (.storeSock (some _)) => j = i
  | _, _ => false

section Write

variable {i : Fin n} {t : Nat} {h : Post} {α : Type} {op : Op n α}

theorem Post.write_threads : (h.write i t op).called = h.called ∧ (h.write i t op).wBuf = h.wBuf ∧
    (h.write i t op).batches = h.batches := by
  cases op with
  | session j op =>
      rw [write]
      split
      · cases op with
        | storeSock sock => cases sock <;> exact ⟨rfl, rfl, rfl⟩
        | _ => exact ⟨rfl, rfl, rfl⟩
      · exact ⟨rfl, rfl, rfl⟩
  | _ => exact ⟨rfl, rfl, rfl⟩

theorem Post.write_tenant (stays : op.houses i = false) : (h.write i t op).tenant = h.tenant := by
  cases op with
  | session j op =>
      rw [write]
      split
      · cases op with
        | storeID id => simp_all [Op.houses]
        | storeSock sock => cases sock <;> simp_all [Op.houses, SessionOp.post]
        | _ => rfl
      · rfl
  | _ => rfl

/-- What is in the queue without a push was there before. -/
theorem Post.mem_write (pushes : op.pushed i = false) {q : Posted}
    (member : q ∈ (h.write i t op).sendBuf) : q ∈ h.sendBuf := by
  cases op with
  | session j op =>
      rw [write] at member
      split at member
      · cases op with
        | pushSend p => simp_all [Op.pushed]
        | popSend => exact List.mem_of_mem_tail member
        | storeSock sock => cases sock <;> exact member
        | _ => exact member
      · exact member
  | _ => exact member

end Write

theorem Post.note_tenant {i : Fin n} {t : Nat} {f : Frame n} {rest : List (Frame n)} {r : f.act.α}
    {h : Post} (stays : f.act.op.houses i = false) : (note i t f rest r h).tenant = h.tenant := by
  rw [note, write_tenant stays]
  exact (hold_slot i t f r h).1

/-! ## A slot nobody is in -/

/-- A `ReleaseSession` has emptied `sendBuf`, and not yet pushed the index. -/
@[simp] def Frame.drained (i : Fin n) : Frame n → Nat
  | .releaseSession .loadID _ => 0
  | .releaseSession (.leave _) _ => 0
  | .releaseSession .drainSend _ => 0
  | .releaseSession .count _ => 0
  | .releaseSession _ j => share j i
  | _ => 0

/-- A `ReleaseSession` finds `sendBuf` empty. -/
@[simp] def Frame.empties (i : Fin n) : (f : Frame n) → f.act.α → Nat
  | .releaseSession .drainSend j, none => share j i
  | _, _ => 0

theorem drained_of_enters (i : Fin n) (f : Frame n) (enters : f.enters = true) :
    f.drained i = 0 := by
  cases f with
  | releaseSession pc j =>
      cases pc with
      | loadID => rfl
      | _ => cases enters
  | _ => rfl

theorem drained_next (i : Fin n) (f : Frame n) (r : f.act.α) :
    ((f.act.next r).map (Frame.drained i)).sum + f.act.op.returned i =
      f.drained i + f.empties i r := by
  by_cases outside : f.outside = true
  · rw [sum_of_enters (drained_of_enters i) (Frame.enters_next outside r),
      drained_of_enters i f (Frame.enters_of_outside outside),
      Op.returned_of_aside (Frame.aside_of_outside outside)]
    cases f with
    | releaseSession pc j => cases outside
    | _ => rfl
  cases f with
  | acceptThread pc =>
      cases pc with
      | accept => cases r <;> simp
      | full sock => cases r <;> simp
      | pop sock =>
          simp only [Frame.act, AcceptThread.act]
          split <;> simp
      | _ => simp
  | disConnect pc j => cases pc <;> cases r <;> simp
  | releaseSession pc j => cases pc <;> cases r <;> simp [share, Fin.ext_iff]
  | undefined => simp
  | _ => exact absurd rfl outside

/-- The places of index `i` at which slot `i` has nothing to send. -/
def vacancy (s : Conf (Frame n) (Shared n)) (i : Fin n) : Nat :=
  s.mem.server.indexStack.count ↑i + s.tally (Frame.unjoined i) + s.tally (Frame.drained i)

theorem drained_le_emptying (i : Fin n) (f : Frame n) : f.drained i ≤ f.emptying i := by
  cases f with
  | releaseSession pc j => cases pc <;> simp
  | _ => exact Nat.le_refl 0

/-- Nothing holds a slot nobody is in. -/
theorem Accounted.free_of_vacancy {s : Conf (Frame n) (Shared n)} (inv : Accounted s) {i : Fin n}
    (vacant : 0 < vacancy s i) : (s.mem.slot i).ioCount = 0 := by
  have once := inv.once i
  have begun := begun_le_token s i
  have drained : s.tally (Frame.drained i) ≤ s.tally (Frame.emptying i) :=
    Conf.tally_le (drained_le_emptying i)
  unfold sessions at once
  unfold vacancy at vacant
  by_contra held
  have live : (s.mem.slot i).live = 1 := if_neg held
  omega

theorem Op.writes_of_houses {i : Fin n} {α : Type} {op : Op n α} (houses : op.houses i = true) :
    op.writes i = true := by
  cases op with
  | session j op =>
      cases op with
      | storeID id => exact houses
      | storeSock sock =>
          cases sock with
          | none => cases houses
          | some sock => exact houses
      | _ => cases houses
  | _ => cases houses

/-- Whom a slot serves changes when nobody is in it. -/
theorem vacant_of_houses {i : Fin n} {f : Frame n} (houses : f.act.op.houses i = true) :
    0 < f.unjoined i + f.drained i := by
  have own : 0 < share i i := (share_self i).ge
  rcases place_of_writes (Op.writes_of_houses houses) with ⟨sock, rfl⟩ | rfl | ⟨index, rfl⟩ | rfl |
    ⟨sock, id, rfl⟩ | ⟨index, rfl⟩ | ⟨index, rfl⟩
  · exact own
  · cases houses
  · cases houses
  · cases houses
  · exact own
  · exact Nat.add_pos_right _ own
  · cases houses

/-! ## Threads that queue or send -/

/-- The places of a thread that has an ID to queue a packet for, or packets to
send. -/
def Frame.posts : Frame n → Bool
  | .sessionLock _ _ _ _ => true
  | .sendPacket .addRef _ _ => true
  | .sendPacket .push _ _ => true
  | .postSend .cas _ => false
  | .postSend .clear _ => false
  | .postSend .undo _ => false
  | .postSend _ _ => true
  | _ => false

/-- What such a place of thread `t` knows: the ID it was called with is that of
the tenant, and the packets in its buffers are for the tenant. -/
def Frame.Posting (i : Fin n) (t : Nat) (h : Post) : Frame n → Prop
  | .sessionLock _ _ id _ => h.called t = id
  | .sendPacket .addRef j _ => j = i → h.called t = h.tenant.id
  | .sendPacket .push j _ => j = i → h.called t = h.tenant.id
  | .postSend .cas _ => True
  | .postSend .clear _ => True
  | .postSend .undo _ => True
  | .postSend _ j => j = i → ∀ q ∈ h.wBuf t, q.IsFor h.tenant
  | _ => True

theorem posting_of_idle {i : Fin n} {t : Nat} {h : Post} {f : Frame n} (idle : f.posts = false) :
    f.Posting i t h := by
  cases f with
  | sessionLock pc j id use => cases idle
  | sendPacket pc j p =>
      cases pc with
      | check => trivial
      | _ => cases idle
  | postSend pc j => cases pc <;> trivial
  | _ => trivial

/-- The places that lead to one of these. -/
def Frame.leads : Frame n → Bool
  | .lock _ _ => true
  | .sessionLock _ _ _ _ => true
  | .sendPacket _ _ _ => true
  | .postSend _ _ => true
  | _ => false

theorem idle_next (f : Frame n) (r : f.act.α) (away : f.leads = false) :
    ∀ g ∈ f.act.next r, g.posts = false := by
  have goes := f.goes r
  generalize f.act.next r = fs at goes ⊢
  cases goes with
  | setRefResponse p targets => simp [Frame.posts, or_imp, forall_and]
  | _ => simp [Frame.leads, Frame.posts] at away ⊢

/-- A thread that queues or sends does nothing else meanwhile. -/
theorem idle_tail (f : Frame n) (r : f.act.α) : ∀ g ∈ (f.act.next r).tail, g.posts = false := by
  by_cases away : f.leads = false
  · exact fun g member => idle_next f r away g (List.mem_of_mem_tail member)
  have goes := f.goes r
  generalize f.act.next r = fs at goes ⊢
  cases goes with
  | lockedSend j id p => simp [Frame.posts]
  | lockedDisconnect j id => simp [Frame.posts]
  | _ => first | exact absurd rfl away | simp

theorem lock_next {id : UINT64} {use : LockUse} (r : (Frame.lock id use : Frame n).act.α) :
    ∀ g ∈ (Frame.lock id use : Frame n).act.next r, ∃ j, g = .sessionLock .id j id use := by
  revert r
  rcases Frame.act_lock_cases id use with ⟨j, -, act⟩ | act
  · rw [act]
    intro _ g member
    exact ⟨j, List.mem_singleton.mp member⟩
  · rw [act]
    simp

theorem postSend_next {pc : PostSend} {j : Fin n} (r : (Frame.postSend pc j : Frame n).act.α) :
    ∀ g ∈ (Frame.postSend pc j : Frame n).act.next r,
      (∃ pc', g = .postSend pc' j) ∨ g.posts = false := by
  have goes := Frame.goes _ r
  generalize (Frame.postSend pc j : Frame n).act.next r = fs at goes ⊢
  cases goes with
  | _ => simp [Frame.posts]

theorem posting_postSend {i j : Fin n} {t : Nat} {h : Post}
    (own : j = i → ∀ q ∈ h.wBuf t, q.IsFor h.tenant) (pc : PostSend) :
    (Frame.postSend pc j).Posting i t h := by
  cases pc <;> first | exact own | trivial

/-! ## The invariant -/

/-- What waits in a slot, what its threads are about to send and what has been
sent is for whom the slot serves then. -/
structure Mailed (i : Fin n) (s : Conf (Frame n) (Shared n)) (h : Post) : Prop where
  mirrors : h.Mirrors (s.mem.slot i)
  vacant : 0 < vacancy s i → h.sendBuf = []
  own : ∀ q ∈ h.sendBuf, q.IsFor h.tenant
  alone : ∀ stack ∈ s.threads, ∀ f ∈ stack.tail, f.posts = false
  posting : ∀ k g, s.top k = some g → g.Posting i k h
  batches : ∀ b ∈ h.batches, ∀ q ∈ b.packets, q.IsFor b.tenant

section Step

variable {i : Fin n} {s : Conf (Frame n) (Shared n)} {h : Post} (mailed : Mailed i s h)
  (inv : Accounted s) {t : Nat} {c : Choice n} {f : Frame n} {rest : List (Frame n)}
  (here : s.threads[t]? = some (f :: rest)) {r : f.act.α} {m : Shared n}
  (done : exec f.act.op c s.mem = some (r, m)) (guarded : Guarded s t c)

include mailed done in
theorem Mailed.mirrors_step (t : Nat) (rest : List (Frame n)) :
    (Post.note i t f rest r h).Mirrors (m.slot i) := by
  obtain ⟨tenant, sendBuf⟩ := Post.hold_slot i t f r h
  have held : (h.hold i t f r).Mirrors (s.mem.slot i) :=
    ⟨tenant ▸ mailed.mirrors.id, tenant ▸ mailed.mirrors.sock, sendBuf ▸ mailed.mirrors.sendBuf⟩
  exact held.step (slot_exec i done) t

include done in
theorem sendBuf_of_empties (empties : 0 < f.empties i r) : (m.slot i).sendBuf = [] := by
  cases f with
  | releaseSession pc j =>
      cases pc with
      | drainSend =>
          cases r with
          | none =>
              obtain rfl := eq_of_share_pos empties
              obtain ⟨found, same⟩ := exec_session done
              have empty : (s.mem.slot j).sendBuf = [] := List.head?_eq_none_iff.mp found.symm
              rw [same]
              exact congrArg List.tail empty
          | some p => cases empties
      | _ => cases empties
  | _ => cases empties

include inv here in
/-- Whom a slot serves does not change under who works on it. -/
theorem Accounted.stays_of_held (held : 0 < (s.mem.slot i).ioCount) :
    f.act.op.houses i = false := by
  by_contra houses
  have vacant := vacant_of_houses (eq_true_of_ne_false houses)
  have member := List.mem_of_getElem? here
  have unjoined := Conf.le_tally (w := Frame.unjoined i) member List.mem_cons_self
  have drained := Conf.le_tally (w := Frame.drained i) member List.mem_cons_self
  have free := inv.free_of_vacancy (i := i) (by unfold vacancy; omega)
  omega

include mailed inv here done guarded in
theorem Mailed.vacant_step
    (vacant' : 0 < vacancy ⟨m, s.threads.set t (f.act.next r ++ rest)⟩ i) :
    (Post.note i t f rest r h).sendBuf = [] := by
  have mirrors := mailed.mirrors_step done t rest
  obtain ⟨unjoined, -, stack⟩ := begun_step inv here done (inv.expected here done guarded) i
  have drained := drained_next i f r
  have tally := Machine.tally_step (Frame.drained i) here (f.act.next r) m
  rcases Nat.eq_zero_or_pos (f.empties i r) with none | empties
  · have vacant : 0 < vacancy s i := by
      unfold vacancy at vacant' ⊢
      dsimp only at vacant'
      omega
    have pushes : f.act.op.pushed i = false := by
      by_contra pushes
      obtain ⟨p, rfl⟩ := eq_of_pushed (eq_true_of_ne_false pushes)
      have held := inv.ioCount_pos_of_asks (List.mem_of_getElem? here) List.mem_cons_self rfl
        (i := i)
      have free := inv.free_of_vacancy vacant
      omega
    apply List.eq_nil_iff_forall_not_mem.mpr
    intro q member
    have before := Post.mem_write pushes member
    rw [(Post.hold_slot i t f r h).2, mailed.vacant vacant] at before
    cases before
  · have empty := mirrors.sendBuf
    rw [sendBuf_of_empties done empties] at empty
    exact List.map_eq_nil_iff.mp empty

include mailed here in
theorem Mailed.own_step : ∀ q ∈ (Post.note i t f rest r h).sendBuf,
    q.IsFor (Post.note i t f rest r h).tenant := by
  obtain ⟨tenant, sendBuf⟩ := Post.hold_slot i t f r h
  intro q member
  cases pushes : f.act.op.pushed i with
  | true =>
      obtain ⟨p, rfl⟩ := eq_of_pushed pushes
      have before := mailed.posting t _ (Conf.top_of_here here) rfl
      simp only [Post.note, Post.write, Post.hold, Frame.act, SendPacket.act, if_true,
        SessionOp.post] at member ⊢
      rcases mem_of_mem_pushBounded member with old | rfl
      · exact mailed.own q old
      · exact ⟨rfl, before⟩
  | false =>
      have old := Post.mem_write pushes member
      rw [sendBuf] at old
      have held : f.act.op.houses i = false := by
        by_contra houses
        have vacant := vacant_of_houses (eq_true_of_ne_false houses)
        have top := List.mem_of_getElem? here
        have unjoined := Conf.le_tally (w := Frame.unjoined i) top List.mem_cons_self
        have drained := Conf.le_tally (w := Frame.drained i) top List.mem_cons_self
        rw [mailed.vacant (by unfold vacancy; omega)] at old
        cases old
      rw [Post.note_tenant held]
      exact mailed.own q old

omit here in
include mailed in
/-- The buffers of a `PostSend` that goes on. -/
theorem Mailed.wBuf_next {pc : PostSend} {r : (Frame.postSend pc i : Frame n).act.α}
    (here : s.threads[t]? = some (.postSend pc i :: rest)) {g : Frame n}
    (member : g ∈ (Frame.postSend pc i : Frame n).act.next r) (busy : ¬ g.posts = false) :
    ∀ q ∈ (h.hold i t (.postSend pc i) r).wBuf t, q.IsFor h.tenant := by
  have before := mailed.posting t _ (Conf.top_of_here here)
  cases pc with
  | cas =>
      cases r with
      | true =>
          intro q queued
          simp [Post.hold] at queued
      | false => cases member
  | pop k =>
      cases r with
      | none => exact before rfl
      | some p =>
          intro q queued
          simp only [Post.hold, if_true, Function.update_self] at queued
          rcases List.mem_append.mp queued with old | popped
          · exact before rfl q old
          · exact mailed.own q (List.mem_of_mem_take popped)
  | issue =>
      cases r with
      | true => cases member
      | false => exact before rfl
  | clear => cases member
  | undo =>
      cases r with
      | true =>
          obtain rfl := List.mem_singleton.mp member
          exact absurd rfl busy
      | false => cases member
  | _ => exact before rfl

include mailed inv here in
/-- The places a thread comes to. -/
theorem Mailed.posting_next :
    ∀ g ∈ f.act.next r, g.Posting i t (Post.note i t f rest r h) := by
  intro g member
  by_cases idle : g.posts = false
  · exact posting_of_idle idle
  have leads : ¬ f.leads = false := fun away => idle (idle_next f r away g member)
  have before := mailed.posting t f (Conf.top_of_here here)
  have sound := inv.sound_top here
  cases f with
  | lock id use =>
      obtain ⟨j, rfl⟩ := lock_next r g member
      show (Post.note i t (.lock id use) rest r h).called t = id
      rw [Post.note, Post.write_threads.1]
      exact Function.update_self ..
  | sessionLock pc j id use =>
      have called : (Post.note i t (.sessionLock pc j id use) rest r h).called t = id := by
        rw [Post.note, Post.write_threads.1]
        exact before
      have stays : (Frame.sessionLock pc j id use : Frame n).act.op.houses i = false := by
        cases pc <;> rfl
      have tenant : (Post.note i t (.sessionLock pc j id use) rest r h).tenant = h.tenant :=
        Post.note_tenant stays
      cases pc with
      | releasedAgain =>
          cases r with
          | true =>
              obtain rfl := List.mem_singleton.mp member
              exact called
          | false =>
              cases use with
              | send p =>
                  rcases List.mem_cons.mp member with rfl | below
                  · intro own
                    subst own
                    have named : h.tenant.id = id := mailed.mirrors.id.trans sound
                    exact called.trans (named.symm.trans (congrArg Tenant.id tenant.symm))
                  · obtain rfl := List.mem_singleton.mp below
                    exact absurd rfl idle
              | disconnect =>
                  rcases List.mem_cons.mp member with rfl | below
                  · exact absurd rfl idle
                  · obtain rfl := List.mem_singleton.mp below
                    exact absurd rfl idle
      | fail =>
          cases r with
          | true =>
              obtain rfl := List.mem_singleton.mp member
              exact absurd rfl idle
          | false => cases member
      | failAgain => cases member
      | _ =>
          cases r
          all_goals
            obtain rfl := List.mem_singleton.mp member
            exact called
  | sendPacket pc j p =>
      cases pc with
      | addRef =>
          obtain rfl := List.mem_singleton.mp member
          exact before
      | push =>
          obtain rfl := List.mem_singleton.mp member
          exact absurd rfl idle
      | check =>
          cases r with
          | true => cases member
          | false =>
              obtain rfl := List.mem_singleton.mp member
              exact absurd rfl idle
  | postSend pc j =>
      obtain ⟨pc', rfl⟩ := (postSend_next r g member).resolve_right idle
      apply posting_postSend
      intro own
      subst own
      have stays : (Frame.postSend pc j : Frame n).act.op.houses j = false := by
        cases pc <;> rfl
      rw [Post.note_tenant stays, Post.note, Post.write_threads.2.1]
      exact mailed.wBuf_next here member idle
  | _ => exact absurd rfl leads

include mailed inv here in
/-- The places of other threads. -/
theorem Mailed.posting_kept {k : Nat} (other : k ≠ t) {g : Frame n} (top : s.top k = some g) :
    g.Posting i k (Post.note i t f rest r h) := by
  obtain ⟨below, there⟩ := Conf.top_cases top
  have before := mailed.posting k g top
  obtain ⟨called, wBuf⟩ := Post.hold_other i t f r h other
  have called' : (Post.note i t f rest r h).called k = h.called k := by
    rw [Post.note, Post.write_threads.1]
    exact called
  have wBuf' : (Post.note i t f rest r h).wBuf k = h.wBuf k := by
    rw [Post.note, Post.write_threads.2.1]
    exact wBuf
  have tenant (asks : g.asks = some i) : (Post.note i t f rest r h).tenant = h.tenant :=
    Post.note_tenant (inv.stays_of_held here
      (inv.ioCount_pos_of_asks (List.mem_of_getElem? there) List.mem_cons_self asks))
  by_cases idle : g.posts = false
  · exact posting_of_idle idle
  cases g with
  | sessionLock pc j id use => exact called'.trans before
  | sendPacket pc j p =>
      cases pc with
      | check => exact absurd rfl idle
      | _ =>
          intro own
          rw [called', tenant (congrArg some own)]
          exact before own
  | postSend pc j =>
      apply posting_postSend
      intro own
      rw [wBuf', tenant (congrArg some own)]
      cases pc with
      | cas => exact absurd rfl idle
      | clear => exact absurd rfl idle
      | undo => exact absurd rfl idle
      | _ => exact before own
  | _ => exact absurd rfl idle

include mailed inv here in
theorem Mailed.posting_step (k : Nat) (g : Frame n)
    (top : (Conf.mk m (s.threads.set t (f.act.next r ++ rest))).top k = some g) :
    g.Posting i k (Post.note i t f rest r h) := by
  rcases eq_or_ne k t with rfl | other
  · obtain ⟨below, there⟩ := Conf.top_cases top
    rw [List.getElem?_set_self (List.getElem?_eq_some_iff.mp here).1] at there
    have member : g ∈ f.act.next r ++ rest := by
      rw [Option.some.inj there]
      exact List.mem_cons_self
    rcases List.mem_append.mp member with new | old
    · exact mailed.posting_next inv here g new
    · exact posting_of_idle (mailed.alone _ (List.mem_of_getElem? here) g old)
  · have before : s.top k = some g := (Conf.top_set_of_ne other.symm).symm.trans top
    exact mailed.posting_kept inv here other before

include mailed here in
theorem Mailed.alone_step :
    ∀ stack ∈ s.threads.set t (f.act.next r ++ rest), ∀ g ∈ stack.tail, g.posts = false := by
  intro stack member g inside
  have below : ∀ g ∈ rest, g.posts = false := mailed.alone _ (List.mem_of_getElem? here)
  rcases List.mem_or_eq_of_mem_set member with old | rfl
  · exact mailed.alone stack old g inside
  · cases frames : f.act.next r with
    | nil =>
        rw [frames] at inside
        exact below g (List.mem_of_mem_tail inside)
    | cons first others =>
        rw [frames] at inside
        have tail := idle_tail f r g
        rw [frames] at tail
        rcases List.mem_append.mp inside with new | old
        · exact tail new
        · exact below g old

include mailed here in
theorem Mailed.batches_step : ∀ b ∈ (Post.note i t f rest r h).batches,
    ∀ q ∈ b.packets, q.IsFor b.tenant := by
  have before := mailed.posting t f (Conf.top_of_here here)
  intro b member
  rw [Post.note, Post.write_threads.2.2] at member
  unfold Post.hold at member
  split at member
  case h_4 f r j =>
      split at member
      · rename_i own
        rcases List.mem_append.mp member with old | new
        · exact mailed.batches b old
        · obtain rfl := List.mem_singleton.mp new
          exact before own
      · exact mailed.batches b member
  all_goals first | exact mailed.batches b member | (split at member <;> exact mailed.batches b member)

end Step

theorem Mailed.step {i : Fin n} {s : Conf (Frame n) (Shared n)} {h : Post} {t : Nat} {c : Choice n}
    {q : Conf (Frame n) (Shared n) × Post} (mailed : Mailed i s h) (inv : Accounted s)
    (guarded : Guarded s t c) (noted : (iocp n).noted (Post.note i) (s, h) t c = some q) :
    Mailed i q.1 q.2 := by
  obtain ⟨f, rest, r, m, here, done, rfl⟩ := Machine.noted_cases noted
  exact
    { mirrors := mailed.mirrors_step done t rest
      vacant := mailed.vacant_step inv here done guarded
      own := mailed.own_step here
      alone := mailed.alone_step here
      posting := mailed.posting_step inv here
      batches := mailed.batches_step here }

theorem Mailed.boot (n : Nat) (sessionID : UINT64) (kinds : List ThreadKind) (i : Fin n) :
    Mailed i (Shared.boot n sessionID kinds) .nothing := by
  have idle : ∀ stack ∈ (Shared.boot n sessionID kinds).threads, ∀ f ∈ stack, f.posts = false := by
    intro stack member f inside
    rcases Shared.boot_frames n sessionID kinds stack member f inside with rfl | ⟨kind, rfl⟩
    · rfl
    · cases kind <;> rfl
  refine ⟨⟨rfl, Or.inl rfl, rfl⟩, fun _ => rfl, ?_, ?_, ?_, ?_⟩
  · intro q member
    cases member
  · intro stack member f inside
    exact idle stack member f (List.mem_of_mem_tail inside)
  · intro k g top
    obtain ⟨rest, there⟩ := Conf.top_cases top
    exact posting_of_idle (idle _ (List.mem_of_getElem? there) g List.mem_cons_self)
  · intro b member
    cases member

/-! ## Runs -/

/-- **No packet reaches another session**, for runs whose steps are guarded and
any record of a slot that starts with the server.  The record tells the truth
about the slot; what waits in `sendBuf` was queued by calls with the ID of the
session that is in the slot, while it was; and so was every packet of every batch
that `WSASend` has taken for the session that was in the slot then. -/
theorem no_misdelivery {n : Nat} {sessionID : UINT64} {kinds : List ThreadKind} {i : Fin n}
    {s : Conf (Frame n) (Shared n)} {h : Post}
    (run : (iocp n).NotedSteps (Post.note i) Guarded
      (Shared.boot n sessionID kinds, .nothing) (s, h)) :
    h.Mirrors (s.mem.slot i) ∧
      (∀ q ∈ h.sendBuf, q.tenant = h.tenant ∧ q.id = (s.mem.slot i).sessionID) ∧
      (↑i ∈ s.mem.server.indexStack → (s.mem.slot i).sendBuf = []) ∧
      ∀ b ∈ h.batches, ∀ q ∈ b.packets, q.tenant = b.tenant ∧ q.id = b.tenant.id := by
  have all : Accounted s ∧ Mailed i s h := by
    refine run.invariant (I := fun s h => Accounted s ∧ Mailed i s h)
      ⟨.boot n sessionID kinds, .boot n sessionID kinds i⟩ ?_
    intro p t c q both guarded noted
    obtain ⟨inv, mailed⟩ := both
    exact ⟨inv.step guarded (Machine.step_of_noted noted), mailed.step inv guarded noted⟩
  obtain ⟨-, mailed⟩ := all
  refine ⟨mailed.mirrors, ?_, ?_, ?_⟩
  · intro q member
    obtain ⟨whom, id⟩ := mailed.own q member
    exact ⟨whom, id.trans mailed.mirrors.id⟩
  · intro stacked
    have count := List.count_pos_iff.mpr stacked
    rw [← mailed.mirrors.sendBuf, mailed.vacant (by unfold vacancy; omega)]
    rfl
  · intro b member q inside
    obtain ⟨whom, id⟩ := mailed.batches b member q inside
    exact ⟨whom, id⟩

/-- The ID of the session that comes next. -/
def secondID : UINT64 := 0x2000000000000

/-- The first session is sent a packet and goes; the second comes, and a packet
is broadcast to both. -/
def oneAfterTheOther : List (Nat × Choice 1) :=
  acceptOne ++ sendAndComplete ++ List.replicate 2 (2, .none) ++
    (2, .completed ⟨firstSlot, false, 0⟩) :: List.replicate 23 (2, .none) ++
    (0, .socket (some 2)) :: List.replicate 11 (0, .none) ++ [(0, .outcome true)] ++
    (1, .call (.broadcast [firstID, secondID])) :: List.replicate 19 (1, .none) ++
    [(1, .outcome true)]

/-- A session is sent a packet and goes, and another takes its slot before a packet is
broadcast to both: the first batch has gone to the first session's socket, and the
second one to the second's. -/
theorem no_misdelivery_two :
    ∃ s h, (iocp 1).NotedSteps (Post.note firstSlot) Guarded
        (Shared.boot 1 0 [.caller, .worker], .nothing) (s, h) ∧
      (h.batches.map fun b => (b.tenant.id, b.tenant.sock, b.packets.length)) =
        [(firstID, some 1, 1), (secondID, some 2, 1)] ∧
      ∀ b ∈ h.batches, ∀ q ∈ b.packets, q.tenant = b.tenant ∧ q.id = b.tenant.id := by
  have reached : ((iocp 1).runNoted (Post.note firstSlot) Guarded oneAfterTheOther
      (Shared.boot 1 0 [.caller, .worker], .nothing)).map (fun p =>
        p.2.batches.map fun b => (b.tenant.id, b.tenant.sock, b.packets.length)) =
          some [(firstID, some 1, 1), (secondID, some 2, 1)] := by
    decide +kernel
  obtain ⟨⟨s, h⟩, taken, batches⟩ := Option.map_eq_some_iff.mp reached
  have run := Machine.NotedSteps.of_run taken
  exact ⟨s, h, run, batches, (no_misdelivery run).2.2.2⟩

end ChattingServer
