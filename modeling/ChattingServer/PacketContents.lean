import ChattingServer.Codec
import ChattingServer.Delivery
import ChattingServer.PacketSafety

/-!
# What is queued stays what was written

A packet is written by the thread that allocates it, and encoded by the first
`SendPacket` it goes through; from then on the queues of several sessions and the
kernel may share it.  `Contents` keeps the bytes of every packet beside a run, and
with each entry of a slot's queues the `Alloc` it stems from.  A packet in a queue
is counted (`Alive`), so no other `Alloc` overwrites it, and it is encoded, so no
other `SendPacket` does: in any run, what `WSASend` is given decodes to what was
written for it (`packets_intact`).
-/

namespace ChattingServer

namespace CPacket

/-- Encoded with whatever byte is drawn, the packet decodes to the payload. -/
def Bears (p : CPacket) (payload : List BYTE) : Prop :=
  ∀ randKey, (p.setEncodingCode randKey).DecodesTo payload

theorem Written.bears {p : CPacket} {written : List BYTE} (h : p.Written written)
    (fits : written.length ≤ 507) : p.Bears written :=
  fun randKey => h.decodesTo fits randKey

theorem Bears.setEncodingCode {p : CPacket} {payload : List BYTE} (bears : p.Bears payload)
    (randKey : BYTE) : (p.setEncodingCode randKey).Bears payload := by
  intro again
  rw [setEncodingCode_of_encoded bIsEncoded_setEncodingCode]
  exact bears randKey

/-- The packet is encoded, and decodes to the payload. -/
structure Sealed (p : CPacket) (payload : List BYTE) : Prop where
  encoded : p.bIsEncoded = true
  decodes : p.DecodesTo payload

theorem Bears.sealed {p : CPacket} {payload : List BYTE} (bears : p.Bears payload)
    (randKey : BYTE) : (p.setEncodingCode randKey).Sealed payload :=
  ⟨bIsEncoded_setEncodingCode, bears randKey⟩

end CPacket

variable {n : Nat}

/-! ## The record -/

/-- What the threads write: what each `Alloc` is for, the packet that makes, and
the bytes `rand()` gives. -/
structure Script where
  payload : Nat → List BYTE
  built : Nat → CPacket
  bears : ∀ k, (built k).Bears (payload k)
  randKey : Nat → BYTE

/-- An entry of a queue, with the `Alloc` it stems from. -/
structure Stamped where
  packet : PacketPtr
  alloc : Nat

/-- The packets, and the queues of one slot. -/
structure Contents where
  /-- Calls of `Alloc` so far. -/
  allocs : Nat
  /-- Calls of `SetEncodingCode` so far. -/
  draws : Nat
  content : PacketPtr → CPacket
  /-- The last `Alloc` that gave a thread the packet. -/
  meant : Nat → PacketPtr → Nat
  /-- The `Alloc` of the packet as a thread last found it in `sendBuf`. -/
  found : Nat → PacketPtr → Nat
  sendBuf : List Stamped
  completeSendBuf : List Stamped

def Contents.nothing : Contents where
  allocs := 0
  draws := 0
  content := fun _ => .new
  meant := fun _ _ => 0
  found := fun _ _ => 0
  sendBuf := []
  completeSendBuf := []

/-- What an operation of thread `t` writes into packets.  An allocated packet has
its bytes at once: nobody else looks at it until it is sent. -/
def Contents.fill (w : Script) (t : Nat) (h : Contents) : {α : Type} → Op n α → Contents
  | _, .packet (.setRef p) =>
      { h with
        allocs := h.allocs + 1
        content := Function.update h.content p (w.built h.allocs)
        meant := Function.update h.meant t (Function.update (h.meant t) p h.allocs) }
  -- `SendPacket` encodes what it pushes
  | _, .session _ (.pushSend p) =>
      { h with
        draws := h.draws + 1
        content := Function.update h.content p
          ((h.content p).setEncodingCode (w.randKey h.draws)) }
  | _, _ => h

def SessionOp.stamp (t : Nat) (h : Contents) : {α : Type} → SessionOp α → Contents
  | _, .pushSend p => { h with sendBuf := pushBounded sendCapacity h.sendBuf ⟨p, h.meant t p⟩ }
  | _, .popSend =>
      match h.sendBuf with
      | q :: rest =>
          { h with
            sendBuf := rest
            found := Function.update h.found t (Function.update (h.found t) q.packet q.alloc) }
      | [] => h
  | _, .pushComplete p =>
      { h with completeSendBuf := pushBounded sendCapacity h.completeSendBuf ⟨p, h.found t p⟩ }
  | _, .popComplete => { h with completeSendBuf := h.completeSendBuf.tail }
  | _, _ => h

/-- What an operation of thread `t` does to the queues of slot `i`. -/
def Contents.stamp (i : Fin n) (t : Nat) (h : Contents) : {α : Type} → Op n α → Contents
  | _, .session j op => if j = i then op.stamp t h else h
  | _, _ => h

def Contents.note (w : Script) (i : Fin n) (t : Nat) (f : Frame n) (_ : List (Frame n))
    (_ : f.act.α) (h : Contents) : Contents :=
  (h.fill w t f.act.op).stamp i t f.act.op

/-! ## The record and the memory -/

/-- The record tells the truth about the queues. -/
structure Contents.Mirrors (h : Contents) (s : Session) : Prop where
  sendBuf : h.sendBuf.map Stamped.packet = s.sendBuf
  completeSendBuf : h.completeSendBuf.map Stamped.packet = s.completeSendBuf

theorem Contents.Mirrors.exec {h : Contents} {s : Session} (mirrors : h.Mirrors s) {α : Type}
    (op : SessionOp α) (t : Nat) : (op.stamp t h).Mirrors (op.exec s).2 := by
  obtain ⟨sendBuf, completeSendBuf⟩ := mirrors
  cases op with
  | pushSend p =>
      refine ⟨?_, completeSendBuf⟩
      simp only [SessionOp.stamp, SessionOp.exec, map_pushBounded, sendBuf]
  | popSend =>
      simp only [SessionOp.stamp, SessionOp.exec]
      split
      · rename_i q rest queue
        refine ⟨?_, completeSendBuf⟩
        rw [← sendBuf, queue]
        rfl
      · rename_i queue
        refine ⟨?_, completeSendBuf⟩
        rw [← sendBuf, queue]
        rfl
  | pushComplete p =>
      refine ⟨sendBuf, ?_⟩
      simp only [SessionOp.stamp, SessionOp.exec, map_pushBounded, completeSendBuf]
  | popComplete =>
      refine ⟨sendBuf, ?_⟩
      simp only [SessionOp.stamp, SessionOp.exec, List.map_tail, completeSendBuf]
  | _ => exact ⟨sendBuf, completeSendBuf⟩

theorem Contents.Mirrors.step {h : Contents} {i : Fin n} {s s' : Session} {α : Type} {op : Op n α}
    {r : α} (mirrors : h.Mirrors s) (step : SlotStep i s op r s') (t : Nat) :
    (h.stamp i t op).Mirrors s' := by
  cases step with
  | away away =>
      cases op with
      | session j op =>
          have other : j ≠ i := of_decide_eq_false away
          rw [Contents.stamp, if_neg other]
          exact mirrors
      | _ => exact mirrors
  | session op =>
      rw [Contents.stamp, if_pos rfl]
      exact mirrors.exec op t
  | _ => exact ⟨mirrors.sendBuf, mirrors.completeSendBuf⟩

/-- The operation gives a thread the packet anew. -/
def Op.renews (p : PacketPtr) : {α : Type} → Op n α → Bool
  | _, .packet (.setRef q) => q = p
  | _, _ => false

theorem Op.refs_of_renews {α : Type} {op : Op n α} {m : Shared n} {p : PacketPtr}
    (sound : op.Ready m ∨ op.Full m) (renews : op.renews p = true) : m.packets.refs p = 0 := by
  cases op with
  | packet op =>
      cases op with
      | setRef q =>
          obtain rfl : q = p := of_decide_eq_true renews
          exact sound.resolve_right id
      | _ => cases renews
  | _ => cases renews

theorem Contents.fill_queues (w : Script) (t : Nat) (h : Contents) {α : Type} (op : Op n α) :
    (h.fill w t op).sendBuf = h.sendBuf ∧ (h.fill w t op).completeSendBuf = h.completeSendBuf ∧
      (h.fill w t op).found = h.found := by
  cases op with
  | session j op => cases op <;> exact ⟨rfl, rfl, rfl⟩
  | packet op => cases op <;> exact ⟨rfl, rfl, rfl⟩
  | _ => exact ⟨rfl, rfl, rfl⟩

section Fill

variable {w : Script} {t : Nat} {h : Contents} {α : Type} {op : Op n α}

theorem Contents.fill_meant {k : Nat} {p : PacketPtr} (stays : op.renews p = false) :
    (h.fill w t op).meant k p = h.meant k p := by
  cases op with
  | session j op => cases op <;> rfl
  | packet op =>
      cases op with
      | setRef q =>
          have other : p ≠ q := Ne.symm (of_decide_eq_false stays)
          rcases eq_or_ne k t with rfl | apart
          · simp only [fill, Function.update_self, Function.update_of_ne other]
          · simp only [fill, Function.update_of_ne apart]
      | _ => rfl
  | _ => rfl

/-- A packet that is not given out anew stays, or is encoded. -/
theorem Contents.fill_content {p : PacketPtr} (stays : op.renews p = false) :
    (h.fill w t op).content p = h.content p ∨
      ∃ randKey, (h.fill w t op).content p = (h.content p).setEncodingCode randKey := by
  cases op with
  | session j op =>
      cases op with
      | pushSend q =>
          rcases eq_or_ne p q with rfl | other
          · exact Or.inr ⟨_, Function.update_self ..⟩
          · exact Or.inl (Function.update_of_ne other ..)
      | _ => exact Or.inl rfl
  | packet op =>
      cases op with
      | setRef q =>
          have other : p ≠ q := Ne.symm (of_decide_eq_false stays)
          exact Or.inl (Function.update_of_ne other ..)
      | _ => exact Or.inl rfl
  | _ => exact Or.inl rfl

theorem Contents.fill_bears {p : PacketPtr} (stays : op.renews p = false) {payload : List BYTE}
    (bears : (h.content p).Bears payload) : ((h.fill w t op).content p).Bears payload := by
  rcases fill_content (w := w) (t := t) (h := h) stays with same | ⟨randKey, encoded⟩
  · rw [same]
    exact bears
  · rw [encoded]
    exact bears.setEncodingCode randKey

/-- A sealed packet is not written to. -/
theorem Contents.fill_sealed {p : PacketPtr} (stays : op.renews p = false) {payload : List BYTE}
    (sealed : (h.content p).Sealed payload) : (h.fill w t op).content p = h.content p := by
  rcases fill_content (w := w) (t := t) (h := h) stays with same | ⟨randKey, encoded⟩
  · exact same
  · rw [encoded, CPacket.setEncodingCode_of_encoded sealed.encoded]

end Fill

theorem Contents.stamp_content (i : Fin n) (t : Nat) (h : Contents) {α : Type} (op : Op n α) :
    (h.stamp i t op).content = h.content ∧ (h.stamp i t op).meant = h.meant := by
  cases op with
  | session j op =>
      rw [stamp]
      split
      · cases op with
        | popSend =>
            rw [SessionOp.stamp]
            split <;> exact ⟨rfl, rfl⟩
        | _ => exact ⟨rfl, rfl⟩
      · exact ⟨rfl, rfl⟩
  | _ => exact ⟨rfl, rfl⟩

/-! ## Who queues -/

/-- The packet a thread is about to queue. -/
def Frame.toQueue : Frame n → Option PacketPtr
  | .lock _ (.send p) => some p
  | .sessionLock _ _ _ (.send p) => some p
  | .sendPacket .addRef _ p => some p
  | .sendPacket .push _ p => some p
  | _ => none

/-- A packet to be queued was to be queued before, where none is allocated for
it. -/
theorem toQueue_next (f : Frame n) (r : f.act.α)
    (response : ∀ q targets, f ≠ .setRef q (.response targets)) :
    ∀ g ∈ f.act.next r, g.toQueue = f.toQueue ∨ g.toQueue = none := by
  have goes := f.goes r
  generalize f.act.next r = fs at goes ⊢
  cases goes with
  | setRefResponse p targets => exact absurd rfl (response p targets)
  | lock id use | idSame i id use | idOther i id use | lockReleased i id use | lockLive i id use
  | idSameAgain i id use | idOtherAgain i id use | lockReleasedAgain i id use =>
      cases use <;> simp [Frame.toQueue]
  | _ => simp [Frame.toQueue]

/-- The packet a `PostSend` of slot `i` has taken from one queue and not yet put
in the other. -/
def Frame.inHand (i : Fin n) : Frame n → Option PacketPtr
  | .postSend (.move p _) j => if j = i then some p else none
  | _ => none

def Op.queues (i : Fin n) : {α : Type} → Op n α → Option PacketPtr
  | _, .session j (.pushSend p) => if j = i then some p else none
  | _, _ => none

def Op.files (i : Fin n) : {α : Type} → Op n α → Option PacketPtr
  | _, .session j (.pushComplete p) => if j = i then some p else none
  | _, _ => none

def Op.takes (i : Fin n) : {α : Type} → Op n α → α → Option PacketPtr
  | _, .session j .popSend, r => if j = i then r else none
  | _, _, _ => none

theorem Op.pushed_of_queues {i : Fin n} {α : Type} {op : Op n α} {p : PacketPtr}
    (queues : op.queues i = some p) : op.pushed i = true := by
  cases op with
  | session j op =>
      cases op with
      | pushSend q =>
          by_contra other
          have away : j ≠ i := fun same => other (decide_eq_true same)
          rw [Op.queues, if_neg away] at queues
          cases queues
      | _ => cases queues
  | _ => cases queues

theorem eq_of_queues {i : Fin n} {f : Frame n} {p : PacketPtr}
    (queues : f.act.op.queues i = some p) : f = .sendPacket .push i p := by
  obtain ⟨q, rfl⟩ := eq_of_pushed (Op.pushed_of_queues queues)
  have same : some q = some p := (if_pos rfl).symm.trans queues
  rw [Option.some.inj same]

theorem Op.files_of_mute {i : Fin n} {α : Type} {op : Op n α} (mute : op.mute = true) :
    op.files i = none := by
  cases op with
  | session j op =>
      cases op with
      | pushComplete p => cases mute
      | _ => rfl
  | _ => rfl

theorem inHand_of_files {i : Fin n} {f : Frame n} {p : PacketPtr}
    (files : f.act.op.files i = some p) : f.inHand i = some p := by
  by_cases mute : f.mute = true
  · rw [Op.files_of_mute (Frame.mute_act mute)] at files
    cases files
  cases f with
  | sendPacket pc j q => cases pc <;> cases files
  | releaseSession pc j => cases pc <;> cases files
  | sessionLock pc j id use => cases pc <;> cases files
  | postSend pc j =>
      cases pc with
      | move q k => exact files
      | _ => cases files
  | sendComplete pc j => cases pc <;> cases files
  | workerThread pc => cases pc <;> cases files
  | _ => exact absurd rfl mute

/-- Only a pop puts a packet in hand. -/
theorem inHand_next (i : Fin n) (f : Frame n) (r : f.act.α) :
    ∀ g ∈ f.act.next r, g.inHand i = none ∨ g.inHand i = f.act.op.takes i r := by
  have goes := f.goes r
  generalize f.act.next r = fs at goes ⊢
  cases goes with
  | setRefResponse p targets => simp [Frame.inHand, or_imp, forall_and]
  | popSend j k p => simp [Frame.inHand, Op.takes]
  | _ => simp [Frame.inHand]

/-! ## The invariant -/

/-- What is queued is sealed, and so is what is in hand between the queues; what is
to be queued bears what was written for it. -/
structure Intact (w : Script) (i : Fin n) (s : Conf (Frame n) (Shared n)) (h : Contents) : Prop where
  mirrors : h.Mirrors (s.mem.slot i)
  queued : ∀ q ∈ h.sendBuf ++ h.completeSendBuf,
    (h.content q.packet).Sealed (w.payload q.alloc)
  toQueue : ∀ t stack, s.threads[t]? = some stack → ∀ f ∈ stack, ∀ p, f.toQueue = some p →
    (h.content p).Bears (w.payload (h.meant t p))
  inHand : ∀ t stack, s.threads[t]? = some stack → ∀ f ∈ stack, ∀ p, f.inHand i = some p →
    (h.content p).Sealed (w.payload (h.found t p))

theorem Intact.boot (w : Script) (n : Nat) (sessionID : UINT64) (kinds : List ThreadKind)
    (i : Fin n) : Intact w i (Shared.boot n sessionID kinds) .nothing := by
  have single := Shared.boot_frames n sessionID kinds
  refine ⟨⟨rfl, rfl⟩, ?_, ?_, ?_⟩
  · intro q member
    cases member
  · intro t stack there f member p toQueue
    rcases single stack (List.mem_of_getElem? there) f member with rfl | ⟨kind, rfl⟩
    · cases toQueue
    · cases kind <;> cases toQueue
  · intro t stack there f member p inHand
    rcases single stack (List.mem_of_getElem? there) f member with rfl | ⟨kind, rfl⟩
    · cases inHand
    · cases kind <;> cases inHand

section Stamp

variable {i : Fin n} {t : Nat} {h : Contents} {α : Type} {op : Op n α}

/-- Where the entries of the queues come from. -/
theorem Contents.mem_stamp {q : Stamped}
    (member : q ∈ (h.stamp i t op).sendBuf ++ (h.stamp i t op).completeSendBuf) :
    q ∈ h.sendBuf ++ h.completeSendBuf ∨
      (op.queues i = some q.packet ∧ q.alloc = h.meant t q.packet) ∨
      (op.files i = some q.packet ∧ q.alloc = h.found t q.packet) := by
  cases op with
  | session j op =>
      rw [stamp] at member
      split at member
      · rename_i own
        rw [List.mem_append] at member ⊢
        cases op with
        | pushSend p =>
            rcases member with queue | filed
            · rcases mem_of_mem_pushBounded queue with old | rfl
              · exact Or.inl (Or.inl old)
              · exact Or.inr (Or.inl ⟨if_pos own, rfl⟩)
            · exact Or.inl (Or.inr filed)
        | popSend =>
            rw [SessionOp.stamp] at member
            split at member
            · rename_i first rest queue
              rw [queue]
              exact Or.inl (member.imp_left (List.mem_cons_of_mem _))
            · exact Or.inl member
        | pushComplete p =>
            rcases member with queue | filed
            · exact Or.inl (Or.inl queue)
            · rcases mem_of_mem_pushBounded filed with old | rfl
              · exact Or.inl (Or.inr old)
              · exact Or.inr (Or.inr ⟨if_pos own, rfl⟩)
        | popComplete => exact Or.inl (member.imp_right List.mem_of_mem_tail)
        | _ => exact Or.inl member
      · exact Or.inl member
  | _ => exact Or.inl member

variable (i t h op) in
/-- What a thread has found is what it had found, or an entry of `sendBuf`. -/
theorem Contents.found_stamp (k : Nat) (p : PacketPtr) :
    (h.stamp i t op).found k p = h.found k p ∨
      ∃ q ∈ h.sendBuf, q.packet = p ∧ (h.stamp i t op).found k p = q.alloc := by
  cases op with
  | session j op =>
      rw [stamp]
      split
      · cases op with
        | popSend =>
            rw [SessionOp.stamp]
            split
            · rename_i first rest queue
              rcases eq_or_ne k t with rfl | apart
              · rcases eq_or_ne p first.packet with rfl | other
                · refine Or.inr ⟨first, queue ▸ List.mem_cons_self, rfl, ?_⟩
                  simp only [Function.update_self]
                · refine Or.inl ?_
                  simp only [Function.update_self, Function.update_of_ne other]
              · refine Or.inl ?_
                simp only [Function.update_of_ne apart]
            · exact Or.inl rfl
        | _ => exact Or.inl rfl
      · exact Or.inl rfl
  | _ => exact Or.inl rfl

/-- A thread that takes a packet finds the entry. -/
theorem Contents.found_of_takes {c : Choice n} {m m' : Shared n} {r : α}
    (mirrors : h.Mirrors (m.slot i)) (done : exec op c m = some (r, m')) {p : PacketPtr}
    (takes : op.takes i r = some p) :
    ∃ q ∈ h.sendBuf, q.packet = p ∧ (h.stamp i t op).found t p = q.alloc := by
  cases op with
  | session j op =>
      cases op with
      | popSend =>
          rw [Op.takes] at takes
          split at takes
          · rename_i own
            subst own
            obtain ⟨found, -⟩ := exec_session done
            have head : (m.slot j).sendBuf.head? = some p := found.symm.trans takes
            rw [← mirrors.sendBuf] at head
            rw [stamp, if_pos rfl, SessionOp.stamp]
            cases queue : h.sendBuf with
            | nil =>
                rw [queue] at head
                cases head
            | cons q rest =>
                rw [queue] at head
                cases head
                refine ⟨q, List.mem_cons_self, rfl, ?_⟩
                simp only [Function.update_self]
          · cases takes
      | _ => cases takes
  | _ => cases takes

end Stamp

section Counted

variable {s : Conf (Frame n) (Shared n)} (alive : Alive s) {p : PacketPtr}
include alive

theorem Alive.refs_pos_of_toQueue {stack : List (Frame n)} (here : stack ∈ s.threads)
    {f : Frame n} (member : f ∈ stack) (toQueue : f.toQueue = some p) :
    0 < s.mem.packets.refs p := by
  cases f with
  | lock id use =>
      cases use with
      | send q => exact alive.refs_pos_of_borrows here member toQueue
      | disconnect => cases toQueue
  | sessionLock pc j id use =>
      cases use with
      | send q => exact alive.refs_pos_of_borrows here member toQueue
      | disconnect => cases toQueue
  | sendPacket pc j q =>
      cases pc with
      | addRef => exact alive.refs_pos_of_borrows here member toQueue
      | push =>
          obtain rfl := Option.some.inj toQueue
          exact alive.refs_pos_of_owned here member (share_self q).ge
      | check => cases toQueue
  | _ => cases toQueue

theorem Alive.refs_pos_of_inHand {i : Fin n} {stack : List (Frame n)} (here : stack ∈ s.threads)
    {f : Frame n} (member : f ∈ stack) (inHand : f.inHand i = some p) :
    0 < s.mem.packets.refs p := by
  cases f with
  | postSend pc j =>
      cases pc with
      | move q k =>
          rw [Frame.inHand] at inHand
          split at inHand
          · obtain rfl := Option.some.inj inHand
            exact alive.refs_pos_of_owned here member (share_self q).ge
          · cases inHand
      | _ => cases inHand
  | _ => cases inHand

theorem Alive.refs_pos_of_queued {i : Fin n}
    (queued : p ∈ (s.mem.slot i).sendBuf ++ (s.mem.slot i).completeSendBuf) :
    0 < s.mem.packets.refs p := by
  refine alive.refs_pos ?_
  have here : 0 < (s.mem.slot i).queued p := by
    have pos := List.count_pos_iff.mpr queued
    rwa [List.count_append] at pos
  have parts := Finset.add_sum_erase Finset.univ (fun j => (s.mem.slot j).queued p)
    (Finset.mem_univ i)
  unfold owners Shared.queued
  omega

/-- No step gives out a packet that is counted. -/
theorem Alive.stays {t : Nat} {f : Frame n} {rest : List (Frame n)}
    (here : s.threads[t]? = some (f :: rest)) (counted : 0 < s.mem.packets.refs p) :
    f.act.op.renews p = false := by
  by_contra renews
  have zero := Op.refs_of_renews (alive.ready_or_full here) (eq_true_of_ne_false renews)
  omega

end Counted

theorem Contents.note_content (w : Script) (i : Fin n) (t : Nat) (f : Frame n)
    (rest : List (Frame n)) (r : f.act.α) (h : Contents) :
    (note w i t f rest r h).content = (h.fill w t f.act.op).content ∧
      (note w i t f rest r h).meant = (h.fill w t f.act.op).meant :=
  stamp_content i t _ _

section Step

variable {w : Script} {i : Fin n} {s : Conf (Frame n) (Shared n)} {h : Contents}
  (intact : Intact w i s h) (alive : Alive s) {t : Nat} {c : Choice n} {f : Frame n}
  {rest : List (Frame n)} (here : s.threads[t]? = some (f :: rest)) {r : f.act.α} {m : Shared n}
  (done : exec f.act.op c s.mem = some (r, m))

include intact done in
theorem Intact.mirrors_step (rest : List (Frame n)) :
    (Contents.note w i t f rest r h).Mirrors (m.slot i) := by
  obtain ⟨sendBuf, completeSendBuf, -⟩ := Contents.fill_queues w t h f.act.op
  have filled : (h.fill w t f.act.op).Mirrors (s.mem.slot i) :=
    ⟨sendBuf ▸ intact.mirrors.sendBuf, completeSendBuf ▸ intact.mirrors.completeSendBuf⟩
  exact filled.step (slot_exec i done) t

include intact alive here in
/-- What is in the queues stays as it is. -/
theorem Intact.content_of_queued {q : Stamped} (member : q ∈ h.sendBuf ++ h.completeSendBuf) :
    (Contents.note w i t f rest r h).content q.packet = h.content q.packet := by
  have there : q.packet ∈ (s.mem.slot i).sendBuf ++ (s.mem.slot i).completeSendBuf := by
    rw [← intact.mirrors.sendBuf, ← intact.mirrors.completeSendBuf, ← List.map_append]
    exact List.mem_map_of_mem member
  rw [(Contents.note_content w i t f rest r h).1]
  exact Contents.fill_sealed (alive.stays here (alive.refs_pos_of_queued there))
    (intact.queued q member)

include intact alive here in
theorem Intact.queued_step :
    ∀ q ∈ (Contents.note w i t f rest r h).sendBuf ++
        (Contents.note w i t f rest r h).completeSendBuf,
      ((Contents.note w i t f rest r h).content q.packet).Sealed (w.payload q.alloc) := by
  intro q member
  have stack := List.mem_of_getElem? here
  obtain ⟨sendBuf, completeSendBuf, found⟩ := Contents.fill_queues w t h f.act.op
  rcases Contents.mem_stamp member with old | ⟨queues, alloc⟩ | ⟨files, alloc⟩
  · rw [sendBuf, completeSendBuf] at old
    rw [intact.content_of_queued alive here old]
    exact intact.queued q old
  · -- `SendPacket` has just encoded it
    obtain rfl := eq_of_queues queues
    have bears := intact.toQueue t _ here _ List.mem_cons_self q.packet rfl
    have meant : q.alloc = h.meant t q.packet := alloc
    have encoded : (Contents.note w i t (.sendPacket .push i q.packet) rest r h).content q.packet =
        (h.content q.packet).setEncodingCode (w.randKey h.draws) := by
      rw [(Contents.note_content w i t _ rest r h).1]
      exact Function.update_self ..
    rw [encoded, meant]
    exact bears.sealed _
  · have inHand := inHand_of_files files
    have sealed := intact.inHand t _ here _ List.mem_cons_self q.packet inHand
    have stays := alive.stays here (alive.refs_pos_of_inHand stack List.mem_cons_self inHand)
    rw [(Contents.note_content w i t f rest r h).1, Contents.fill_sealed stays sealed, alloc, found]
    exact sealed

include intact alive here in
theorem Intact.toQueue_step (k : Nat) (stack : List (Frame n))
    (there : (s.threads.set t (f.act.next r ++ rest))[k]? = some stack) (g : Frame n)
    (member : g ∈ stack) (p : PacketPtr) (toQueue : g.toQueue = some p) :
    ((Contents.note w i t f rest r h).content p).Bears
      (w.payload ((Contents.note w i t f rest r h).meant k p)) := by
  obtain ⟨content, meant⟩ := Contents.note_content w i t f rest r h
  have kept (k : Nat) (stack : List (Frame n)) (there : s.threads[k]? = some stack)
      (g : Frame n) (member : g ∈ stack) (toQueue : g.toQueue = some p) :
      ((h.fill w t f.act.op).content p).Bears
        (w.payload ((h.fill w t f.act.op).meant k p)) := by
    have stays := alive.stays here
      (alive.refs_pos_of_toQueue (List.mem_of_getElem? there) member toQueue)
    rw [Contents.fill_meant stays]
    exact Contents.fill_bears stays (intact.toQueue k stack there g member p toQueue)
  rw [content, meant]
  rcases eq_or_ne k t with rfl | other
  · rw [List.getElem?_set_self (List.getElem?_eq_some_iff.mp here).1] at there
    cases there
    rcases List.mem_append.mp member with new | old
    · by_cases response : ∃ q targets, f = .setRef q (.response targets)
      · -- the packet has just been allocated, for this thread
        obtain ⟨q, targets, rfl⟩ := response
        have same : q = p := by
          rcases List.mem_append.mp new with lock | drop
          · obtain ⟨id, -, rfl⟩ := List.mem_map.mp lock
            exact Option.some.inj toQueue
          · obtain rfl := List.mem_singleton.mp drop
            cases toQueue
        subst same
        simp only [Frame.act, Contents.fill, Function.update_self]
        exact w.bears h.allocs
      · push Not at response
        rcases toQueue_next f r response g new with same | none
        · exact kept k _ here f List.mem_cons_self (same ▸ toQueue)
        · rw [none] at toQueue
          cases toQueue
    · exact kept k _ here g (List.mem_cons_of_mem _ old) toQueue
  · rw [List.getElem?_set_ne other.symm] at there
    exact kept k stack there g member toQueue

include intact alive here done in
theorem Intact.inHand_step (k : Nat) (stack : List (Frame n))
    (there : (s.threads.set t (f.act.next r ++ rest))[k]? = some stack) (g : Frame n)
    (member : g ∈ stack) (p : PacketPtr) (inHand : g.inHand i = some p) :
    ((Contents.note w i t f rest r h).content p).Sealed
      (w.payload ((Contents.note w i t f rest r h).found k p)) := by
  obtain ⟨sendBuf, completeSendBuf, found⟩ := Contents.fill_queues w t h f.act.op
  have entry (q : Stamped) (inside : q ∈ h.sendBuf) :
      ((Contents.note w i t f rest r h).content q.packet).Sealed (w.payload q.alloc) := by
    have queued := List.mem_append_left h.completeSendBuf inside
    rw [intact.content_of_queued alive here queued]
    exact intact.queued q queued
  have kept (stack : List (Frame n)) (there : s.threads[k]? = some stack) (g : Frame n)
      (member : g ∈ stack) (inHand : g.inHand i = some p) :
      ((Contents.note w i t f rest r h).content p).Sealed
        (w.payload ((Contents.note w i t f rest r h).found k p)) := by
    have sealed := intact.inHand k stack there g member p inHand
    have stays := alive.stays here
      (alive.refs_pos_of_inHand (List.mem_of_getElem? there) member inHand)
    rcases Contents.found_stamp i t (h.fill w t f.act.op) f.act.op k p
      with same | ⟨q, inside, rfl, new⟩
    · rw [(Contents.note_content w i t f rest r h).1, Contents.fill_sealed stays sealed,
        Contents.note, same, found]
      exact sealed
    · rw [sendBuf] at inside
      rw [Contents.note, new]
      exact entry q inside
  rcases eq_or_ne k t with rfl | other
  · rw [List.getElem?_set_self (List.getElem?_eq_some_iff.mp here).1] at there
    cases there
    rcases List.mem_append.mp member with new | old
    · rcases inHand_next i f r g new with none | takes
      · rw [none] at inHand
        cases inHand
      · -- the thread has just taken it from `sendBuf`
        have mirrors : (h.fill w k f.act.op).Mirrors (s.mem.slot i) :=
          ⟨sendBuf ▸ intact.mirrors.sendBuf, completeSendBuf ▸ intact.mirrors.completeSendBuf⟩
        obtain ⟨q, inside, rfl, alloc⟩ :=
          Contents.found_of_takes (t := k) mirrors done (takes.symm.trans inHand)
        rw [sendBuf] at inside
        rw [Contents.note, alloc]
        exact entry q inside
    · exact kept _ here g (List.mem_cons_of_mem _ old) inHand
  · rw [List.getElem?_set_ne other.symm] at there
    exact kept stack there g member inHand

end Step

theorem Intact.step {w : Script} {i : Fin n} {s : Conf (Frame n) (Shared n)} {h : Contents}
    {t : Nat} {c : Choice n} {q : Conf (Frame n) (Shared n) × Contents} (intact : Intact w i s h)
    (alive : Alive s) (noted : (iocp n).noted (Contents.note w i) (s, h) t c = some q) :
    Intact w i q.1 q.2 := by
  obtain ⟨f, rest, r, m, here, done, rfl⟩ := Machine.noted_cases noted
  exact
    { mirrors := intact.mirrors_step done rest
      queued := intact.queued_step alive here (r := r)
      toQueue := intact.toQueue_step alive here
      inHand := intact.inHand_step alive here done }

/-! ## Runs -/

/-- **What is queued stays what was written**, in any run.  Beside a run and any
record of a slot that starts with the server, what waits in `sendBuf`, and what is
kept in `completeSendBuf` for the kernel, is counted and out of the pool; it is
encoded, so another `SendPacket` does not write to it; and it decodes to the payload
that was written for the `Alloc` by the thread that queued it. -/
theorem packets_intact {n : Nat} {w : Script} {sessionID : UINT64} {kinds : List ThreadKind}
    {i : Fin n} {s : Conf (Frame n) (Shared n)} {h : Contents}
    (run : (iocp n).NotedSteps (Contents.note w i) (fun _ _ _ => True)
      (Shared.boot n sessionID kinds, .nothing) (s, h)) :
    h.Mirrors (s.mem.slot i) ∧
      ∀ q ∈ h.sendBuf ++ h.completeSendBuf,
        0 < s.mem.packets.refs q.packet ∧ q.packet ∉ s.mem.packets.pool ∧
          (∀ randKey, (h.content q.packet).setEncodingCode randKey = h.content q.packet) ∧
          (h.content q.packet).DecodesTo (w.payload q.alloc) := by
  have all : Alive s ∧ Intact w i s h := by
    refine run.invariant (I := fun s h => Alive s ∧ Intact w i s h)
      ⟨.boot n sessionID kinds, .boot w n sessionID kinds i⟩ ?_
    intro p t c q both _ noted
    exact ⟨both.1.step (Machine.step_of_noted noted), both.2.step both.1 noted⟩
  obtain ⟨alive, intact⟩ := all
  refine ⟨intact.mirrors, ?_⟩
  intro q member
  have there : q.packet ∈ (s.mem.slot i).sendBuf ++ (s.mem.slot i).completeSendBuf := by
    rw [← intact.mirrors.sendBuf, ← intact.mirrors.completeSendBuf, ← List.map_append]
    exact List.mem_map_of_mem member
  have counted := alive.refs_pos_of_queued there
  obtain ⟨encoded, decodes⟩ := intact.queued q member
  exact ⟨counted, (alive.apart counted.ne').1,
    fun randKey => CPacket.setEncodingCode_of_encoded encoded, decodes⟩

theorem oneByte_fits : MESSAGE_HEADER_LEN + 0 + 1 ≤ CPacket.eBUFFER_DEFAULT := by decide

/-- Every packet is made of one byte, which tells them apart. -/
def oneByteEach : Script where
  payload k := [BitVec.ofNat 8 k]
  built k := CPacket.alloc.extend [BitVec.ofNat 8 k] oneByte_fits
  bears k := by
    have written : (CPacket.alloc.extend [BitVec.ofNat 8 k] oneByte_fits).Written
        [BitVec.ofNat 8 k] := ⟨rfl, rfl, rfl, rfl⟩
    have short : [BitVec.ofNat 8 k].length ≤ 507 := Nat.le_add_left 1 506
    exact written.bears short
  randKey _ := 0x5a

/-- Two packets are sent to the first session, one after the other, while the
first `WSASend` is still pending. -/
def sendTwo : List (Nat × Choice 1) :=
  acceptOne ++ (1, .call (.broadcast [firstID])) :: List.replicate 16 (1, .none) ++
    (1, .outcome true) :: List.replicate 2 (1, .none) ++
    (1, .call (.broadcast [firstID])) :: List.replicate 12 (1, .none)

/-- Two packets of one byte each are sent to a session, the second one while the first
is with the kernel: the first is there, and the second waits, each sealed with its own
byte. -/
theorem packets_intact_two :
    ∃ s h, (iocp 1).NotedSteps (Contents.note oneByteEach firstSlot) (fun _ _ _ => True)
        (Shared.boot 1 0 [.caller], .nothing) (s, h) ∧
      (s.mem.slot firstSlot).completeSendBuf = [0] ∧ (h.content 0).DecodesTo [0] ∧
      (s.mem.slot firstSlot).sendBuf = [1] ∧ (h.content 1).DecodesTo [1] := by
  have reached : ((iocp 1).runNoted (Contents.note oneByteEach firstSlot) (fun _ _ _ => True)
      sendTwo (Shared.boot 1 0 [.caller], .nothing)).map (fun p =>
        (p.2.completeSendBuf.map fun q => (q.packet, q.alloc),
          p.2.sendBuf.map fun q => (q.packet, q.alloc))) = some ([(0, 0)], [(1, 1)]) := by
    decide +kernel
  obtain ⟨⟨s, h⟩, taken, queues⟩ := Option.map_eq_some_iff.mp reached
  have sent : h.completeSendBuf.map (fun q => (q.packet, q.alloc)) = [(0, 0)] :=
    congrArg Prod.fst queues
  have waits : h.sendBuf.map (fun q => (q.packet, q.alloc)) = [(1, 1)] := congrArg Prod.snd queues
  have run := Machine.NotedSteps.of_run taken
  obtain ⟨mirrors, intact⟩ := packets_intact run
  have decodes (p : PacketPtr) (k : Nat)
      (member : (p, k) ∈ (h.sendBuf ++ h.completeSendBuf).map fun q => (q.packet, q.alloc)) :
      (h.content p).DecodesTo [BitVec.ofNat 8 k] := by
    obtain ⟨q, inside, same⟩ := List.mem_map.mp member
    cases same
    exact (intact q inside).2.2.2
  rw [List.map_append, sent, waits] at decodes
  refine ⟨s, h, run, ?_, decodes 0 0 (by simp), ?_, decodes 1 1 (by simp)⟩
  · rw [← mirrors.completeSendBuf]
    have packets := congrArg (List.map Prod.fst) sent
    rwa [List.map_map] at packets
  · rw [← mirrors.sendBuf]
    have packets := congrArg (List.map Prod.fst) waits
    rwa [List.map_map] at packets

end ChattingServer
