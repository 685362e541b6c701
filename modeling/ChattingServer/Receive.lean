import ChattingServer.CRingBuffer
import ChattingServer.Codec

/-!
# The receive path of one session

`PostRecv` offers the free bytes of the ring in one or two segments; the
kernel fills them in order; `RecvComplete` claims the bytes and takes frames
off the ring until none is complete.  A worker runs it while it holds the
completion's own `ioCount`, so `DisConnect` only marks the session here.

The packets `OnRecv` is called with and the copies made into fresh packets are
recorded.  A copy past the end of its packet leaves nothing to say about what
the process does next: the state is then marked `overrun` and goes nowhere.
-/

namespace ChattingServer

/-- The segments `PostRecv` passes to `WSARecv`, as offsets and lengths. -/
def CRingBuffer.wsaBufs (rb : CRingBuffer) : List (Nat × Nat) :=
  let first := (rb.iRearPos, rb.directEnqueueSize)
  if rb.directEnqueueSize < rb.getFreeSize then
    [first, (0, rb.getFreeSize - rb.directEnqueueSize)]
  else
    [first]

/-- Received bytes as the kernel leaves them in the offered segments. -/
def CRingBuffer.fill (rb : CRingBuffer) (bytes : List BYTE) : CRingBuffer :=
  rb.withData (rb.data.scatter rb.wsaBufs bytes)

/-- The offered segments are the walk from the rear over the free bytes. -/
theorem CRingBuffer.fill_eq (rb : CRingBuffer) {bytes : List BYTE}
    (fits : bytes.length ≤ rb.getFreeSize) :
    rb.fill bytes = rb.withData (Circular.lay rb.data rb.iBufSize rb.iRearPos bytes) := by
  have front := rb.front_lt
  have rear := rb.rear_lt
  have split := rb.getUseSize_add_getFreeSize
  have use : rb.getUseSize = if rb.iRearPos ≥ rb.iFrontPos then rb.iRearPos - rb.iFrontPos
    else rb.iBufSize - rb.iFrontPos + rb.iRearPos := rfl
  have direct : rb.directEnqueueSize = if rb.iFrontPos > rb.iRearPos
    then rb.iFrontPos - rb.iRearPos - 1
    else rb.iBufSize - rb.iRearPos - (if rb.iFrontPos = 0 then 1 else 0) := rfl
  unfold fill
  congr 1
  by_cases two : rb.directEnqueueSize < rb.getFreeSize
  · -- the first segment then runs to the very end of the block
    have toEnd : rb.iRearPos + rb.directEnqueueSize = rb.iBufSize := by
      split_ifs at use direct <;> omega
    rw [wsaBufs, if_pos two]
    simp only [Memory.scatter]
    by_cases wraps : rb.directEnqueueSize ≤ bytes.length
    · rw [List.take_of_length_le (l := bytes.drop _) (by rw [List.length_drop]; omega),
        ← Circular.lay_eq_writes rear (by rw [List.length_take]; omega)
          (by rw [List.take_append_drop]; omega), List.take_append_drop]
    · rw [List.take_of_length_le (by omega), List.drop_of_length_le (by omega), List.take_nil,
        Memory.write_nil, Circular.lay_eq_write (by omega)]
  · have one : rb.getFreeSize ≤ rb.directEnqueueSize ∧
        rb.iRearPos + rb.getFreeSize ≤ rb.iBufSize := by
      split_ifs at use direct <;> omega
    rw [wsaBufs, if_neg two]
    simp only [Memory.scatter]
    rw [List.take_of_length_le (by omega), Circular.lay_eq_write (by omega)]

/-- Filling the segments and moving the rear appends the bytes. -/
theorem CRingBuffer.content_fill_moveRear (rb : CRingBuffer) {bytes : List BYTE}
    (fits : bytes.length ≤ rb.getFreeSize) :
    ((rb.fill bytes).moveRear bytes.length).content = rb.content ++ bytes := by
  have room : bytes.length ≤
      (rb.withData (Circular.lay rb.data rb.iBufSize rb.iRearPos bytes)).getFreeSize := fits
  rw [rb.fill_eq fits, moveRear_of_le _ room]
  exact rb.content_lay_advanceRear fits

/-- One copy of `RecvComplete`: the peeked header, the packet just allocated,
the bytes `Dequeue` wrote at its `GetBufferPtr()`. -/
structure Copy where
  header : PacketHeader
  packet : CPacket
  bytes : List BYTE

/-- The packet after the copy and `MoveWritePos`. -/
def Copy.filled (c : Copy) : CPacket :=
  (c.packet.fillBuffer c.bytes).moveWritePos c.header.len.toNat

/-- The receive side of a session, with the state `RecvProc` works on. -/
structure Receiver (σ : Type) where
  recvBuf : CRingBuffer
  isReleased : Bool
  /-- A receive is outstanding. -/
  posted : Bool
  overrun : Bool
  copies : List Copy
  /-- The payloads `OnRecv` was called with. -/
  received : List (List BYTE)
  app : σ

namespace Receiver

variable {σ : Type} (recvProc : σ → CPacket → Bool × σ)

/-- A session as `CreateSession` leaves it, its first receive posted. -/
def start (rb : CRingBuffer) (app : σ) : Receiver σ where
  recvBuf := rb.clearBuffer
  isReleased := false
  posted := true
  overrun := false
  copies := []
  received := []
  app := app

def disConnect (s : Receiver σ) : Receiver σ := { s with isReleased := true }

def postRecv (s : Receiver σ) : Receiver σ :=
  if s.isReleased then s else { s with posted := true }

/-- `OnRecv`: a request `RecvProc` turns down disconnects the session. -/
def onRecv (s : Receiver σ) (packet : CPacket) : Receiver σ :=
  let (ok, app) := recvProc s.app packet
  let s := { s with app := app, received := s.received ++ [packet.data] }
  if ok then s else s.disConnect

/-- The header `Peek` copies out of the ring. -/
def peekHeader (s : Receiver σ) : PacketHeader :=
  PacketHeader.at (Memory.write (fun _ => 0) 0 (s.recvBuf.peek MESSAGE_HEADER_LEN))

/-- What `RecvComplete` does after its loop. -/
def leaveLoop (s : Receiver σ) : Receiver σ :=
  if s.isReleased then s else s.postRecv

/-- The copy made for the frame at the front of the ring: `MoveFront` over the
header, `Alloc`, `Clear`, `SetMessageHeader` and `Dequeue`. -/
def takeCopy (s : Receiver σ) : Copy where
  header := s.peekHeader
  packet := CPacket.alloc.clear.setMessageHeader s.peekHeader.bytes
  bytes := ((s.recvBuf.moveFront MESSAGE_HEADER_LEN).dequeue s.peekHeader.len.toNat).1

/-- The session once that frame has left the ring. -/
def takeFrame (s : Receiver σ) : Receiver σ :=
  { s with
    recvBuf := ((s.recvBuf.moveFront MESSAGE_HEADER_LEN).dequeue s.peekHeader.len.toNat).2
    copies := s.copies ++ [s.takeCopy] }

/-- One round of the `while (true)` of `RecvComplete`; the flag says whether
another follows. -/
def recvRound (s : Receiver σ) : Bool × Receiver σ :=
  let qSize := s.recvBuf.getUseSize
  let stHeader := s.peekHeader
  if MESSAGE_HEADER_LEN > qSize then
    (false, s.leaveLoop)
  else if stHeader.code ≠ PACKET_CODE then
    (false, s.disConnect)
  else if stHeader.len = 0 then
    (false, s.disConnect)
  else if MESSAGE_HEADER_LEN + stHeader.len.toNat > qSize then
    (false, s.leaveLoop)
  else
    let copy := s.takeCopy
    let s := s.takeFrame
    if copy.bytes.length > copy.packet.payloadCapacity then
      (false, { s with overrun := true })
    else if stHeader.len.toNat ≠ copy.bytes.length then
      (false, s.disConnect)
    else
      let (decoded, cPacket) := copy.filled.setDecodingCode
      if decoded = false then (false, s.disConnect) else (true, s.onRecv recvProc cPacket)

/-- The loop, for at most `fuel` rounds. -/
def recvLoop : Nat → Receiver σ → Option (Receiver σ)
  | 0, _ => none
  | fuel + 1, s =>
      match s.recvRound recvProc with
      | (true, s) => recvLoop fuel s
      | (false, s) => some s

/-! ## A round -/

section Round

variable {recvProc : σ → CPacket → Bool × σ} {s : Receiver σ}

@[simp] theorem recvBuf_onRecv (packet : CPacket) :
    (s.onRecv recvProc packet).recvBuf = s.recvBuf := by
  simp only [onRecv]
  split <;> rfl

@[simp] theorem copies_onRecv (packet : CPacket) :
    (s.onRecv recvProc packet).copies = s.copies := by
  simp only [onRecv]
  split <;> rfl

/-- A session that is still there posts another receive. -/
theorem leaveLoop_of_live (live : s.isReleased = false) :
    s.leaveLoop = { s with posted := true } := by
  rw [leaveLoop, postRecv, live]
  rfl

@[simp] theorem copies_leaveLoop : s.leaveLoop.copies = s.copies := by
  unfold leaveLoop postRecv
  split <;> rfl

@[simp] theorem content_takeFrame :
    s.takeFrame.recvBuf.content =
      s.recvBuf.content.drop (MESSAGE_HEADER_LEN + s.peekHeader.len.toNat) := by
  show ((s.recvBuf.moveFront MESSAGE_HEADER_LEN).dequeue _).2.content = _
  rw [CRingBuffer.content_dequeue, CRingBuffer.content_moveFront, List.drop_drop]

theorem bytes_takeCopy :
    s.takeCopy.bytes =
      (s.recvBuf.content.drop MESSAGE_HEADER_LEN).take s.peekHeader.len.toNat := by
  unfold takeCopy
  rw [CRingBuffer.dequeue_fst, CRingBuffer.content_moveFront]

/-- The whole payload is on the ring when the frame is complete. -/
theorem length_bytes_takeCopy
    (complete : MESSAGE_HEADER_LEN + s.peekHeader.len.toNat ≤ s.recvBuf.getUseSize) :
    s.takeCopy.bytes.length = s.peekHeader.len.toNat := by
  rw [bytes_takeCopy, List.length_take, List.length_drop, CRingBuffer.length_content]
  omega

/-- What a round can do to the record of copies, and what going on costs. -/
theorem recvRound_cases (recvProc : σ → CPacket → Bool × σ) (s : Receiver σ) :
    ((s.recvRound recvProc).1 = false ∧ (s.recvRound recvProc).2.copies = s.copies) ∨
      (MESSAGE_HEADER_LEN + s.peekHeader.len.toNat ≤ s.recvBuf.getUseSize ∧
        (s.recvRound recvProc).2.copies = s.copies ++ [s.takeCopy] ∧
        (s.recvRound recvProc).2.recvBuf = s.takeFrame.recvBuf) := by
  simp only [recvRound]
  split_ifs with header code empty partial_ full short rejected
  · exact Or.inl ⟨rfl, copies_leaveLoop⟩
  · exact Or.inl ⟨rfl, rfl⟩
  · exact Or.inl ⟨rfl, rfl⟩
  · exact Or.inl ⟨rfl, copies_leaveLoop⟩
  · exact Or.inr ⟨by omega, rfl, rfl⟩
  · exact Or.inr ⟨by omega, rfl, rfl⟩
  · exact Or.inr ⟨by omega, rfl, rfl⟩
  · exact Or.inr ⟨by omega, copies_onRecv _, recvBuf_onRecv _⟩

/-- A round that goes on has taken a frame off the ring. -/
theorem getUseSize_recvRound (recvProc : σ → CPacket → Bool × σ) (s : Receiver σ)
    (goes : (s.recvRound recvProc).1 = true) :
    (s.recvRound recvProc).2.recvBuf.getUseSize < s.recvBuf.getUseSize := by
  rcases recvRound_cases recvProc s with ⟨stops, -⟩ | ⟨complete, -, ring⟩
  · rw [stops] at goes
    cases goes
  · rw [ring, ← CRingBuffer.length_content, content_takeFrame, List.length_drop,
      CRingBuffer.length_content]
    unfold MESSAGE_HEADER_LEN at *
    omega

end Round

/-- The loop ends: rounds that go on empty the ring. -/
theorem recvLoop_isSome :
    ∀ {fuel : Nat} {s : Receiver σ}, s.recvBuf.getUseSize < fuel →
      (recvLoop recvProc fuel s).isSome = true
  | fuel + 1, s, enough => by
      rw [recvLoop]
      split
      · rename_i s' round
        have less := getUseSize_recvRound recvProc s (by rw [round])
        rw [round] at less
        exact recvLoop_isSome (Nat.lt_of_lt_of_le less (Nat.lt_succ_iff.mp enough))
      · rfl

/-- `RecvComplete`: its loop, given rounds enough to end. -/
def recvComplete (s : Receiver σ) (dwTransferred : Nat) : Receiver σ :=
  if dwTransferred = 0 then
    s.disConnect
  else
    let s := { s with recvBuf := s.recvBuf.moveRear dwTransferred }
    (s.recvLoop recvProc (s.recvBuf.getUseSize + 1)).get
      (recvLoop_isSome recvProc (Nat.lt_succ_self _))

/-- A completion of the outstanding receive with the bytes the kernel put in
the offered segments. -/
def completion (s : Receiver σ) (bytes : List BYTE) : Receiver σ :=
  { s with posted := false, recvBuf := s.recvBuf.fill bytes }.recvComplete recvProc bytes.length

/-- The completions of a session in turn, as long as a receive is posted. -/
def receive : Receiver σ → List (List BYTE) → Receiver σ
  | s, [] => s
  | s, bytes :: rest => if s.posted then receive (s.completion recvProc bytes) rest else s

/-- Every completion brings at least one byte and at most the offered ones. -/
def Offered : Receiver σ → List (List BYTE) → Prop
  | _, [] => True
  | s, bytes :: rest =>
      1 ≤ bytes.length ∧ bytes.length ≤ s.recvBuf.getFreeSize ∧
        Offered (s.completion recvProc bytes) rest

/-- The session is not disconnected, and nothing has been written behind a
packet. -/
structure Open (s : Receiver σ) : Prop where
  live : s.isReleased = false
  sound : s.overrun = false

end Receiver

/-! ## The copies of a run -/

namespace Copy

/-- The bytes stay inside the payload of the packet, and the packet then holds
as many as the header announces. -/
def InBounds (c : Copy) : Prop :=
  c.bytes.length ≤ c.packet.payloadCapacity ∧ c.filled.getDataSize = c.header.len.toNat

/-- As many bytes as the header announces, for a cleared packet of the default
size: what every copy of a run is. -/
structure Whole (c : Copy) : Prop where
  bytes : c.bytes.length = c.header.len.toNat
  size : c.packet.iMaxSize = CPacket.eBUFFER_DEFAULT
  empty : c.packet.iUsingSize = 0

theorem Whole.getDataSize_filled {c : Copy} (whole : c.Whole) :
    c.filled.getDataSize = min c.header.len.toNat CPacket.eBUFFER_DEFAULT := by
  show c.packet.iUsingSize + (if c.header.len.toNat > c.packet.iMaxSize - c.packet.iUsingSize
    then c.packet.iMaxSize - c.packet.iUsingSize else c.header.len.toNat) = _
  rw [whole.empty, whole.size]
  split <;> omega

/-- `MoveWritePos` clamps at the block, the copy does not clamp at all: only a
header length within the payload capacity is safe. -/
theorem Whole.inBounds_iff {c : Copy} (whole : c.Whole) :
    c.InBounds ↔ c.header.len.toNat ≤ 507 := by
  have capacity : c.packet.payloadCapacity = 507 := by
    rw [CPacket.payloadCapacity, whole.size]
    rfl
  have block : CPacket.eBUFFER_DEFAULT = 512 := rfl
  rw [InBounds, whole.bytes, capacity, whole.getDataSize_filled]
  omega

end Copy

namespace Receiver

variable {σ : Type} {recvProc : σ → CPacket → Bool × σ}

/-- Every copy made so far is whole. -/
def AllWhole (s : Receiver σ) : Prop := ∀ c ∈ s.copies, c.Whole

theorem AllWhole.recvRound (recvProc : σ → CPacket → Bool × σ) {s : Receiver σ}
    (h : s.AllWhole) :
    (s.recvRound recvProc).2.AllWhole := by
  intro c member
  rcases recvRound_cases recvProc s with ⟨-, copies⟩ | ⟨complete, copies, -⟩
  · rw [copies] at member
    exact h c member
  · rw [copies, List.mem_append, List.mem_singleton] at member
    rcases member with old | rfl
    · exact h c old
    · exact ⟨length_bytes_takeCopy complete, rfl, rfl⟩

theorem AllWhole.recvLoop :
    ∀ {fuel : Nat} {s s' : Receiver σ}, s.AllWhole → s.recvLoop recvProc fuel = some s' →
      s'.AllWhole
  | fuel + 1, s, s', h, run => by
      have round := h.recvRound recvProc
      rw [Receiver.recvLoop] at run
      split at run
      · rename_i next step
        rw [step] at round
        exact AllWhole.recvLoop round run
      · rename_i last step
        rw [step] at round
        cases run
        exact round

theorem AllWhole.completion {s : Receiver σ} (h : s.AllWhole) (bytes : List BYTE) :
    (s.completion recvProc bytes).AllWhole := by
  unfold Receiver.completion recvComplete
  split
  · exact h
  · have claimed : AllWhole { s with
        posted := false
        recvBuf := (s.recvBuf.fill bytes).moveRear bytes.length } := h
    exact claimed.recvLoop (Option.some_get _).symm

theorem AllWhole.receive {chunks : List (List BYTE)} :
    ∀ {s : Receiver σ}, s.AllWhole → (s.receive recvProc chunks).AllWhole := by
  induction chunks with
  | nil => exact fun h => h
  | cons bytes rest ih =>
      intro s h
      rw [Receiver.receive]
      split
      · exact ih (h.completion bytes)
      · exact h

/-- **Receive-side bounds.** Whatever arrives and however it is cut, a copy of
`RecvComplete` stays in its packet's payload, with the data size its header
announces, exactly when that header announces at most 507 bytes. -/
theorem recv_copy_inBounds_iff (recvProc : σ → CPacket → Bool × σ) (rb : CRingBuffer) (app : σ)
    (chunks : List (List BYTE)) :
    ∀ c ∈ ((start rb app).receive recvProc chunks).copies,
      c.InBounds ↔ c.header.len.toNat ≤ 507 := by
  have none : (start rb app).AllWhole := by
    intro c member
    cases member
  intro c member
  exact (none.receive c member).inBounds_iff

/-- A handler that turns nothing down. -/
def acceptAll : Unit → CPacket → Bool × Unit := fun _ _ => (true, ())

/-- A frame that announces and carries 508 payload bytes. -/
def oversizedFrame : List BYTE := [0x77, 0xFC, 0x01, 0x00, 0x00] ++ List.replicate 508 0x41

/-- A frame that announces 508 bytes writes them into a payload of 507. -/
theorem recv_copy_overrun :
    ¬ ∀ (rb : CRingBuffer) (chunks : List (List BYTE)),
      ∀ c ∈ ((start rb ()).receive acceptAll chunks).copies, c.InBounds := by
  intro bounds
  have copied : (((start CRingBuffer.new ()).receive acceptAll [oversizedFrame]).copies.map
      fun c => c.bytes.length) = [508] := by decide +kernel
  obtain ⟨c, member, length⟩ := List.mem_map.mp (copied ▸ List.mem_singleton_self 508)
  have whole := (bounds CRingBuffer.new [oversizedFrame] c member).1
  have capacity : (((start CRingBuffer.new ()).receive acceptAll [oversizedFrame]).copies.all
      fun c => decide (c.packet.payloadCapacity = 507)) = true := by decide +kernel
  have bound := of_decide_eq_true (List.all_eq_true.mp capacity c member)
  omega

/-- A frame of one byte, split inside its header: its copy is in bounds. -/
theorem recv_copy_inBounds_split :
    let s := (start CRingBuffer.new ()).receive acceptAll [[0x77, 0x01], [0x00, 0x00, 0x41, 0x72]]
    ∃ c ∈ s.copies, c.header.len.toNat = 1 ∧ c.InBounds := by
  have copied : (((start CRingBuffer.new ()).receive acceptAll
      [[0x77, 0x01], [0x00, 0x00, 0x41, 0x72]]).copies.map
        fun c => c.header.len.toNat) = [1] := by decide +kernel
  obtain ⟨c, member, len⟩ := List.mem_map.mp (copied ▸ List.mem_singleton_self 1)
  exact ⟨c, member, len, (recv_copy_inBounds_iff acceptAll CRingBuffer.new ()
    [[0x77, 0x01], [0x00, 0x00, 0x41, 0x72]] c member).mpr (by omega)⟩

end Receiver

end ChattingServer
