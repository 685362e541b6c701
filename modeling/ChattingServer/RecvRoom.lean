import ChattingServer.Rejection
import ChattingServer.RingRefinement
import ChattingServer.Foundation.Segmentation

/-!
# Room for the frame waited for

When no frame is complete `RecvComplete` leaves the bytes in the ring and posts
another receive for the free ones.  The ring holds one byte less than its size,
and a header can announce as many bytes as 16 bits say, so the largest frames
do not fit: such a frame fills the ring, the next receive is posted with no
bytes to fill, and the frame is never complete
(`waiting_receive_progresses_iff`).
-/

namespace ChattingServer

open Segmentation

/-- A frame with the code of the protocol and a payload that its header
announces, of any length that the length field can hold but none. -/
structure Announced where
  header : PacketHeader
  payload : List BYTE
  code : header.code = PACKET_CODE
  nonempty : header.len ≠ 0
  whole : payload.length = header.len.toNat

namespace Announced

def bytes (frame : Announced) : List BYTE := frame.header.bytes ++ frame.payload

@[simp] theorem length_bytes (frame : Announced) :
    frame.bytes.length = MESSAGE_HEADER_LEN + frame.header.len.toNat := by
  rw [bytes, List.length_append, PacketHeader.length_bytes, frame.whole]

variable {frame : Announced} {content : List BYTE}

/-- The header is known once its bytes are there. -/
theorem header_of_prefix (inside : content <+: frame.bytes)
    (long : MESSAGE_HEADER_LEN ≤ content.length) : Front.header content = frame.header := by
  have start : frame.header.bytes <+: content :=
    List.prefix_of_prefix_length_le (List.prefix_append _ _) inside
      (by rw [PacketHeader.length_bytes]; exact long)
  obtain ⟨rest, rfl⟩ := start
  rw [Front.header, List.take_left' frame.header.length_bytes, PacketHeader.at_write]

theorem front_of_part (part : PartOf content frame.bytes) : Front.of content = .part := by
  obtain ⟨inside, short⟩ := part
  rw [length_bytes] at short
  unfold Front.of
  by_cases noHeader : MESSAGE_HEADER_LEN > content.length
  · exact if_pos noHeader
  · have header := header_of_prefix inside (Nat.le_of_not_lt noHeader)
    rw [if_neg noHeader, header, if_neg (not_not.mpr frame.code), if_neg frame.nonempty,
      if_pos short]

end Announced

namespace Receiver

variable {σ : Type} (recvProc : σ → CPacket → Bool × σ)

/-- `RecvComplete` has left its loop, on a session that is not disconnected, to
wait for more bytes of the frame. -/
structure Waits (s : Receiver σ) (frame : Announced) : Prop where
  posted : s.posted = true
  live : s.isReleased = false
  part : PartOf s.recvBuf.content frame.bytes

/-- The rest of the frame can arrive, and `RecvComplete` then takes the frame. -/
def Completes (s : Receiver σ) (frame : Announced) : Prop :=
  ∃ more, s.Arrives recvProc more ∧ s.recvBuf.content ++ more.flatten = frame.bytes ∧
    ∃ c : Copy, (s.receive recvProc more).copies = s.copies ++ [c] ∧
      c.header = frame.header ∧ c.bytes = frame.payload

variable {recvProc} {s s' : Receiver σ} {frame : Announced} {bytes : List BYTE}

/-! ## The size of the ring -/

@[simp] theorem iBufSize_leaveLoop : s.leaveLoop.recvBuf.iBufSize = s.recvBuf.iBufSize := by
  unfold leaveLoop postRecv
  split <;> rfl

@[simp] theorem iBufSize_takeFrame : s.takeFrame.recvBuf.iBufSize = s.recvBuf.iBufSize := by
  unfold takeFrame
  rw [CRingBuffer.iBufSize_dequeue, CRingBuffer.iBufSize_moveFront]

theorem iBufSize_recvRound (recvProc : σ → CPacket → Bool × σ) (s : Receiver σ) :
    (s.recvRound recvProc).2.recvBuf.iBufSize = s.recvBuf.iBufSize := by
  simp only [recvRound]
  split_ifs
  · exact iBufSize_leaveLoop
  · rfl
  · rfl
  · exact iBufSize_leaveLoop
  · exact iBufSize_takeFrame
  · exact iBufSize_takeFrame
  · exact iBufSize_takeFrame
  · rw [recvBuf_onRecv]
    exact iBufSize_takeFrame

theorem iBufSize_recvLoop : ∀ {fuel : Nat} {s s' : Receiver σ},
    s.recvLoop recvProc fuel = some s' → s'.recvBuf.iBufSize = s.recvBuf.iBufSize
  | fuel + 1, s, s', run => by
      have round := iBufSize_recvRound recvProc s
      rw [recvLoop] at run
      split at run
      · rename_i next step
        rw [step] at round
        exact (iBufSize_recvLoop run).trans round
      · rename_i last step
        rw [step] at round
        cases run
        exact round

theorem iBufSize_completion (bytes : List BYTE) :
    (s.completion recvProc bytes).recvBuf.iBufSize = s.recvBuf.iBufSize := by
  by_cases none : bytes.length = 0
  · unfold completion recvComplete
    rw [if_pos none]
    rfl
  · have run := @completion_of_claim _ recvProc s _ none
    have same : (s.claim bytes).recvBuf.iBufSize = s.recvBuf.iBufSize := rfl
    exact (iBufSize_recvLoop run).trans same

theorem iBufSize_receive (chunks : List (List BYTE)) : ∀ {s : Receiver σ},
    (s.receive recvProc chunks).recvBuf.iBufSize = s.recvBuf.iBufSize := by
  induction chunks with
  | nil => exact rfl
  | cons bytes rest ih =>
      intro s
      rw [receive]
      split
      · exact ih.trans (iBufSize_completion bytes)
      · rfl

/-! ## Bytes of the frame waited for -/

/-- A completion that does not complete the frame. -/
theorem completion_part (recvProc : σ → CPacket → Bool × σ) (waits : s.Waits frame)
    (nonempty : 1 ≤ bytes.length) (fits : bytes.length ≤ s.recvBuf.getFreeSize)
    (part : PartOf (s.recvBuf.content ++ bytes) frame.bytes) :
    (s.completion recvProc bytes).Waits frame ∧
      (s.completion recvProc bytes).recvBuf.content = s.recvBuf.content ++ bytes ∧
      (s.completion recvProc bytes).copies = s.copies := by
  have claimed : (s.claim bytes).recvBuf.content = s.recvBuf.content ++ bytes :=
    s.recvBuf.content_fill_moveRear fits
  have front : (s.claim bytes).front = .part := by
    rw [Receiver.front, claimed]
    exact Announced.front_of_part part
  have round := (s.claim bytes).recvRound_eq_of_front recvProc
  rw [front] at round
  have run := @completion_of_claim _ recvProc s _ (Nat.ne_of_gt nonempty)
  rw [recvLoop, round] at run
  have same := Option.some.inj run
  have live : (s.claim bytes).isReleased = false := waits.live
  rw [← same, leaveLoop_of_live live]
  exact ⟨⟨rfl, waits.live, claimed.symm ▸ part⟩, claimed, rfl⟩

/-- A round with the whole frame in the ring takes it. -/
theorem recvRound_whole (recvProc : σ → CPacket → Bool × σ)
    (content : s.recvBuf.content = frame.bytes) :
    ∃ c : Copy, c.header = frame.header ∧ c.bytes = frame.payload ∧
      (s.recvRound recvProc).2.copies = s.copies ++ [c] ∧
      (s.recvRound recvProc).2.recvBuf.content = [] := by
  have use : s.recvBuf.getUseSize = MESSAGE_HEADER_LEN + frame.header.len.toNat := by
    rw [← CRingBuffer.length_content, content, Announced.length_bytes]
  have header : s.peekHeader = frame.header := by
    rw [peekHeader_eq, content]
    exact Announced.header_of_prefix (List.prefix_refl _) (by
      rw [Announced.length_bytes]
      exact Nat.le_add_right _ _)
  refine ⟨s.takeCopy, header, ?_, ?_⟩
  · rw [bytes_takeCopy, content, header, Announced.bytes,
      List.drop_left' frame.header.length_bytes, ← frame.whole, List.take_length]
  · have empty : s.takeFrame.recvBuf.content = [] := by
      rw [content_takeFrame, content, header]
      exact List.drop_of_length_le (Nat.le_of_eq frame.length_bytes)
    simp only [recvRound]
    rw [header, if_neg (by omega), if_neg (not_not.mpr frame.code), if_neg frame.nonempty,
      if_neg (by omega)]
    split_ifs
    · exact ⟨rfl, empty⟩
    · exact ⟨rfl, empty⟩
    · exact ⟨rfl, empty⟩
    · exact ⟨copies_onRecv _, by rw [recvBuf_onRecv]; exact empty⟩

/-- A loop on an empty ring copies nothing. -/
theorem copies_recvLoop_of_empty {fuel : Nat} (empty : s.recvBuf.content = [])
    (run : s.recvLoop recvProc fuel = some s') : s'.copies = s.copies := by
  cases fuel with
  | zero => cases run
  | succ fuel =>
      have front : s.front = .part := by
        rw [Receiver.front, empty]
        rfl
      have round := s.recvRound_eq_of_front recvProc
      rw [front] at round
      rw [recvLoop, round] at run
      cases run
      exact copies_leaveLoop

/-- A completion that completes the frame. -/
theorem completion_whole (nonempty : 1 ≤ bytes.length)
    (fits : bytes.length ≤ s.recvBuf.getFreeSize)
    (whole : s.recvBuf.content ++ bytes = frame.bytes) :
    ∃ c : Copy, (s.completion recvProc bytes).copies = s.copies ++ [c] ∧
      c.header = frame.header ∧ c.bytes = frame.payload := by
  have claimed : (s.claim bytes).recvBuf.content = frame.bytes :=
    (s.recvBuf.content_fill_moveRear fits).trans whole
  obtain ⟨c, header, payload, copies, empty⟩ := recvRound_whole recvProc claimed
  refine ⟨c, ?_, header, payload⟩
  have run := @completion_of_claim _ recvProc s _ (Nat.ne_of_gt nonempty)
  rw [recvLoop] at run
  split at run
  · rename_i next step
    rw [step] at copies empty
    exact (copies_recvLoop_of_empty empty run).trans copies
  · rename_i last step
    rw [step] at copies
    cases run
    exact copies

/-- A frame that is longer than the ring is waited for, whatever arrives. -/
theorem copies_receive_of_long {more : List (List BYTE)}
    (long : s.recvBuf.iBufSize ≤ frame.bytes.length) (waits : s.Waits frame)
    (arrives : s.Arrives recvProc more)
    (inside : s.recvBuf.content ++ more.flatten <+: frame.bytes) :
    (s.receive recvProc more).copies = s.copies := by
  induction more generalizing s with
  | nil => rfl
  | cons bytes rest ih =>
      obtain ⟨nonempty, fits, arrives⟩ := arrives waits.posted
      rw [List.flatten_cons, ← List.append_assoc] at inside
      have short : (s.recvBuf.content ++ bytes).length < frame.bytes.length := by
        have split := s.recvBuf.getUseSize_add_getFreeSize
        have pos := s.recvBuf.size_pos
        rw [List.length_append, CRingBuffer.length_content]
        omega
      obtain ⟨waits', content, copies⟩ := completion_part recvProc waits nonempty fits
        ⟨(List.prefix_append _ _).trans inside, short⟩
      rw [receive, if_pos waits.posted]
      refine (ih ?_ waits' arrives ?_).trans copies
      · rw [iBufSize_completion]
        exact long
      · rw [content]
        exact inside

theorem completes_iff (waits : s.Waits frame) :
    s.Completes recvProc frame ↔ frame.bytes.length < s.recvBuf.iBufSize := by
  constructor
  · rintro ⟨more, arrives, stream, c, copies, -⟩
    by_contra long
    have none := copies_receive_of_long (Nat.le_of_not_lt long) waits arrives
      (stream ▸ List.prefix_refl _)
    rw [copies] at none
    exact List.cons_ne_nil c [] (List.append_right_eq_self.mp none)
  · intro short
    obtain ⟨⟨rest, whole⟩, missing⟩ := waits.part
    have size := congrArg List.length whole
    rw [List.length_append, CRingBuffer.length_content] at size
    rw [CRingBuffer.length_content] at missing
    have split := s.recvBuf.getUseSize_add_getFreeSize
    have nonempty : 1 ≤ rest.length := by omega
    have fits : rest.length ≤ s.recvBuf.getFreeSize := by omega
    refine ⟨[rest], fun _ => ⟨nonempty, fits, trivial⟩, ?_, ?_⟩
    · rw [List.flatten_singleton]
      exact whole
    · rw [receive, if_pos waits.posted]
      exact completion_whole nonempty fits whole

/-- A new session waits for whatever frame comes. -/
theorem waits_start (rb : CRingBuffer) (app : σ) (frame : Announced) :
    (start rb app).Waits frame := by
  refine ⟨rfl, rfl, ?_⟩
  have empty : (start rb app).recvBuf.content = [] := CRingBuffer.content_clearBuffer rb
  rw [empty]
  refine ⟨List.nil_prefix, ?_⟩
  rw [Announced.length_bytes]
  exact Nat.lt_of_lt_of_le (by decide) (Nat.le_add_right _ _)

/-- Of a frame longer than the ring, one completion can bring all that the ring
holds; then nothing more of it can come. -/
theorem stalls_of_long (recvProc : σ → CPacket → Bool × σ) (rb : CRingBuffer) (app : σ)
    (two : 2 ≤ rb.iBufSize) (long : rb.iBufSize ≤ frame.bytes.length) :
    let bytes := frame.bytes.take (rb.iBufSize - 1)
    let s := (start rb app).receive recvProc [bytes]
    (start rb app).Arrives recvProc [bytes] ∧ s.Waits frame ∧ s.recvBuf.getFreeSize = 0 ∧
      (s.recvBuf.wsaBufs.map Prod.snd).sum = 0 ∧ ¬ s.Completes recvProc frame := by
  intro bytes s
  have length : bytes.length = rb.iBufSize - 1 := by
    rw [List.length_take]
    omega
  have empty : (start rb app).recvBuf.content = [] := CRingBuffer.content_clearBuffer rb
  have size : (start rb app).recvBuf.iBufSize = rb.iBufSize := rfl
  have use : (start rb app).recvBuf.getUseSize = 0 := by
    rw [← CRingBuffer.length_content, empty]
    rfl
  have split := (start rb app).recvBuf.getUseSize_add_getFreeSize
  have nonempty : 1 ≤ bytes.length := by omega
  have fits : bytes.length ≤ (start rb app).recvBuf.getFreeSize := by omega
  obtain ⟨waits, content, -⟩ := completion_part recvProc
    (waits_start rb app frame) nonempty fits (by
      rw [empty, List.nil_append]
      exact ⟨List.take_prefix _ _, by omega⟩)
  have block : s.recvBuf.iBufSize = rb.iBufSize := iBufSize_receive _
  have held : s.recvBuf.getUseSize = bytes.length := by
    rw [← CRingBuffer.length_content]
    exact congrArg List.length content
  have after := s.recvBuf.getUseSize_add_getFreeSize
  have full : s.recvBuf.getFreeSize = 0 := by omega
  refine ⟨fun _ => ⟨nonempty, fits, trivial⟩, waits, full, s.recvBuf.sum_wsaBufs.trans full, ?_⟩
  intro completes
  have short := (completes_iff waits).mp completes
  exact Nat.not_lt.mpr long (block ▸ short)

/-- **A waiting receive can progress** exactly when the frame waited for
announces at most 65530 bytes: then the ring has a byte free, so that the
receive posted is not empty, and the frame can be completed. -/
theorem waiting_receive_progresses_iff (recvProc : σ → CPacket → Bool × σ) (rb : CRingBuffer)
    (size : rb.iBufSize = BUF_SIZE) (app : σ) (frame : Announced) :
    ((∀ chunks, (start rb app).Arrives recvProc chunks →
        let s := (start rb app).receive recvProc chunks
        s.Waits frame →
          1 ≤ s.recvBuf.getFreeSize ∧ 1 ≤ (s.recvBuf.wsaBufs.map Prod.snd).sum) ↔
      frame.header.len.toNat ≤ 65530) ∧
    ((∀ chunks, (start rb app).Arrives recvProc chunks →
        let s := (start rb app).receive recvProc chunks
        s.Waits frame → s.Completes recvProc frame) ↔
      frame.header.len.toNat ≤ 65530) := by
  have block : BUF_SIZE = 65536 := rfl
  have head : MESSAGE_HEADER_LEN = 5 := rfl
  have length := frame.length_bytes
  have sizes (chunks : List (List BYTE)) :
      ((start rb app).receive recvProc chunks).recvBuf.iBufSize = BUF_SIZE :=
    (iBufSize_receive chunks).trans size
  refine ⟨⟨?_, ?_⟩, ⟨?_, ?_⟩⟩
  · intro progresses
    by_contra long
    obtain ⟨arrives, waits, full, -⟩ := stalls_of_long recvProc rb app (by omega)
      (show rb.iBufSize ≤ frame.bytes.length by omega)
    obtain ⟨room, -⟩ := progresses _ arrives waits
    omega
  · intro short chunks arrives s waits
    rw [CRingBuffer.sum_wsaBufs]
    have missing := waits.part.2
    have split := s.recvBuf.getUseSize_add_getFreeSize
    rw [sizes chunks, ← CRingBuffer.length_content] at split
    omega
  · intro completes
    have first := (completes_iff (waits_start rb app frame)).mp
      (completes [] trivial (waits_start rb app frame))
    have same : (start rb app).recvBuf.iBufSize = rb.iBufSize := rfl
    omega
  · intro short chunks arrives s waits
    apply (completes_iff waits).mpr
    rw [sizes chunks]
    omega

/-- The longest frame that fits, with nothing but its code received. -/
theorem waiting_receive_progresses_longest :
    let frame : Announced := ⟨⟨PACKET_CODE, 65530, 0, 0⟩, List.replicate 65530 0, rfl, by decide,
      List.length_replicate⟩
    ((start CRingBuffer.new ()).receive acceptAll [[PACKET_CODE]]).Completes acceptAll frame := by
  intro frame
  have one : 1 ≤ [PACKET_CODE].length := Nat.le_refl 1
  have fits : [PACKET_CODE].length ≤ (start CRingBuffer.new ()).recvBuf.getFreeSize := by
    decide +kernel
  have part : PartOf ((start CRingBuffer.new ()).recvBuf.content ++ [PACKET_CODE])
      frame.bytes := by
    refine ⟨⟨frame.bytes.tail, rfl⟩, ?_⟩
    rw [frame.length_bytes]
    decide +kernel
  obtain ⟨waits, -⟩ := completion_part acceptAll
    (waits_start CRingBuffer.new () frame) one fits part
  exact (waiting_receive_progresses_iff acceptAll CRingBuffer.new rfl () frame).2.mpr
    (by decide) [[PACKET_CODE]] (fun _ => ⟨one, fits, trivial⟩) waits

/-- A frame that announces 65531 bytes fills the ring: the receive posted then
has no bytes to fill, and the frame is never complete. -/
theorem waiting_receive_stalls :
    let frame : Announced := ⟨⟨PACKET_CODE, 65531, 0, 0⟩, List.replicate 65531 0, rfl, by decide,
      List.length_replicate⟩
    let s := (start CRingBuffer.new ()).receive acceptAll [frame.bytes.take 65535]
    (start CRingBuffer.new ()).Arrives acceptAll [frame.bytes.take 65535] ∧ s.Waits frame ∧
      s.recvBuf.getFreeSize = 0 ∧ (s.recvBuf.wsaBufs.map Prod.snd).sum = 0 ∧
      ¬ s.Completes acceptAll frame := by
  intro frame
  have long : CRingBuffer.new.iBufSize ≤ frame.bytes.length := by
    rw [frame.length_bytes]
    decide +kernel
  exact stalls_of_long acceptAll CRingBuffer.new () (by decide +kernel) long

end Receiver

end ChattingServer
