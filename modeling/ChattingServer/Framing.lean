import ChattingServer.Receive
import ChattingServer.Foundation.Segmentation

/-!
# Framing

What `RecvComplete` makes of a stream of frames that `SetEncodingCode`
produced, however the stream is cut into completions: `OnRecv` gets the
payloads, once each and in order, and the ring keeps the bytes of the frame
that is not complete yet.

The invariant of a run is that the ring holds a part of the next frame; one
completion (`completion_frames`) takes every frame it completes and leaves such
a part again.
-/

namespace ChattingServer

open Segmentation

namespace CPacket

/-- A packet as a sender hands it to `SetEncodingCode`: read from its start,
not encoded, its payload no longer than a received packet can hold. -/
structure Sendable (p : CPacket) : Prop where
  plain : p.bIsEncoded = false
  front : p.iFront = 0
  nonempty : 1 ≤ p.iUsingSize
  fits : p.iUsingSize ≤ 507

/-- The bytes a packet puts on the wire once encoded with a drawn key. -/
def sentWire (f : CPacket × BYTE) : List BYTE := (f.1.setEncodingCode f.2).wire

theorem Sendable.sentWire_eq {p : CPacket} (sendable : p.Sendable) (randKey : BYTE) :
    sentWire (p, randKey) = encodedFrame randKey p.data := by
  have size : p.iUsingSize < 2 ^ 16 := by
    have := sendable.fits
    omega
  rw [sentWire, wire_setEncodingCode sendable.plain size, bufferBytes_eq_data p sendable.front]

@[simp] theorem length_encodedFrame (randKey : BYTE) (payload : List BYTE) :
    (encodedFrame randKey payload).length = MESSAGE_HEADER_LEN + payload.length := by
  simp [encodedFrame]

theorem len_encodedHeader (randKey : BYTE) {payload : List BYTE} (fits : payload.length ≤ 507) :
    (encodedHeader randKey payload).len.toNat = payload.length := by
  rw [encodedHeader, BitVec.toNat_ofNat]
  exact Nat.mod_eq_of_lt (by omega)

end CPacket

namespace Receiver

open CPacket

variable {σ : Type} {recvProc : σ → CPacket → Bool × σ} {s : Receiver σ}
  {randKey : BYTE} {payload : List BYTE}

/-- The header peeked is the one the ring starts with. -/
theorem peekHeader_of_content {h : PacketHeader} {rest : List BYTE}
    (content : s.recvBuf.content = h.bytes ++ rest) : s.peekHeader = h := by
  unfold peekHeader
  rw [CRingBuffer.peek_eq, content, List.take_left' h.length_bytes, PacketHeader.at_write]

/-- A round with a complete frame at the front hands its payload to `OnRecv`
and takes the frame off the ring. -/
theorem recvRound_frame (recvProc : σ → CPacket → Bool × σ) {rest : List BYTE}
    (nonempty : 1 ≤ payload.length) (fits : payload.length ≤ 507)
    (content : s.recvBuf.content = encodedFrame randKey payload ++ rest) :
    ∃ packet, packet.data = payload ∧
      s.recvRound recvProc = (true, s.takeFrame.onRecv recvProc packet) ∧
      s.takeFrame.recvBuf.content = rest := by
  have header : s.peekHeader = encodedHeader randKey payload :=
    peekHeader_of_content (by rw [content, encodedFrame, List.append_assoc])
  have len : s.peekHeader.len.toNat = payload.length := by
    rw [header, len_encodedHeader randKey fits]
  have code : s.peekHeader.code = PACKET_CODE := by rw [header]; rfl
  have use : s.recvBuf.getUseSize = MESSAGE_HEADER_LEN + payload.length + rest.length := by
    rw [← CRingBuffer.length_content, content, List.length_append, length_encodedFrame]
  have nonzero : s.peekHeader.len ≠ 0 := by
    intro zero
    rw [zero] at len
    simp at len
    omega
  have bytes : s.takeCopy.bytes = encodeLoop randKey 0 0 0 payload := by
    rw [bytes_takeCopy, content, encodedFrame, List.append_assoc,
      List.drop_left' (PacketHeader.length_bytes _), len, List.take_left' (by simp)]
  have filled : s.takeCopy.filled = CPacket.alloc.clear.place (encodedHeader randKey payload).bytes
      (encodeLoop randKey 0 0 0 payload) := by
    show ((CPacket.alloc.clear.setMessageHeader s.peekHeader.bytes).fillBuffer
      s.takeCopy.bytes).moveWritePos s.peekHeader.len.toNat = _
    rw [bytes, len, header, place, length_encodeLoop]
  obtain ⟨decoded, data⟩ := setDecodingCode_encodedFrame CPacket.alloc.clear randKey payload
    rfl rfl (Nat.le_trans fits (by decide))
  rw [← filled] at decoded data
  have capacity : s.takeCopy.packet.payloadCapacity = 507 := rfl
  have written : s.takeCopy.bytes.length = payload.length := by rw [bytes, length_encodeLoop]
  refine ⟨s.takeCopy.filled.setDecodingCode.2, data, ?_, ?_⟩
  · simp only [recvRound]
    rw [if_neg (by omega), if_neg (not_not.mpr code), if_neg nonzero, if_neg (by omega),
      if_neg (by omega), if_neg (by omega), if_neg (by simp [decoded])]
  · rw [content_takeFrame, content, len, List.drop_left' (length_encodedFrame _ _)]

/-- A round with only a part of a frame on the ring ends the loop. -/
theorem recvRound_part (recvProc : σ → CPacket → Bool × σ) (nonempty : 1 ≤ payload.length)
    (fits : payload.length ≤ 507)
    (part : PartOf s.recvBuf.content (encodedFrame randKey payload)) :
    s.recvRound recvProc = (false, s.leaveLoop) := by
  obtain ⟨inside, short⟩ := part
  rw [CRingBuffer.length_content, length_encodedFrame] at short
  simp only [recvRound]
  by_cases noHeader : MESSAGE_HEADER_LEN > s.recvBuf.getUseSize
  · rw [if_pos noHeader]
  · have whole : (encodedHeader randKey payload).bytes <+: s.recvBuf.content :=
      List.prefix_of_prefix_length_le (List.prefix_append _ _) inside
        (by rw [PacketHeader.length_bytes, CRingBuffer.length_content]; omega)
    obtain ⟨rest, content⟩ := whole
    have header := peekHeader_of_content content.symm
    have len : s.peekHeader.len.toNat = payload.length := by
      rw [header, len_encodedHeader randKey fits]
    have code : s.peekHeader.code = PACKET_CODE := by rw [header]; rfl
    have nonzero : s.peekHeader.len ≠ 0 := by
      intro zero
      rw [zero] at len
      simp at len
      omega
    rw [if_neg noHeader, if_neg (not_not.mpr code), if_neg nonzero, if_pos (by omega)]

/-! ## A completion -/

theorem onRecv_of_accepts (accepts : ∀ app packet, (recvProc app packet).1 = true)
    (packet : CPacket) :
    s.onRecv recvProc packet =
      { s with
        app := (recvProc s.app packet).2
        received := s.received ++ [packet.data] } := by
  simp only [onRecv, accepts, if_true]

section Frames

variable (accepts : ∀ app packet, (recvProc app packet).1 = true)
include accepts

/-- The loop on whole frames followed by a part of the frame `last`: it hands
on the payloads, keeps the part and posts the next receive. -/
theorem recvLoop_frames {last : CPacket × BYTE} (lastOk : last.1.Sendable) :
    ∀ {frames : List (CPacket × BYTE)} {part : List BYTE} {fuel : Nat} {s s' : Receiver σ},
      (∀ f ∈ frames, f.1.Sendable) → s.Open → PartOf part (sentWire last) →
      s.recvBuf.content = (frames.map sentWire).flatten ++ part →
      s.recvLoop recvProc fuel = some s' →
      s'.Open ∧ s'.posted = true ∧ s'.recvBuf.content = part ∧
        s'.received = s.received ++ frames.map (·.1.data)
  | frames, part, 0, s, s', _, _, _, _, run => by cases run
  | [], part, fuel + 1, s, s', _, isOpen, partOf, content, run => by
      rw [lastOk.sentWire_eq] at partOf
      have here : s.recvBuf.content = part := content
      have round := recvRound_part recvProc
        (by rw [CPacket.length_data]; exact lastOk.nonempty)
        (by rw [CPacket.length_data]; exact lastOk.fits) (by rw [here]; exact partOf)
      rw [recvLoop, round] at run
      cases run
      rw [leaveLoop_of_live isOpen.live]
      exact ⟨⟨isOpen.live, isOpen.sound⟩, rfl, here, by simp⟩
  | f :: frames, part, fuel + 1, s, s', ok, isOpen, partOf, content, run => by
      have fOk := ok f (List.mem_cons_self ..)
      have frame : s.recvBuf.content =
          encodedFrame f.2 f.1.data ++ ((frames.map sentWire).flatten ++ part) := by
        rw [content, List.map_cons, List.flatten_cons, List.append_assoc, ← fOk.sentWire_eq]
      obtain ⟨packet, data, round, rest⟩ := recvRound_frame recvProc
        (by rw [CPacket.length_data]; exact fOk.nonempty)
        (by rw [CPacket.length_data]; exact fOk.fits) frame
      rw [recvLoop, round, onRecv_of_accepts accepts] at run
      obtain ⟨opened, posted, content', received⟩ := recvLoop_frames lastOk
        (fun g member => ok g (List.mem_cons_of_mem _ member))
        (s := { s.takeFrame with
          app := (recvProc s.takeFrame.app packet).2
          received := s.takeFrame.received ++ [packet.data] })
        ⟨isOpen.live, isOpen.sound⟩ partOf rest run
      refine ⟨opened, posted, content', ?_⟩
      rw [received, data, List.map_cons, List.append_assoc]
      rfl

/-- A completion that brings the ring to whole frames and a part of `last`. -/
theorem completion_frames {last : CPacket × BYTE} (lastOk : last.1.Sendable)
    {frames : List (CPacket × BYTE)} (ok : ∀ f ∈ frames, f.1.Sendable) (isOpen : s.Open)
    {bytes part : List BYTE} (nonempty : 1 ≤ bytes.length)
    (fits : bytes.length ≤ s.recvBuf.getFreeSize) (partOf : PartOf part (sentWire last))
    (content : s.recvBuf.content ++ bytes = (frames.map sentWire).flatten ++ part) :
    let s' := s.completion recvProc bytes
    s'.Open ∧ s'.posted = true ∧ s'.recvBuf.content = part ∧
      s'.received = s.received ++ frames.map (·.1.data) := by
  have ring := CRingBuffer.content_fill_moveRear s.recvBuf fits
  intro s'
  have run : s' = s.completion recvProc bytes := rfl
  simp only [completion, recvComplete] at run
  rw [if_neg (by omega)] at run
  exact recvLoop_frames accepts lastOk ok
    (s := { s with posted := false, recvBuf := (s.recvBuf.fill bytes).moveRear bytes.length })
    ⟨isOpen.live, isOpen.sound⟩ partOf (ring.trans content)
    ((Option.some_get _).symm.trans (congrArg some run.symm))

/-- The run of a session whose ring holds a part of the next frame. -/
theorem receive_frames {last : CPacket × BYTE} (lastOk : last.1.Sendable) {part : List BYTE}
    (partOf : PartOf part (sentWire last)) :
    ∀ {chunks : List (List BYTE)} {frames : List (CPacket × BYTE)} {s : Receiver σ},
      (∀ f ∈ frames, f.1.Sendable) → s.Open → s.posted = true →
      PartOf s.recvBuf.content ((frames.map sentWire).headD (sentWire last)) →
      s.recvBuf.content ++ chunks.flatten = (frames.map sentWire).flatten ++ part →
      s.Offered recvProc chunks →
      let s' := s.receive recvProc chunks
      s'.Open ∧ s'.posted = true ∧ s'.recvBuf.content = part ∧
        s'.received = s.received ++ frames.map (·.1.data)
  | [], frames, s, _, isOpen, posted, here, stream, _ => by
      rw [List.flatten_nil, List.append_nil] at stream
      obtain ⟨none, rest⟩ := eq_nil_of_rest here stream
      rw [List.map_eq_nil_iff] at none
      subst none
      exact ⟨isOpen, posted, rest.symm, by simp [receive]⟩
  | bytes :: chunks, frames, s, ok, isOpen, posted, here, stream, offered => by
      obtain ⟨nonempty, fits, offered⟩ := offered
      -- where the completion cuts the stream
      have cut : s.recvBuf.content ++ bytes <+: (frames.map sentWire).flatten ++ part := by
        rw [← stream, List.flatten_cons, ← List.append_assoc]
        exact List.prefix_append _ _
      obtain ⟨done, todo, c, words, before, cPart⟩ := exists_cut partOf cut
      obtain ⟨done', todo', rfl, rfl, rfl⟩ := List.map_eq_append_iff.mp words
      have after : c ++ chunks.flatten = (todo'.map sentWire).flatten ++ part := by
        rw [List.flatten_cons, ← List.append_assoc, before, List.map_append, List.flatten_append,
          List.append_assoc, List.append_assoc] at stream
        exact List.append_cancel_left stream
      have doneOk : ∀ f ∈ done', f.1.Sendable := fun f member =>
        ok f (List.mem_append_left _ member)
      have todoOk : ∀ f ∈ todo', f.1.Sendable := fun f member =>
        ok f (List.mem_append_right _ member)
      obtain ⟨next, nextOk, nextWire⟩ : ∃ next : CPacket × BYTE, next.1.Sendable ∧
          (todo'.map sentWire).headD (sentWire last) = sentWire next := by
        cases todo' with
        | nil => exact ⟨last, lastOk, rfl⟩
        | cons f fs => exact ⟨f, todoOk f (List.mem_cons_self ..), rfl⟩
      rw [nextWire] at cPart
      obtain ⟨opened, posted', content', received'⟩ := completion_frames accepts nextOk doneOk
        isOpen nonempty fits cPart before
      have tail := receive_frames lastOk partOf todoOk opened posted'
        (by rw [content', nextWire]; exact cPart) (by rw [content']; exact after) offered
      intro s'
      have step : s' = (s.completion recvProc bytes).receive recvProc chunks := by
        show s.receive recvProc (bytes :: chunks) = _
        rw [receive, if_pos posted]
      rw [step]
      obtain ⟨opened', posted'', content'', received''⟩ := tail
      refine ⟨opened', posted'', content'', ?_⟩
      rw [received'', received', List.map_append, List.append_assoc]

end Frames

/-- **Framing is exact and independent of segmentation.** Frames that
`SetEncodingCode` makes of payloads of 1 to 507 bytes, followed by a part of
one more such frame, in completions of at least one and at most the offered
bytes: `OnRecv` gets exactly the payloads in order, nothing disconnects the
session, and the ring keeps the bytes of the incomplete frame. -/
theorem framing_exact (recvProc : σ → CPacket → Bool × σ)
    (accepts : ∀ app packet, (recvProc app packet).1 = true) (rb : CRingBuffer) (app : σ)
    (frames : List (CPacket × BYTE)) (ok : ∀ f ∈ frames, f.1.Sendable)
    (last : CPacket × BYTE) (lastOk : last.1.Sendable) (part : List BYTE)
    (partOf : PartOf part (sentWire last)) (chunks : List (List BYTE))
    (stream : chunks.flatten = (frames.map sentWire).flatten ++ part)
    (offered : (start rb app).Offered recvProc chunks) :
    let s := (start rb app).receive recvProc chunks
    s.received = frames.map (·.1.data) ∧ s.isReleased = false ∧ s.overrun = false ∧
      s.posted = true ∧ s.recvBuf.content = part := by
  have empty : (start rb app).recvBuf.content = [] := CRingBuffer.content_clearBuffer rb
  have here : PartOf (start rb app).recvBuf.content
      ((frames.map sentWire).headD (sentWire last)) := by
    rw [empty]
    refine ⟨List.nil_prefix, ?_⟩
    cases frames with
    | nil => exact Nat.lt_of_le_of_lt (Nat.zero_le _) partOf.2
    | cons f fs =>
        rw [List.map_cons, List.headD_cons,
          (ok f (List.mem_cons_self ..)).sentWire_eq, length_encodedFrame]
        exact Nat.lt_of_lt_of_le (by decide) (Nat.le_add_right _ _)
  obtain ⟨isOpen, posted, content, received⟩ := receive_frames accepts lastOk partOf ok
    ⟨rfl, rfl⟩ rfl here (by rw [empty]; exact stream) offered
  exact ⟨received, isOpen.live, isOpen.sound, posted, content⟩

/-- A frame of two payload bytes and three bytes of another, cut inside the
first header and again inside the second. -/
theorem framing_exact_two_frames :
    let f : CPacket × BYTE := (CPacket.new.extend [0x80, 0x01] (by decide), 0xE7)
    let last : CPacket × BYTE := (CPacket.new.extend [0x41] (by decide), 0x09)
    let s := (start CRingBuffer.new ()).receive acceptAll
      [(sentWire f).take 4, (sentWire f).drop 4 ++ (sentWire last).take 2,
        ((sentWire last).drop 2).take 1]
    s.received = [[0x80, 0x01]] ∧ s.isReleased = false ∧ s.overrun = false ∧ s.posted = true ∧
      s.recvBuf.content = (sentWire last).take 3 := by
  have small : ∀ f : CPacket × BYTE, f = (CPacket.new.extend [0x80, 0x01] (by decide), 0xE7) →
      f.1.Sendable := by
    rintro f rfl
    exact ⟨rfl, rfl, by decide, by decide⟩
  exact framing_exact acceptAll (fun _ _ => rfl) CRingBuffer.new ()
    [(CPacket.new.extend [0x80, 0x01] (by decide), 0xE7)]
    (fun f member => small f (List.mem_singleton.mp member))
    (CPacket.new.extend [0x41] (by decide), 0x09) ⟨rfl, rfl, by decide, by decide⟩ _
    ⟨List.take_prefix _ _, by decide +kernel⟩ _ (by decide +kernel)
    ⟨by decide +kernel, by decide +kernel, by decide +kernel, by decide +kernel,
      by decide +kernel, by decide +kernel, trivial⟩

end Receiver

end ChattingServer
