import ChattingServer.CPacket

/-!
# The packet code

`SetEncodingCode` writes the header and replaces the payload by its cipher
text; `SetDecodingCode` undoes the cipher and compares checksums.  Both loops
are kept as the source writes them, on promoted `int`s; `xor_promoteChar`
and `xor_promote` cut them down to byte arithmetic, where each undoes the other.
-/

namespace ChattingServer

/-- A `char` promoted to `int`. -/
def promoteChar (c : BYTE) : LONG := c.signExtend 32

/-- A `BYTE` promoted to `int`. -/
def promote (b : BYTE) : LONG := b.setWidth 32

/-- The key of position `i`: `key + i + 1`, added to the running byte. -/
def positionKey (running : BYTE) (key : LONG) (i : Nat) : LONG :=
  promote running + key + BitVec.ofNat 32 i + 1

namespace CPacket

/-- The loop of `SetEncodingCode` from position `i` on. -/
def encodeLoop (randKey : BYTE) (i : Nat) (E_n P_n : BYTE) : List BYTE → List BYTE
  | [] => []
  | c :: cs =>
      let E_n' : BYTE := (promoteChar c ^^^ positionKey E_n (promote randKey) i).setWidth 8
      let c' : BYTE := (promote E_n' ^^^ positionKey P_n FIX_KEY i).setWidth 8
      c' :: encodeLoop randKey (i + 1) E_n' c' cs

/-- The loop of `SetDecodingCode` from position `i` on. -/
def decodeLoop (randKey : BYTE) (i : Nat) (P_before E_n : BYTE) : List BYTE → List BYTE
  | [] => []
  | c :: cs =>
      let P_n : BYTE := (promoteChar c ^^^ positionKey E_n FIX_KEY i).setWidth 8
      let D_n : BYTE := (promote P_n ^^^ positionKey P_before (promote randKey) i).setWidth 8
      D_n :: decodeLoop randKey (i + 1) P_n c cs

/-- `checkSum += pPayload[i]`: the same 32-bit sum, `LONG` in the encoder and
`DWORD` in the decoder. -/
def sumChars (payload : List BYTE) : LONG :=
  payload.foldl (fun checkSum c => checkSum + promoteChar c) 0

/-- `(BYTE)(checkSum % 256)` with the signed remainder of a `LONG`. -/
def encoderCheckSum (payload : List BYTE) : BYTE :=
  ((sumChars payload).srem 256).setWidth 8

/-- `(BYTE)(iCheck % 256)` with the unsigned remainder of a `DWORD`. -/
def decoderCheckSum (payload : List BYTE) : BYTE :=
  ((sumChars payload).umod 256).setWidth 8

variable (p : CPacket)

/-- The five header bytes, as `PostSend` hands them to `WSASend`. -/
def headerBytes : List BYTE := p.block.read 0 MESSAGE_HEADER_LEN

/-- The `GetDataSize()` bytes at `GetBufferPtr()`, as `PostSend` hands them to
`WSASend`. -/
def bufferBytes : List BYTE := p.block.read MESSAGE_HEADER_LEN p.getDataSize

/-- The bytes one packet puts on the wire. -/
def wire : List BYTE := p.headerBytes ++ p.bufferBytes

/-- `SetEncodingCode`, with the byte `rand() % 256` draws. -/
def setEncodingCode (randKey : BYTE) : CPacket :=
  if p.bIsEncoded then
    p
  else
    let len : WORD := BitVec.ofNat 16 p.getDataSize
    let payload := p.block.read MESSAGE_HEADER_LEN len.toNat
    let header : PacketHeader :=
      { code := PACKET_CODE, len := len, randKey := randKey, checkSum := encoderCheckSum payload }
    { p.setMessageHeader header.bytes with
      block := (p.setMessageHeader header.bytes).block.write MESSAGE_HEADER_LEN
        (encodeLoop randKey 0 0 0 payload)
      bIsEncoded := true }

/-- `SetDecodingCode`. -/
def setDecodingCode : Bool × CPacket :=
  let packetHeader := PacketHeader.at p.block
  if packetHeader.code ≠ PACKET_CODE then
    (false, p)
  else
    let payload := decodeLoop packetHeader.randKey 0 0 0
      (p.block.read MESSAGE_HEADER_LEN p.getDataSize)
    (packetHeader.checkSum == decoderCheckSum payload, p.fillBuffer payload)

/-- A frame put into a packet the way `RecvComplete` does: header, payload at
`GetBufferPtr()`, then `MoveWritePos`. -/
def place (header payload : List BYTE) : CPacket :=
  ((p.setMessageHeader header).fillBuffer payload).moveWritePos payload.length

/-! ## Byte arithmetic -/

theorem setWidth_promoteChar (c : BYTE) : (promoteChar c).setWidth 8 = c := by
  revert c
  decide

theorem setWidth_promote (b : BYTE) : (promote b).setWidth 8 = b :=
  BitVec.setWidth_setWidth_of_le b (by decide)

theorem setWidth_positionKey (running : BYTE) (key : LONG) (i : Nat) :
    (positionKey running key i).setWidth 8 =
      running + key.setWidth 8 + BitVec.ofNat 8 i + 1 := by
  unfold positionKey
  rw [BitVec.setWidth_add _ _ (by decide), BitVec.setWidth_add _ _ (by decide),
    BitVec.setWidth_add _ _ (by decide), setWidth_promote,
    BitVec.setWidth_ofNat_of_le (by decide)]
  rfl

/-- The truncated xor of a `char` is the xor of bytes. -/
theorem xor_promoteChar (c running : BYTE) (key : LONG) (i : Nat) :
    (promoteChar c ^^^ positionKey running key i).setWidth 8 =
      c ^^^ (running + key.setWidth 8 + BitVec.ofNat 8 i + 1) := by
  rw [BitVec.setWidth_xor, setWidth_promoteChar, setWidth_positionKey]

/-- The truncated xor of a `BYTE` is the xor of bytes. -/
theorem xor_promote (b running : BYTE) (key : LONG) (i : Nat) :
    (promote b ^^^ positionKey running key i).setWidth 8 =
      b ^^^ (running + key.setWidth 8 + BitVec.ofNat 8 i + 1) := by
  rw [BitVec.setWidth_xor, setWidth_promote, setWidth_positionKey]

theorem xor_xor_cancel (b k : BYTE) : b ^^^ k ^^^ k = b := by
  rw [BitVec.xor_assoc, BitVec.xor_self, BitVec.xor_zero]

@[simp] theorem length_encodeLoop (randKey : BYTE) (i : Nat) (E_n P_n : BYTE)
    (payload : List BYTE) : (encodeLoop randKey i E_n P_n payload).length = payload.length := by
  induction payload generalizing i E_n P_n with
  | nil => rfl
  | cons c cs ih => simp [encodeLoop, ih]

@[simp] theorem length_decodeLoop (randKey : BYTE) (i : Nat) (P_before E_n : BYTE)
    (payload : List BYTE) :
    (decodeLoop randKey i P_before E_n payload).length = payload.length := by
  induction payload generalizing i P_before E_n with
  | nil => rfl
  | cons c cs ih => simp [decodeLoop, ih]

/-- The decoder's loop undoes the encoder's: its `P_n` is the encoder's `E_n`,
and its `E_n` the cipher byte the encoder calls `P_n`. -/
theorem decodeLoop_encodeLoop (randKey : BYTE) (i : Nat) (E_n P_n : BYTE)
    (payload : List BYTE) :
    decodeLoop randKey i E_n P_n (encodeLoop randKey i E_n P_n payload) = payload := by
  induction payload generalizing i E_n P_n with
  | nil => rfl
  | cons c cs ih =>
      simp only [encodeLoop, decodeLoop, xor_promoteChar, xor_promote, xor_xor_cancel] at ih ⊢
      rw [ih]

/-- The encoder's loop restores what the decoder's loop took apart. -/
theorem encodeLoop_decodeLoop (randKey : BYTE) (i : Nat) (P_before E_n : BYTE)
    (payload : List BYTE) :
    encodeLoop randKey i P_before E_n (decodeLoop randKey i P_before E_n payload) = payload := by
  induction payload generalizing i P_before E_n with
  | nil => rfl
  | cons c cs ih =>
      simp only [encodeLoop, decodeLoop, xor_promoteChar, xor_promote, xor_xor_cancel] at ih ⊢
      rw [ih]

/-- A remainder by 256 keeps the low byte, also of a negative `LONG`. -/
theorem setWidth_srem (x : LONG) : (x.srem 256).setWidth 8 = x.setWidth 8 := by
  have quotient := Int.mul_tdiv_add_tmod x.toInt 256
  have remainder : (x.srem 256).toInt = x.toInt.tmod 256 := BitVec.toInt_srem x 256
  rw [← remainder, BitVec.toInt_eq_toNat_cond (x.srem 256)] at quotient
  have value := BitVec.toInt_eq_toNat_cond x
  apply BitVec.eq_of_toNat_eq
  rw [BitVec.toNat_setWidth, BitVec.toNat_setWidth]
  split at quotient <;> split at value <;> omega

theorem setWidth_umod (x : DWORD) : (x.umod 256).setWidth 8 = x.setWidth 8 := by
  apply BitVec.eq_of_toNat_eq
  rw [BitVec.toNat_setWidth, BitVec.toNat_setWidth]
  show x.toNat % 256 % 2 ^ 8 = x.toNat % 2 ^ 8
  omega

/-- Both sides compute one checksum: the low byte of the sum. -/
theorem decoderCheckSum_eq (payload : List BYTE) :
    decoderCheckSum payload = encoderCheckSum payload := by
  rw [decoderCheckSum, encoderCheckSum, setWidth_umod, setWidth_srem]

/-! ## Spec lemmas -/

@[simp] theorem length_bufferBytes : p.bufferBytes.length = p.iUsingSize := Memory.length_read

/-- A packet read from its start shows `WSASend` its unread payload. -/
theorem bufferBytes_eq_data (front : p.iFront = 0) : p.bufferBytes = p.data := by
  rw [bufferBytes, data, front, getDataSize, Nat.add_zero]

/-- The header `SetEncodingCode` writes over a payload. -/
def encodedHeader (randKey : BYTE) (payload : List BYTE) : PacketHeader :=
  { code := PACKET_CODE
    len := BitVec.ofNat 16 payload.length
    randKey := randKey
    checkSum := encoderCheckSum payload }

/-- The frame `SetEncodingCode` makes of a payload. -/
def encodedFrame (randKey : BYTE) (payload : List BYTE) : List BYTE :=
  (encodedHeader randKey payload).bytes ++ encodeLoop randKey 0 0 0 payload

section Encoding

variable {p : CPacket} {randKey : BYTE}

theorem setEncodingCode_of_encoded (h : p.bIsEncoded = true) : p.setEncodingCode randKey = p := by
  rw [setEncodingCode, if_pos h]

@[simp] theorem iUsingSize_setEncodingCode :
    (p.setEncodingCode randKey).iUsingSize = p.iUsingSize := by
  unfold setEncodingCode
  split <;> rfl

@[simp] theorem iFront_setEncodingCode : (p.setEncodingCode randKey).iFront = p.iFront := by
  unfold setEncodingCode
  split <;> rfl

theorem bIsEncoded_setEncodingCode : (p.setEncodingCode randKey).bIsEncoded = true := by
  unfold setEncodingCode
  split
  · assumption
  · rfl

/-- Encoding once more, with whatever key is drawn, changes nothing. -/
theorem foldl_setEncodingCode (keys : List BYTE) :
    keys.foldl setEncodingCode (p.setEncodingCode randKey) = p.setEncodingCode randKey := by
  induction keys with
  | nil => rfl
  | cons key keys ih =>
      rw [List.foldl_cons, setEncodingCode_of_encoded bIsEncoded_setEncodingCode, ih]

variable (plain : p.bIsEncoded = false) (size : p.iUsingSize < 2 ^ 16)
include plain size

/-- The block after `SetEncodingCode`: header, then cipher text. -/
theorem block_setEncodingCode :
    (p.setEncodingCode randKey).block =
      (p.block.write 0 (encodedHeader randKey p.bufferBytes).bytes).write MESSAGE_HEADER_LEN
        (encodeLoop randKey 0 0 0 p.bufferBytes) := by
  have len : (BitVec.ofNat 16 p.getDataSize).toNat = p.getDataSize := by
    rw [BitVec.toNat_ofNat]
    exact Nat.mod_eq_of_lt size
  rw [setEncodingCode, if_neg (by simp [plain])]
  simp only [len, encodedHeader, length_bufferBytes]
  rfl

theorem headerBytes_setEncodingCode :
    (p.setEncodingCode randKey).headerBytes = (encodedHeader randKey p.bufferBytes).bytes := by
  rw [headerBytes, block_setEncodingCode plain size,
    Memory.read_write_disjoint (Or.inl (by decide)),
    Memory.read_write_of_length (PacketHeader.length_bytes _)]

theorem bufferBytes_setEncodingCode :
    (p.setEncodingCode randKey).bufferBytes = encodeLoop randKey 0 0 0 p.bufferBytes := by
  rw [bufferBytes, getDataSize, iUsingSize_setEncodingCode, block_setEncodingCode plain size,
    Memory.read_write_of_length (by simp)]

/-- What an encoded packet puts on the wire. -/
theorem wire_setEncodingCode :
    (p.setEncodingCode randKey).wire = encodedFrame randKey p.bufferBytes := by
  rw [wire, headerBytes_setEncodingCode plain size, bufferBytes_setEncodingCode plain size,
    encodedFrame]

end Encoding

section Decoding

variable {r : CPacket} {header payload : List BYTE}

theorem iUsingSize_place (header : List BYTE) (empty : r.iUsingSize = 0)
    (fits : payload.length ≤ r.iMaxSize) :
    (r.place header payload).iUsingSize = payload.length := by
  show r.iUsingSize + (if payload.length > r.iMaxSize - r.iUsingSize then _ else _) = _
  rw [empty, if_neg (by omega), Nat.zero_add]

theorem headerBytes_place (h : PacketHeader) : (r.place h.bytes payload).headerBytes = h.bytes := by
  show ((r.block.write 0 h.bytes).write MESSAGE_HEADER_LEN payload).read 0 MESSAGE_HEADER_LEN = _
  rw [Memory.read_write_disjoint (Or.inl (by decide)),
    Memory.read_write_of_length (PacketHeader.length_bytes _)]

theorem bufferBytes_place (empty : r.iUsingSize = 0) (fits : payload.length ≤ r.iMaxSize) :
    (r.place header payload).bufferBytes = payload := by
  rw [bufferBytes, getDataSize, iUsingSize_place _ empty fits]
  exact Memory.read_write _ _ _

theorem setDecodingCode_eq (r : CPacket) :
    r.setDecodingCode =
      if (PacketHeader.at r.block).code ≠ PACKET_CODE then (false, r)
      else
        ((PacketHeader.at r.block).checkSum == decoderCheckSum
            (decodeLoop (PacketHeader.at r.block).randKey 0 0 0 r.bufferBytes),
          r.fillBuffer (decodeLoop (PacketHeader.at r.block).randKey 0 0 0 r.bufferBytes)) :=
  rfl

/-- What acceptance says of a frame. -/
theorem setDecodingCode_accepted (accepted : r.setDecodingCode.1 = true) :
    (PacketHeader.at r.block).code = PACKET_CODE ∧
      (PacketHeader.at r.block).checkSum = decoderCheckSum
        (decodeLoop (PacketHeader.at r.block).randKey 0 0 0 r.bufferBytes) ∧
      r.setDecodingCode.2 = r.fillBuffer
        (decodeLoop (PacketHeader.at r.block).randKey 0 0 0 r.bufferBytes) := by
  by_cases code : (PacketHeader.at r.block).code ≠ PACKET_CODE
  · rw [setDecodingCode_eq, if_pos code] at accepted
    cases accepted
  · rw [setDecodingCode_eq, if_neg code] at accepted ⊢
    exact ⟨not_not.mp code, eq_of_beq accepted, rfl⟩

/-- `SetDecodingCode` on a placed frame with the right code. -/
theorem setDecodingCode_place {h : PacketHeader} (empty : r.iUsingSize = 0)
    (fits : payload.length ≤ r.iMaxSize) (code : h.code = PACKET_CODE) :
    (r.place h.bytes payload).setDecodingCode =
      (h.checkSum == decoderCheckSum (decodeLoop h.randKey 0 0 0 payload),
        (r.place h.bytes payload).fillBuffer (decodeLoop h.randKey 0 0 0 payload)) := by
  have header : PacketHeader.at (r.place h.bytes payload).block = h :=
    PacketHeader.at_of_read (headerBytes_place h)
  rw [setDecodingCode_eq, header, bufferBytes_place empty fits, if_neg (not_not.mpr code)]

end Decoding

/-! ## The round trip -/

/-- Placing a frame of `SetEncodingCode` in an empty packet and decoding it
gives the payload back. -/
theorem setDecodingCode_encodedFrame (r : CPacket) (randKey : BYTE) (payload : List BYTE)
    (empty : r.iUsingSize = 0) (front : r.iFront = 0) (fits : payload.length ≤ r.iMaxSize) :
    let received := (r.place (encodedHeader randKey payload).bytes
      (encodeLoop randKey 0 0 0 payload)).setDecodingCode
    received.1 = true ∧ received.2.data = payload := by
  have length : (encodeLoop randKey 0 0 0 payload).length ≤ r.iMaxSize := by simpa using fits
  have code : (encodedHeader randKey payload).code = PACKET_CODE := rfl
  have plain : decodeLoop (encodedHeader randKey payload).randKey 0 0 0
      (encodeLoop randKey 0 0 0 payload) = payload := decodeLoop_encodeLoop randKey 0 0 0 payload
  intro received
  have decoded := setDecodingCode_place empty length code
  rw [plain, decoderCheckSum_eq] at decoded
  refine ⟨?_, ?_⟩
  · show received.1 = true
    rw [show received = _ from decoded]
    exact beq_self_eq_true _
  · rw [show received = _ from decoded]
    have size := iUsingSize_place (encodedHeader randKey payload).bytes empty length
    rw [length_encodeLoop] at size
    show (Memory.write _ MESSAGE_HEADER_LEN payload).read (MESSAGE_HEADER_LEN + r.iFront)
      ((r.place _ _).iUsingSize) = payload
    rw [size, front, Nat.add_zero, Memory.read_write]

/-- The packet a frame with the given payload arrives as. -/
def received (randKey : BYTE) (payload : List BYTE) : CPacket :=
  (alloc.clear.place (encodedHeader randKey payload).bytes
    (encodeLoop randKey 0 0 0 payload)).setDecodingCode.2

theorem data_received (randKey : BYTE) (payload : List BYTE) (fits : payload.length ≤ 507) :
    (received randKey payload).data = payload :=
  (setDecodingCode_encodedFrame alloc.clear randKey payload rfl rfl
    (Nat.le_trans fits (by decide))).2

/-- What a receiver makes of the packet's bytes on the wire. -/
def DecodesTo (p : CPacket) (payload : List BYTE) : Prop :=
  let received := (alloc.clear.place p.headerBytes p.bufferBytes).setDecodingCode
  received.1 = true ∧ received.2.data = payload

/-- A packet written from its start reaches its receiver as it was written. -/
theorem Written.decodesTo {p : CPacket} {written : List BYTE} (h : p.Written written)
    (fits : written.length ≤ 507) (randKey : BYTE) :
    (p.setEncodingCode randKey).DecodesTo written := by
  have size : p.iUsingSize < 2 ^ 16 := by
    rw [h.iUsingSize]
    omega
  unfold DecodesTo
  rw [headerBytes_setEncodingCode h.plain size, bufferBytes_setEncodingCode h.plain size,
    bufferBytes_eq_data p h.front, h.data]
  exact setDecodingCode_encodedFrame alloc.clear randKey written rfl rfl
    (Nat.le_trans fits (by decide))

/-- Encoding the payload of an accepted frame under the frame's own key gives
the frame again. -/
theorem setEncodingCode_accepted {r q : CPacket} (front : r.iFront = 0)
    (len : (PacketHeader.at r.block).len.toNat = r.iUsingSize)
    (accepted : r.setDecodingCode.1 = true) (plain : q.bIsEncoded = false)
    (qfront : q.iFront = 0) (same : q.data = r.setDecodingCode.2.data) :
    let again := q.setEncodingCode (PacketHeader.at r.block).randKey
    again.headerBytes = r.headerBytes ∧ again.bufferBytes = r.bufferBytes := by
  obtain ⟨code, checkSum, decoded⟩ := setDecodingCode_accepted accepted
  set key := (PacketHeader.at r.block).randKey with hkey
  have length : (decodeLoop key 0 0 0 r.bufferBytes).length = r.iUsingSize := by simp
  have payload : q.bufferBytes = decodeLoop key 0 0 0 r.bufferBytes := by
    rw [bufferBytes_eq_data q qfront, same, decoded]
    show (Memory.write _ MESSAGE_HEADER_LEN _).read (MESSAGE_HEADER_LEN + r.iFront) r.iUsingSize = _
    rw [front, Nat.add_zero, Memory.read_write_of_length length]
  have qsize : q.iUsingSize = r.iUsingSize := by
    rw [← length_bufferBytes q, payload, length]
  have size : q.iUsingSize < 2 ^ 16 := by
    rw [qsize, ← len]
    exact (PacketHeader.at r.block).len.isLt
  have header : encodedHeader key q.bufferBytes = PacketHeader.at r.block := by
    have sameLen : BitVec.ofNat 16 q.bufferBytes.length = (PacketHeader.at r.block).len := by
      rw [length_bufferBytes, qsize, ← len, BitVec.ofNat_toNat, BitVec.setWidth_eq]
    rw [encodedHeader, sameLen, ← decoderCheckSum_eq, payload, ← checkSum, ← code]
  refine ⟨?_, ?_⟩
  · rw [headerBytes_setEncodingCode plain size, header, PacketHeader.bytes_at]
    rfl
  · rw [bufferBytes_setEncodingCode plain size, payload, encodeLoop_decodeLoop]

/-- The codec's two laws. A payload encoded any number of times, with whatever
keys, and put in an empty packet decodes to itself; and an accepted frame is
what encoding its payload under its own key produces. -/
theorem codec_round_trip :
    (∀ (p : CPacket) (keys : List BYTE), keys ≠ [] → p.bIsEncoded = false → p.iFront = 0 →
      p.iUsingSize ≤ 65535 →
      ∀ r : CPacket, r.iUsingSize = 0 → r.iFront = 0 →
        MESSAGE_HEADER_LEN + p.iUsingSize ≤ r.iMaxSize →
        let sent := keys.foldl setEncodingCode p
        let received := (r.place sent.headerBytes sent.bufferBytes).setDecodingCode
        received.1 = true ∧ received.2.data = p.data) ∧
    (∀ r : CPacket, r.iFront = 0 → (PacketHeader.at r.block).len.toNat = r.iUsingSize →
      r.setDecodingCode.1 = true →
      ∀ q : CPacket, q.bIsEncoded = false → q.iFront = 0 → q.data = r.setDecodingCode.2.data →
        let again := q.setEncodingCode (PacketHeader.at r.block).randKey
        again.headerBytes = r.headerBytes ∧ again.bufferBytes = r.bufferBytes) := by
  constructor
  · intro p keys drawn plain front size r empty rfront fits
    cases keys with
    | nil => exact absurd rfl drawn
    | cons key keys =>
        have size : p.iUsingSize < 2 ^ 16 := by omega
        rw [List.foldl_cons, foldl_setEncodingCode, ← bufferBytes_eq_data p front]
        dsimp only
        rw [headerBytes_setEncodingCode plain size, bufferBytes_setEncodingCode plain size]
        exact setDecodingCode_encodedFrame _ _ _ empty rfront (by simpa using by omega)
  · intro r front len accepted q plain qfront same
    exact setEncodingCode_accepted front len accepted plain qfront same

/-- Two payload bytes, one of them a negative `char`, encoded twice; the frame
decodes to them, and encoding them again rebuilds the frame. -/
theorem codec_round_trip_two_bytes :
    let p := CPacket.new.extend [0x80, 0x01] (by decide)
    let sent := [0xE7, 0x09].foldl setEncodingCode p
    let frame := CPacket.new.place sent.headerBytes sent.bufferBytes
    let again := p.setEncodingCode (PacketHeader.at frame.block).randKey
    (frame.setDecodingCode.1 = true ∧ frame.setDecodingCode.2.data = [0x80, 0x01]) ∧
      again.headerBytes = frame.headerBytes ∧ again.bufferBytes = frame.bufferBytes :=
  ⟨codec_round_trip.1 _ [0xE7, 0x09] (by decide) rfl rfl (by decide) CPacket.new rfl rfl
      (by decide),
    codec_round_trip.2 _ rfl (by decide) (by decide) _ rfl rfl (by decide)⟩

end CPacket

end ChattingServer
