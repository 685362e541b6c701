import ChattingServer.Requests

/-!
# A chat message from request to recipients

A chat request of a logged-in player that stands in a sector: what `Req_Chat`
queues for the players around.  The response puts 92 bytes in front of the
message, so the messages of 416 to 495 bytes, which a request can bring, are
those it has no room for.
-/

namespace ChattingServer

/-- A chat request after its type. -/
def chatRequest (account : INT64) (msg : List BYTE) : List BYTE :=
  bytesOf account ++ bytesOf (BitVec.ofNat 16 msg.length : WORD) ++ msg

namespace ChatServer

/-- The chat response `Protocol.h` lays out for a player's message. -/
def chatResponse (player : Player) (msg : List BYTE) : List BYTE :=
  chatHead player (BitVec.ofNat 16 msg.length) ++ msg

/-- `Req_Chat` returns TRUE and has queued, for every session it collects, a
packet that decodes to the sender's response. -/
def Delivers (s : ChatServer) (env : Env) (player : PlayerPtr) (packet : CPacket)
    (msg : List BYTE) : Prop :=
  ∃ fuel s' res, s.reqChat env fuel player packet = .ok (true, s') ∧
    s'.sent = s.sent ++
      (s.targets (s.player player).sectorX (s.player player).sectorY).map (·, res) ∧
    res.DecodesTo (chatResponse (s.player player) msg)

section Request

variable {account : INT64} {msg : List BYTE}

theorem readAccount_chatRequest :
    (readBytes (0 : INT64) (chatRequest account msg)).2 =
      bytesOf (BitVec.ofNat 16 msg.length : WORD) ++ msg := by
  have enough : 8 ≤ (chatRequest account msg).length := by
    simp [chatRequest]
  have front : (bytesOf account).length = 8 := length_bytesOf account
  rw [readAccount_of_le enough, chatRequest, List.append_assoc, List.drop_left' front]

theorem readLen_chatRequest :
    readBytes (0 : WORD) (bytesOf (BitVec.ofNat 16 msg.length : WORD) ++ msg) =
      (BitVec.ofNat 16 msg.length, msg) := by
  rw [readBytes_of_le (by simp), List.take_left' (length_bytesOf _),
    List.drop_left' (length_bytesOf _), ofBytes_bytesOf (k := 2)]

theorem msgLenWord_chatRequest :
    msgLenWord (chatRequest account msg) = BitVec.ofNat 16 msg.length := by
  rw [msgLenWord, readAccount_chatRequest, readLen_chatRequest]

theorem msgRest_chatRequest : msgRest (chatRequest account msg) = msg := by
  rw [msgRest, readAccount_chatRequest, readLen_chatRequest]

end Request

/-- `Req_Chat` on a well-formed request: the message bytes reach `Res_Chat`. -/
theorem reqChat_wellFormed (s : ChatServer) (env : Env) (fuel : Nat) {player : PlayerPtr}
    {packet : CPacket} {account : INT64} {msg : List BYTE}
    (logined : (s.player player).isLogined = true)
    (inside : isValidSector (s.player player).sectorX (s.player player).sectorY = true)
    (nonempty : 1 ≤ msg.length) (fits : msg.length ≤ 495)
    (request : packet.data = chatRequest account msg) :
    ∃ scratch : Memory BYTE, scratch.read 0 msg.length = msg ∧
      s.reqChat env fuel player packet =
        (resChat env fuel (s.player player) scratch (BitVec.ofNat 16 msg.length)).map fun res =>
          (true, (s.targets (s.player player).sectorX (s.player player).sectorY).foldl
            (fun s sid => s.sendPacket sid res) s) := by
  have len : (BitVec.ofNat 16 msg.length : WORD).toNat = msg.length := by
    rw [BitVec.toNat_ofNat]
    exact Nat.mod_eq_of_lt (by omega)
  have nonzero : (BitVec.ofNat 16 msg.length : WORD) ≠ 0 := by
    intro zero
    rw [zero] at len
    simp at len
    omega
  obtain ⟨q, rest, run⟩ := reqChat_eq s env fuel packet logined
  rw [request, msgRest_chatRequest] at rest
  rw [request, msgLenWord_chatRequest, if_neg nonzero, len] at run
  have whole : (q.getData msg.length).1 = some msg := by
    have size : q.iUsingSize = msg.length := by rw [← CPacket.length_data, rest]
    rw [q.getData_of_le (by rw [size]), rest, List.take_length]
  have copied : getMsg env.msg (some msg) = .ok (env.msg.write 0 msg) := by
    refine if_pos ?_
    unfold msgSize
    omega
  refine ⟨env.msg.write 0 msg, Memory.read_write _ _ _, ?_⟩
  rw [run, whole, copied, inside]
  dsimp only [bind, Except.bind]
  cases resChat env fuel (s.player player) (env.msg.write 0 msg)
      (BitVec.ofNat 16 msg.length) with
  | error fault => rfl
  | ok res => exact if_neg (by decide)

section Delivery

variable (s : ChatServer) (env : Env) (player : PlayerPtr) (packet : CPacket) (account : INT64)
  (msg : List BYTE)

theorem delivers_of_short (logined : (s.player player).isLogined = true)
    (inside : isValidSector (s.player player).sectorX (s.player player).sectorY = true)
    (nonempty : 1 ≤ msg.length) (short : msg.length ≤ 415)
    (request : packet.data = chatRequest account msg) : s.Delivers env player packet msg := by
  have len : (BitVec.ofNat 16 msg.length : WORD).toNat = msg.length := by
    rw [BitVec.toNat_ofNat]
    exact Nat.mod_eq_of_lt (by omega)
  obtain ⟨scratch, read, made⟩ :=
    reqChat_wellFormed s env 0 logined inside nonempty (by omega) request
  obtain ⟨res, built, decodes⟩ := resChat_ok env 0 (s.player player) scratch
    (BitVec.ofNat 16 msg.length) (by rw [len]; exact short)
  rw [len, read] at decodes
  refine ⟨0, _, res, ?_, congrArg sent (foldl_sendPacket res _ s), decodes⟩
  rw [made, built]
  rfl

theorem not_delivers_of_long (logined : (s.player player).isLogined = true)
    (inside : isValidSector (s.player player).sectorX (s.player player).sectorY = true)
    (long : 415 < msg.length) (fits : msg.length ≤ 495)
    (request : packet.data = chatRequest account msg) : ¬ s.Delivers env player packet msg := by
  have len : (BitVec.ofNat 16 msg.length : WORD).toNat = msg.length := by
    rw [BitVec.toNat_ofNat]
    exact Nat.mod_eq_of_lt (by omega)
  rintro ⟨fuel, s', res, run, -, -⟩
  obtain ⟨scratch, -, made⟩ :=
    reqChat_wellFormed s env fuel logined inside (by omega) fits request
  obtain ⟨fault, stuck⟩ := resChat_error env fuel (s.player player) scratch
    (BitVec.ofNat 16 msg.length) (by rw [len]; exact long)
  rw [made, stuck] at run
  cases run

/-- **Chat content.** A well-formed chat request that fits a received packet is
answered, within the buffers and with exactly its bytes, if and only if its
message has at most 415 bytes. -/
theorem chat_content_iff (logined : (s.player player).isLogined = true)
    (inside : isValidSector (s.player player).sectorX (s.player player).sectorY = true)
    (nonempty : 1 ≤ msg.length) (fits : msg.length ≤ 495)
    (request : packet.data = chatRequest account msg) :
    s.Delivers env player packet msg ↔ msg.length ≤ 415 := by
  rcases Nat.lt_or_ge 415 msg.length with long | short
  · refine iff_of_false ?_ (Nat.not_le.mpr long)
    exact not_delivers_of_long s env player packet account msg logined inside long fits request
  · refine iff_of_true ?_ short
    exact delivers_of_short s env player packet account msg logined inside nonempty short request

end Delivery

/-- The packet a chat request arrives as, once its type has been read. -/
def chatPacket (account : INT64) (msg : List BYTE) : CPacket :=
  ((CPacket.received 0 (bytesOf en_PACKET_CS_CHAT_REQ_MESSAGE ++
    chatRequest account msg)).readValue (0 : WORD)).2

theorem data_chatPacket (account : INT64) {msg : List BYTE} (fits : msg.length ≤ 495) :
    (chatPacket account msg).data = chatRequest account msg := by
  have type : (bytesOf en_PACKET_CS_CHAT_REQ_MESSAGE).length = 2 := length_bytesOf _
  have whole : (bytesOf en_PACKET_CS_CHAT_REQ_MESSAGE ++ chatRequest account msg).length ≤ 507 := by
    simp [chatRequest]
    omega
  have enough : 2 ≤ (bytesOf en_PACKET_CS_CHAT_REQ_MESSAGE ++ chatRequest account msg).length := by
    rw [List.length_append]
    omega
  obtain ⟨-, rest⟩ := (CPacket.received 0 (bytesOf en_PACKET_CS_CHAT_REQ_MESSAGE ++
    chatRequest account msg)).readValue_eq (0 : WORD)
  rw [CPacket.data_received 0 _ whole, readWord_of_le enough, List.drop_left' type] at rest
  exact rest

/-- A server whose one player is logged in and stands in a sector. -/
def podium : ChatServer :=
  (lobby.updatePlayer 0 fun p =>
    { p with isLogined := true, accountNo := 7, sectorX := 3, sectorY := 4 }).updateSector 3 4
      (·.insert 0)

/-- A message of 416 bytes gets no answer. -/
theorem chat_content_lost :
    ¬ ∀ msg : List BYTE, 1 ≤ msg.length → msg.length ≤ 495 →
      podium.Delivers ⟨0, 0, 0, 0, fun _ => 0⟩ 0 (chatPacket 7 msg) msg := by
  intro delivered
  have size : (List.replicate 416 (0x41 : BYTE)).length = 416 := List.length_replicate
  refine not_delivers_of_long podium ⟨0, 0, 0, 0, fun _ => 0⟩ 0
    (chatPacket 7 (List.replicate 416 0x41)) 7 (List.replicate 416 0x41) rfl rfl
    (by rw [size]; decide) (by rw [size]; decide) (data_chatPacket 7 (by rw [size]; decide)) ?_
  exact delivered _ (by rw [size]; decide) (by rw [size]; decide)

/-- A message of two bytes reaches the player itself, the only one around. -/
theorem chat_content_two_bytes :
    podium.Delivers ⟨0, 0, 0, 0, fun _ => 0⟩ 0 (chatPacket 7 [0x68, 0x69]) [0x68, 0x69] ∧
      podium.targets 3 4 = [0x10000] :=
  ⟨(chat_content_iff podium ⟨0, 0, 0, 0, fun _ => 0⟩ 0 (chatPacket 7 [0x68, 0x69]) 7 [0x68, 0x69]
    rfl rfl (by decide) (by decide) (data_chatPacket 7 (by decide))).mpr (by decide), by decide⟩

end ChatServer

end ChattingServer
