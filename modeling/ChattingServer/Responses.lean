import ChattingServer.ChatServer

/-!
# The responses

What the response builders make: a packet written from its start, or, for a
chat message the 507 payload bytes cannot hold behind the 92 bytes in front of
it, nothing at all.
-/

namespace ChattingServer

namespace CPacket

variable {p : CPacket} {written : List BYTE} (h : p.Written written)
include h

theorem Written.writeValue (fuel : Nat) {w : Nat} (val : BitVec w)
    (fits : written.length + w / 8 ≤ 507) :
    ∃ q, p.writeValue fuel val = .ok q ∧ q.Written (written ++ bytesOf val) :=
  h.append fuel (w / 8 * 2) (by rw [length_bytesOf]; exact fits)

theorem Written.putData (fuel : Nat) (bytes : List BYTE)
    (fits : written.length + bytes.length ≤ 507) :
    ∃ q, p.putData fuel bytes = .ok q ∧ q.Written (written ++ bytes) :=
  h.append fuel bytes.length fits

theorem Written.putData_error (fuel : Nat) (bytes : List BYTE)
    (past : 507 < written.length + bytes.length) :
    ∃ fault, p.putData fuel bytes = .error fault :=
  h.append_error fuel bytes.length past

end CPacket

namespace ChatServer

/-- `Res_SectorMove` always has its packet. -/
theorem resSectorMove_ok (env : Env) (fuel : Nat) (account : INT64) (x y : WORD) :
    ∃ res, resSectorMove env fuel account x y = .ok res := by
  obtain ⟨p1, type, w1⟩ :=
    CPacket.written_alloc.writeValue fuel en_PACKET_CS_CHAT_RES_SECTOR_MOVE (by decide)
  obtain ⟨p2, no, w2⟩ := w1.writeValue fuel account (by simp)
  obtain ⟨p3, wx, w3⟩ := w2.writeValue fuel x (by simp)
  obtain ⟨p4, wy, -⟩ := w3.writeValue fuel y (by simp)
  refine ⟨p4.setEncodingCode env.randKey, ?_⟩
  unfold resSectorMove
  rw [type]
  dsimp only [bind, Except.bind]
  rw [no]
  dsimp only
  rw [wx]
  dsimp only
  rw [wy]
  rfl

/-- `MakeLoginResult` writes the account and the two names. -/
theorem makeLoginResult_ok (fuel : Nat) (account : INT64) (id nick : Vector WCHAR 20) :
    ∃ result, makeLoginResult fuel account id nick = .ok result ∧
      result.Written (bytesOf account ++ nameBytes id ++ nameBytes nick) := by
  obtain ⟨p1, no, w1⟩ := CPacket.written_alloc.writeValue fuel account (by decide)
  obtain ⟨p2, putId, w2⟩ := w1.putData fuel (nameBytes id) (by simp [length_nameBytes])
  obtain ⟨p3, putNick, w3⟩ := w2.putData fuel (nameBytes nick) (by simp [length_nameBytes])
  refine ⟨p3, ?_, w3⟩
  unfold makeLoginResult
  rw [no]
  dsimp only [bind, Except.bind]
  rw [putId]
  exact putNick

/-- The 92 bytes a chat response puts in front of the message. -/
def chatHead (player : Player) (len : WORD) : List BYTE :=
  bytesOf en_PACKET_CS_CHAT_RES_MESSAGE ++ bytesOf player.accountNo ++ nameBytes player.id ++
    nameBytes player.nick ++ bytesOf len

theorem length_chatHead (player : Player) (len : WORD) : (chatHead player len).length = 92 := by
  simp [chatHead, length_nameBytes]

/-- The store of the terminator stays in `msg` for every length. -/
theorem terminateMsg_ok (msg : Memory BYTE) (len : WORD) :
    ∃ msg', terminateMsg msg len = .ok msg' := by
  unfold terminateMsg
  dsimp only
  rw [if_pos]
  · exact ⟨_, rfl⟩
  · unfold msgSize
    split <;> omega

/-- `Res_Chat` up to the message itself. -/
theorem resChat_eq (env : Env) (fuel : Nat) (player : Player) (msg : Memory BYTE) (len : WORD) :
    ∃ p : CPacket, p.Written (chatHead player len) ∧
      resChat env fuel player msg len =
        (p.putData fuel (msg.read 0 len.toNat)).map (·.setEncodingCode env.randKey) := by
  obtain ⟨p1, type, w1⟩ :=
    CPacket.written_alloc.writeValue fuel en_PACKET_CS_CHAT_RES_MESSAGE (by decide)
  obtain ⟨p2, no, w2⟩ := w1.writeValue fuel player.accountNo (by simp)
  obtain ⟨p3, id, w3⟩ := w2.putData fuel (nameBytes player.id) (by simp [length_nameBytes])
  obtain ⟨p4, nick, w4⟩ := w3.putData fuel (nameBytes player.nick)
    (by simp [length_nameBytes])
  obtain ⟨p5, size, w5⟩ := w4.writeValue fuel len (by simp [length_nameBytes])
  obtain ⟨msg', terminated⟩ := terminateMsg_ok msg len
  refine ⟨p5, w5, ?_⟩
  unfold resChat
  rw [type]
  dsimp only [bind, Except.bind]
  rw [no]
  dsimp only
  rw [id]
  dsimp only
  rw [nick]
  dsimp only
  rw [size]
  dsimp only
  cases p5.putData fuel (msg.read 0 len.toNat) with
  | error fault => rfl
  | ok p6 =>
      dsimp only
      rw [terminated]
      rfl

/-- A message the payload can hold is answered with exactly its bytes. -/
theorem resChat_ok (env : Env) (fuel : Nat) (player : Player) (msg : Memory BYTE) (len : WORD)
    (fits : len.toNat ≤ 415) :
    ∃ res, resChat env fuel player msg len = .ok res ∧
      res.DecodesTo (chatHead player len ++ msg.read 0 len.toNat) := by
  obtain ⟨p, head, run⟩ := resChat_eq env fuel player msg len
  have total : (chatHead player len ++ msg.read 0 len.toNat).length ≤ 507 := by
    rw [List.length_append, length_chatHead, Memory.length_read]
    omega
  obtain ⟨q, put, written⟩ := head.putData fuel _ (by rw [← List.length_append]; exact total)
  refine ⟨q.setEncodingCode env.randKey, ?_, written.decodesTo total env.randKey⟩
  rw [run, put]
  rfl

/-- A longer message is not answered: its `PutData` runs past the block or
waits for room for ever. -/
theorem resChat_error (env : Env) (fuel : Nat) (player : Player) (msg : Memory BYTE) (len : WORD)
    (long : 415 < len.toNat) : ∃ fault, resChat env fuel player msg len = .error fault := by
  obtain ⟨p, head, run⟩ := resChat_eq env fuel player msg len
  obtain ⟨fault, put⟩ := head.putData_error fuel (msg.read 0 len.toNat)
    (by rw [length_chatHead, Memory.length_read]; omega)
  refine ⟨fault, ?_⟩
  rw [run, put]
  rfl

end ChatServer

end ChattingServer
