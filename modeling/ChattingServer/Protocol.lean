import ChattingServer.Types

/-!
# The client protocol

Message types and sizes of `Protocol.h`, and the layouts it gives the three
requests that carry data.  `ShortRequest` picks out the request messages whose
payload ends before their layout does.
-/

namespace ChattingServer

def dfSECTOR_MAX_X : Nat := 50
def dfSECTOR_MAX_Y : Nat := 50
def dfID_LEN : Nat := 40
def dfNiCK_LEN : Nat := 40
def dfSESSIONKEY_LEN : Nat := 64

def en_PACKET_CS_CHAT_REQ_LOGIN : WORD := 1
def en_PACKET_CS_CHAT_RES_LOGIN : WORD := 2
def en_PACKET_CS_CHAT_REQ_SECTOR_MOVE : WORD := 3
def en_PACKET_CS_CHAT_RES_SECTOR_MOVE : WORD := 4
def en_PACKET_CS_CHAT_REQ_MESSAGE : WORD := 5
def en_PACKET_CS_CHAT_RES_MESSAGE : WORD := 6
def en_PACKET_CS_CHAT_REQ_HEARTBEAT : WORD := 7

/-- The word at byte `i` of a message. -/
def wordAt (bytes : List BYTE) (i : Nat) : WORD := ofBytes 16 ((bytes.drop i).take 2)

/-- A request after its type: how many bytes its layout asks for.  A chat
request asks for its `MessageLen` bytes once it carries that field. -/
def layoutSize (type : WORD) (payload : List BYTE) : Nat :=
  if type = en_PACKET_CS_CHAT_REQ_LOGIN then
    8 + dfID_LEN + dfNiCK_LEN + dfSESSIONKEY_LEN
  else if type = en_PACKET_CS_CHAT_REQ_SECTOR_MOVE then
    8 + 2 + 2
  else if type = en_PACKET_CS_CHAT_REQ_MESSAGE then
    if payload.length < 8 + 2 then 8 + 2 else 8 + 2 + (wordAt payload 8).toNat
  else
    0

/-- A login, sector move or chat request that ends before its layout does. -/
def ShortRequest (message : List BYTE) : Prop :=
  2 ≤ message.length ∧
    (message.drop 2).length < layoutSize (wordAt message 0) (message.drop 2)

instance (message : List BYTE) : Decidable (ShortRequest message) :=
  inferInstanceAs (Decidable (_ ∧ _))

/-- A short request has one of the three types. -/
theorem ShortRequest.type {message : List BYTE} (short : ShortRequest message) :
    wordAt message 0 = en_PACKET_CS_CHAT_REQ_LOGIN ∨
      wordAt message 0 = en_PACKET_CS_CHAT_REQ_SECTOR_MOVE ∨
      wordAt message 0 = en_PACKET_CS_CHAT_REQ_MESSAGE := by
  obtain ⟨-, few⟩ := short
  unfold layoutSize at few
  split_ifs at few with login move chat
  · exact Or.inl login
  · exact Or.inr (Or.inl move)
  · exact Or.inr (Or.inr chat)
  · exact Or.inr (Or.inr chat)
  · cases few

end ChattingServer
