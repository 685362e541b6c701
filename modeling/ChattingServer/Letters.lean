import ChattingServer.ChatContent
import ChattingServer.LoginNames
import ChattingServer.Room

/-!
# Requests and letters as bytes

The payloads that `Protocol.h` lays out for what clients ask and are told.  A
payload is the layout of one letter at most, and of one request, so what a
client makes of an answer is what the server meant (`Letter.Encodes.unique`,
`Ask.Encodes.unique`).  `Res_Login` and `Res_SectorMove` make such payloads.
-/

namespace ChattingServer

/-! ## Fields one behind the other -/

theorem bytesOf_append_inj {k : Nat} {x y : BitVec (8 * k)} {rest rest' : List BYTE}
    (same : bytesOf x ++ rest = bytesOf y ++ rest') : x = y ∧ rest = rest' := by
  have length : (bytesOf x).length = (bytesOf y).length := by
    rw [length_bytesOf, length_bytesOf]
  obtain ⟨first, second⟩ := List.append_inj same length
  refine ⟨?_, second⟩
  rw [← ofBytes_bytesOf x, first, ofBytes_bytesOf]

theorem nameBytes_append_inj {a b : Vector WCHAR 20} {rest rest' : List BYTE}
    (same : nameBytes a ++ rest = nameBytes b ++ rest') : a = b ∧ rest = rest' := by
  have length : (nameBytes a).length = (nameBytes b).length := by
    rw [length_nameBytes, length_nameBytes]
  obtain ⟨first, second⟩ := List.append_inj same length
  refine ⟨?_, second⟩
  rw [← nameOf_nameBytes a, first, nameOf_nameBytes]

theorem wordAt_bytesOf (type : WORD) (rest : List BYTE) :
    wordAt (bytesOf type ++ rest) 0 = type := by
  rw [wordAt, List.drop_zero, List.take_left' (length_bytesOf type)]
  exact ofBytes_bytesOf (k := 2) type

/-! ## Letters -/

/-- The type of a letter. -/
def Letter.type : Letter → WORD
  | .login _ _ => en_PACKET_CS_CHAT_RES_LOGIN
  | .moved _ _ _ => en_PACKET_CS_CHAT_RES_SECTOR_MOVE
  | .said _ _ => en_PACKET_CS_CHAT_RES_MESSAGE

/-- What follows the type.  Names are buffers that hold them up to a
terminator. -/
def Letter.EncodesBody (body : List BYTE) : Letter → Prop
  | .login ok account => body = bytesOf (if ok then 1 else 0 : BYTE) ++ bytesOf account
  | .moved account x y => body = bytesOf account ++ (bytesOf x ++ bytesOf y)
  | .said card msg => ∃ id nick : Vector WCHAR 20, text id = card.id ∧ text nick = card.nick ∧
      body = bytesOf card.account ++ (nameBytes id ++ (nameBytes nick ++
        (bytesOf (BitVec.ofNat 16 msg.length : WORD) ++ msg)))

/-- The payload is the letter's. -/
def Letter.Encodes (payload : List BYTE) (letter : Letter) : Prop :=
  ∃ body, payload = bytesOf letter.type ++ body ∧ letter.EncodesBody body

theorem Letter.EncodesBody.unique {body : List BYTE} {letter letter' : Letter}
    (type : letter.type = letter'.type) (first : letter.EncodesBody body)
    (second : letter'.EncodesBody body) : letter = letter' := by
  cases letter with
  | login ok account =>
      cases letter' with
      | login ok' account' =>
          obtain ⟨verdict, rest⟩ := bytesOf_append_inj (k := 1) (first.symm.trans second)
          have same : ok = ok' := by
            cases ok <;> cases ok' <;> first | rfl | exact absurd verdict (by decide)
          have account := congrArg (ofBytes 64) rest
          rw [ofBytes_bytesOf (k := 8), ofBytes_bytesOf (k := 8)] at account
          rw [same, account]
      | _ => cases type
  | moved account x y =>
      cases letter' with
      | moved account' x' y' =>
          obtain ⟨sameAccount, place⟩ := bytesOf_append_inj (k := 8) (first.symm.trans second)
          obtain ⟨column, last⟩ := bytesOf_append_inj (k := 2) place
          have row := congrArg (ofBytes 16) last
          rw [ofBytes_bytesOf (k := 2), ofBytes_bytesOf (k := 2)] at row
          rw [sameAccount, column, row]
      | _ => cases type
  | said card msg =>
      cases letter' with
      | said card' msg' =>
          obtain ⟨id, nick, sameId, sameNick, rfl⟩ := first
          obtain ⟨id', nick', sameId', sameNick', same⟩ := second
          obtain ⟨account, names⟩ := bytesOf_append_inj (k := 8) same
          obtain ⟨ids, nicks⟩ := nameBytes_append_inj names
          obtain ⟨same', rest⟩ := nameBytes_append_inj nicks
          obtain ⟨-, rfl⟩ := bytesOf_append_inj (k := 2) rest
          rw [ids, sameId'] at sameId
          rw [same', sameNick'] at sameNick
          obtain ⟨no, first, second⟩ := card
          obtain ⟨no', first', second'⟩ := card'
          obtain rfl : no = no' := account
          obtain rfl : first' = first := sameId
          obtain rfl : second' = second := sameNick
          rfl
      | _ => cases type

/-- A client reads one letter off a payload. -/
theorem Letter.Encodes.unique {payload : List BYTE} {letter letter' : Letter}
    (first : letter.Encodes payload) (second : letter'.Encodes payload) : letter = letter' := by
  obtain ⟨body, rfl, encodes⟩ := first
  obtain ⟨body', same, encodes'⟩ := second
  obtain ⟨type, rfl⟩ := bytesOf_append_inj (k := 2) same
  exact EncodesBody.unique type encodes encodes'

/-- The packet brings its receiver the letter. -/
def CPacket.Carries (p : CPacket) (letter : Letter) : Prop :=
  ∃ payload, p.DecodesTo payload ∧ letter.Encodes payload

theorem CPacket.Carries.unique {p : CPacket} {letter letter' : Letter} (first : p.Carries letter)
    (second : p.Carries letter') : letter = letter' := by
  obtain ⟨payload, decodes, encodes⟩ := first
  obtain ⟨payload', decodes', encodes'⟩ := second
  obtain rfl := decodes.2.symm.trans decodes'.2
  exact encodes.unique encodes'

/-! ## Requests -/

/-- The types that `RecvProc` knows. -/
def requestTypes : List WORD :=
  [en_PACKET_CS_CHAT_REQ_LOGIN, en_PACKET_CS_CHAT_REQ_SECTOR_MOVE, en_PACKET_CS_CHAT_REQ_MESSAGE,
    en_PACKET_CS_CHAT_REQ_HEARTBEAT]

def Ask.type : Ask → Option WORD
  | .login _ => some en_PACKET_CS_CHAT_REQ_LOGIN
  | .move _ _ _ => some en_PACKET_CS_CHAT_REQ_SECTOR_MOVE
  | .say _ _ => some en_PACKET_CS_CHAT_REQ_MESSAGE
  | .heartbeat => some en_PACKET_CS_CHAT_REQ_HEARTBEAT
  | .other => none

/-- What follows the type: names with a terminator, a message that an answer has
room for. -/
def Ask.EncodesBody (body : List BYTE) : Ask → Prop
  | .login card => ∃ (id nick : Vector WCHAR 20) (clientKey : List BYTE),
      Terminated id ∧ Terminated nick ∧ text id = card.id ∧ text nick = card.nick ∧
      clientKey.length = dfSESSIONKEY_LEN ∧
      body = loginBytes card.account id nick ++ clientKey
  | .move account x y => body = bytesOf account ++ (bytesOf x ++ bytesOf y)
  | .say account msg => msg.length ≤ 415 ∧ body = chatRequest account msg
  | .heartbeat => True
  | .other => True

/-- The payload is the request's. -/
def Ask.Encodes (payload : List BYTE) (ask : Ask) : Prop :=
  match ask.type with
  | some type => ∃ body, payload = bytesOf type ++ body ∧ ask.EncodesBody body
  | none => payload.length < 2 ∨ wordAt payload 0 ∉ requestTypes

theorem Ask.type_mem {ask : Ask} {type : WORD} (known : ask.type = some type) :
    type ∈ requestTypes := by
  cases ask <;> cases known <;> simp [requestTypes]

theorem Ask.eq_other {ask : Ask} (unknown : ask.type = none) : ask = .other := by
  cases ask <;> first | rfl | cases unknown

theorem Ask.EncodesBody.unique {body : List BYTE} {ask ask' : Ask} (type : ask.type = ask'.type)
    (first : ask.EncodesBody body) (second : ask'.EncodesBody body) : ask = ask' := by
  cases ask with
  | login card =>
      cases ask' with
      | login card' =>
          obtain ⟨id, nick, key, -, -, sameId, sameNick, -, rfl⟩ := first
          obtain ⟨id', nick', key', -, -, sameId', sameNick', -, same⟩ := second
          simp only [loginBytes, List.append_assoc] at same
          obtain ⟨account, names⟩ := bytesOf_append_inj (k := 8) same
          obtain ⟨ids, nicks⟩ := nameBytes_append_inj names
          obtain ⟨same', -⟩ := nameBytes_append_inj nicks
          rw [ids, sameId'] at sameId
          rw [same', sameNick'] at sameNick
          obtain ⟨no, first, second⟩ := card
          obtain ⟨no', first', second'⟩ := card'
          obtain rfl : no = no' := account
          obtain rfl : first' = first := sameId
          obtain rfl : second' = second := sameNick
          rfl
      | _ => cases type
  | move account x y =>
      cases ask' with
      | move account' x' y' =>
          obtain ⟨sameAccount, place⟩ := bytesOf_append_inj (k := 8) (first.symm.trans second)
          obtain ⟨column, last⟩ := bytesOf_append_inj (k := 2) place
          have row := congrArg (ofBytes 16) last
          rw [ofBytes_bytesOf (k := 2), ofBytes_bytesOf (k := 2)] at row
          rw [sameAccount, column, row]
      | _ => cases type
  | say account msg =>
      cases ask' with
      | say account' msg' =>
          have same := first.2.symm.trans second.2
          simp only [chatRequest, List.append_assoc] at same
          obtain ⟨sameAccount, rest⟩ := bytesOf_append_inj (k := 8) same
          obtain ⟨-, sameMsg⟩ := bytesOf_append_inj (k := 2) rest
          rw [sameAccount, sameMsg]
      | _ => cases type
  | heartbeat => cases ask' <;> first | rfl | cases type
  | other => cases ask' <;> first | rfl | cases type

/-- The server reads one request off a payload. -/
theorem Ask.Encodes.unique {payload : List BYTE} {ask ask' : Ask} (first : ask.Encodes payload)
    (second : ask'.Encodes payload) : ask = ask' := by
  have unknown {ask : Ask} {type : WORD} {body : List BYTE} (known : ask.type = some type) :
      ¬ ((bytesOf type ++ body).length < 2 ∨ wordAt (bytesOf type ++ body) 0 ∉ requestTypes) := by
    intro other
    rw [wordAt_bytesOf, List.length_append, length_bytesOf] at other
    rcases other with short | unlisted
    · omega
    · exact unlisted (Ask.type_mem known)
  unfold Encodes at first second
  cases known : ask.type with
  | none =>
      rw [known] at first
      cases known' : ask'.type with
      | none => rw [eq_other known, eq_other known']
      | some type =>
          rw [known'] at second
          obtain ⟨body, rfl, -⟩ := second
          exact absurd first (unknown known')
  | some type =>
      rw [known] at first
      obtain ⟨body, rfl, encodes⟩ := first
      cases known' : ask'.type with
      | none =>
          rw [known'] at second
          exact absurd second (unknown known)
      | some type' =>
          rw [known'] at second
          obtain ⟨body', same, encodes'⟩ := second
          obtain ⟨rfl, rfl⟩ := bytesOf_append_inj (k := 2) same
          exact EncodesBody.unique (known.trans known'.symm) encodes encodes'

/-! ## The responses -/

namespace ChatServer

/-- `Res_Login` makes a letter. -/
theorem resLogin_carries (randKey : BYTE) (fuel : Nat) (account : INT64) (ok : Bool) :
    ∃ res, resLogin randKey fuel account (if ok then 1 else 0) = .ok res ∧
      res.Carries (.login ok account) := by
  obtain ⟨p1, type, w1⟩ :=
    CPacket.written_alloc.writeValue fuel en_PACKET_CS_CHAT_RES_LOGIN (by decide)
  obtain ⟨p2, verdict, w2⟩ := w1.writeValue fuel (if ok then 1 else 0 : BYTE) (by simp)
  obtain ⟨p3, no, w3⟩ := w2.writeValue fuel account (by simp)
  refine ⟨p3.setEncodingCode randKey, ?_, _, w3.decodesTo (by simp) randKey, ?_⟩
  · unfold resLogin
    rw [type]
    dsimp only [bind, Except.bind]
    rw [verdict]
    dsimp only
    rw [no]
    rfl
  · refine ⟨_, ?_, rfl⟩
    simp only [List.nil_append, List.append_assoc]
    rfl

/-- `Res_SectorMove` makes a letter. -/
theorem resSectorMove_carries (env : Env) (fuel : Nat) (account : INT64) (x y : WORD) :
    ∃ res, resSectorMove env fuel account x y = .ok res ∧ res.Carries (.moved account x y) := by
  obtain ⟨p1, type, w1⟩ :=
    CPacket.written_alloc.writeValue fuel en_PACKET_CS_CHAT_RES_SECTOR_MOVE (by decide)
  obtain ⟨p2, no, w2⟩ := w1.writeValue fuel account (by simp)
  obtain ⟨p3, wx, w3⟩ := w2.writeValue fuel x (by simp)
  obtain ⟨p4, wy, w4⟩ := w3.writeValue fuel y (by simp)
  refine ⟨p4.setEncodingCode env.randKey, ?_, _, w4.decodesTo (by simp) env.randKey, ?_⟩
  · unfold resSectorMove
    rw [type]
    dsimp only [bind, Except.bind]
    rw [no]
    dsimp only
    rw [wx]
    dsimp only
    rw [wy]
    rfl
  · refine ⟨_, ?_, rfl⟩
    simp only [List.nil_append, List.append_assoc]
    rfl

/-- A chat response is a letter. -/
theorem carries_of_chatResponse {player : Player} {res : CPacket} {msg : List BYTE}
    (decodes : res.DecodesTo (chatResponse player msg)) :
    res.Carries (.said ⟨player.accountNo, text player.id, text player.nick⟩ msg) := by
  refine ⟨_, decodes, _, ?_, player.id, player.nick, rfl, rfl, rfl⟩
  simp only [chatResponse, chatHead, List.append_assoc]
  rfl

end ChatServer

end ChattingServer
