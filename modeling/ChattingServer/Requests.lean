import ChattingServer.Responses

/-!
# Requests that end too early

`ReadValue` and `GetData` report a short packet only by leaving their target
alone, so what a handler makes of a truncated request is what `readBytes`
leaves in its variables.  `malformed_rejected_iff` says for which truncated
requests that is still a rejection whatever the uninitialised locals hold.
-/

namespace ChattingServer

/-! ## Reading a value off the unread bytes -/

/-- `>>` on a list of unread bytes. -/
def readBytes {w : Nat} (val : BitVec w) (bytes : List BYTE) : BitVec w × List BYTE :=
  if bytes.length < w / 8 then
    (val, bytes)
  else
    (ofBytes w (bytes.take (w / 8)), bytes.drop (w / 8))

theorem readBytes_of_short {w : Nat} {val : BitVec w} {bytes : List BYTE}
    (short : bytes.length < w / 8) : readBytes val bytes = (val, bytes) :=
  if_pos short

theorem readBytes_of_le {w : Nat} {val : BitVec w} {bytes : List BYTE}
    (enough : w / 8 ≤ bytes.length) :
    readBytes val bytes = (ofBytes w (bytes.take (w / 8)), bytes.drop (w / 8)) :=
  if_neg (Nat.not_lt.mpr enough)

/-- `>>` on a packet is `readBytes` on its unread payload. -/
theorem CPacket.readValue_eq (p : CPacket) {w : Nat} (val : BitVec w) :
    (p.readValue val).1 = (readBytes val p.data).1 ∧
      (p.readValue val).2.data = (readBytes val p.data).2 := by
  rcases Nat.lt_or_ge p.iUsingSize (w / 8) with short | enough
  · rw [p.readValue_of_short val short, readBytes_of_short (by rw [p.length_data]; exact short)]
    exact ⟨rfl, rfl⟩
  · rw [p.readValue_of_le val enough, readBytes_of_le (by rw [p.length_data]; exact enough)]
    exact ⟨rfl, p.data_consume enough⟩

/-- The coordinates `Req_SectorMove` ends up with. -/
def moveWords (env : Env) (payload : List BYTE) : WORD × WORD :=
  let rest := (readBytes (0 : INT64) payload).2
  ((readBytes env.x rest).1, (readBytes env.y (readBytes env.x rest).2).1)

/-- The `msgLenBytes` that `Req_Chat` ends up with. -/
def msgLenWord (payload : List BYTE) : WORD :=
  (readBytes (0 : WORD) (readBytes (0 : INT64) payload).2).1

/-- The unread bytes `Req_Chat` then takes the message from. -/
def msgRest (payload : List BYTE) : List BYTE :=
  (readBytes (0 : WORD) (readBytes (0 : INT64) payload).2).2

/-! ## What a request leaves unchanged -/

/-- A player without its reference count and the time it was last heard of. -/
def Player.profile (p : Player) : Player := { p with ref := 0, lastRecvTime := 0 }

namespace ChatServer

/-- Nothing but reference counts, the pool and receive times differ. -/
structure SameContent (s s' : ChatServer) : Prop where
  players : s'.players = s.players
  accounts : s'.accounts = s.accounts
  sector : s'.sector = s.sector
  redisQ : s'.redisQ = s.redisQ
  sent : s'.sent = s.sent
  profile : ∀ p, (s'.player p).profile = (s.player p).profile

variable {s s' s'' : ChatServer} {player : PlayerPtr} {sessionID : UINT64}

theorem SameContent.trans (h : s.SameContent s') (h' : s'.SameContent s'') : s.SameContent s'' where
  players := h'.players.trans h.players
  accounts := h'.accounts.trans h.accounts
  sector := h'.sector.trans h.sector
  redisQ := h'.redisQ.trans h.redisQ
  sent := h'.sent.trans h.sent
  profile := fun p => (h'.profile p).trans (h.profile p)

theorem SameContent.symm (h : s.SameContent s') : s'.SameContent s where
  players := h.players.symm
  accounts := h.accounts.symm
  sector := h.sector.symm
  redisQ := h.redisQ.symm
  sent := h.sent.symm
  profile := fun p => (h.profile p).symm

/-- A field the profile keeps is the same in both states. -/
theorem SameContent.field {α : Type} (h : s.SameContent s') (f : Player → α)
    (kept : ∀ p, f p.profile = f p) (player : PlayerPtr) :
    f (s'.player player) = f (s.player player) := by
  rw [← kept, h.profile, kept]

theorem sameContent_updatePlayer (s : ChatServer) (player : PlayerPtr) {f : Player → Player}
    (keeps : ∀ p, (f p).profile = p.profile) : s.SameContent (s.updatePlayer player f) where
  players := rfl
  accounts := rfl
  sector := rfl
  redisQ := rfl
  sent := rfl
  profile := by
    intro p
    rcases eq_or_ne p player with rfl | other
    · show (Function.update s.player p (f (s.player p)) p).profile = _
      rw [Function.update_self, keeps]
    · show (Function.update s.player player (f (s.player player)) p).profile = _
      rw [Function.update_of_ne other]

theorem sameContent_addRefPlayer (s : ChatServer) (player : PlayerPtr) :
    s.SameContent (s.addRefPlayer player) :=
  sameContent_updatePlayer s player fun _ => rfl

theorem sameContent_releasePlayer (s : ChatServer) (player : PlayerPtr) :
    s.SameContent (s.releasePlayer player) := by
  have same : s.SameContent (s.updatePlayer player fun p => { p with ref := p.ref - 1 }) :=
    sameContent_updatePlayer s player fun _ => rfl
  unfold releasePlayer
  dsimp only
  split
  · exact ⟨same.players, same.accounts, same.sector, same.redisQ, same.sent, same.profile⟩
  · exact same

/-! ## `RecvProc` on an attended session -/

/-- A session has a player that is not being taken down. -/
structure Attended (s : ChatServer) (sessionID : UINT64) (player : PlayerPtr) : Prop where
  joined : s.players sessionID = some player
  staying : (s.player player).closing = false

/-- The state in which a handler starts. -/
def begun (s : ChatServer) (env : Env) (player : PlayerPtr) : ChatServer :=
  (s.addRefPlayer player).updatePlayer player fun p => { p with lastRecvTime := env.now }

theorem sameContent_begun (s : ChatServer) (env : Env) (player : PlayerPtr) :
    s.SameContent (s.begun env player) :=
  (sameContent_addRefPlayer s player).trans (sameContent_updatePlayer _ player fun _ => rfl)

theorem closing_addRefPlayer : ((s.addRefPlayer player).player player).closing =
    (s.player player).closing :=
  (sameContent_addRefPlayer s player).field Player.closing (fun _ => rfl) player

theorem acquirePlayer_of_attended (h : s.Attended sessionID player) :
    s.acquirePlayer sessionID = (some player, s.addRefPlayer player) := by
  unfold acquirePlayer
  rw [h.joined]
  dsimp only
  rw [closing_addRefPlayer, h.staying, if_neg (by decide)]

/-- Without an attended player a request is turned down at once. -/
theorem acquirePlayer_of_unattended (h : ∀ player, ¬ s.Attended sessionID player) :
    (s.acquirePlayer sessionID).1 = none ∧ s.SameContent (s.acquirePlayer sessionID).2 := by
  unfold acquirePlayer
  cases joined : s.players sessionID with
  | none => exact ⟨rfl, rfl, rfl, rfl, rfl, rfl, fun _ => rfl⟩
  | some player =>
      have leaving : (s.player player).closing = true :=
        Bool.not_eq_false _ ▸ fun staying => h player ⟨joined, staying⟩
      dsimp only
      rw [closing_addRefPlayer, if_pos leaving]
      exact ⟨rfl, (sameContent_addRefPlayer s player).trans (sameContent_releasePlayer _ player)⟩

theorem recvProc_of_attended (h : s.Attended sessionID player) (env : Env) (fuel : Nat)
    (packet : CPacket) :
    s.recvProc env fuel sessionID packet =
      ((s.begun env player).dispatch env fuel sessionID player (packet.readValue (0 : WORD)).1
        (packet.readValue (0 : WORD)).2).map fun r => (r.1, r.2.releasePlayer player) := by
  unfold recvProc
  rw [acquirePlayer_of_attended h]
  rfl

/-! ## The handlers -/

theorem reqLoginRedis_fst (s : ChatServer) (packet : CPacket)
    (staying : (s.player player).closing = false) :
    (s.reqLoginRedis sessionID player packet).1 = false ↔
      (s.player player).sessionID ≠ sessionID ∨ (s.player player).accountNo ≠ 0 ∨
        (s.player player).isLogined = true := by
  unfold reqLoginRedis
  dsimp only
  rw [staying, if_neg (by decide)]
  split_ifs with other taken
  · exact iff_of_true rfl (Or.inl other)
  · exact iff_of_true rfl (Or.inr (by simpa using taken))
  · refine iff_of_false (by decide) ?_
    rintro (different | used)
    · exact other different
    · exact taken (by simpa using used)

/-- A login that is turned down changes nothing. -/
theorem reqLoginRedis_of_false {packet : CPacket}
    (refused : (s.reqLoginRedis sessionID player packet).1 = false) :
    (s.reqLoginRedis sessionID player packet).2 = s := by
  unfold reqLoginRedis at refused ⊢
  dsimp only at refused ⊢
  split_ifs at refused ⊢ <;> rfl

theorem reqSectorMove_of_invalid (s : ChatServer) {env : Env} (fuel : Nat) {packet : CPacket}
    (outside : isValidSector (moveWords env packet.data).1 (moveWords env packet.data).2 = false) :
    s.reqSectorMove env fuel sessionID player packet = .ok (false, s) := by
  obtain ⟨-, rest⟩ := packet.readValue_eq (0 : INT64)
  obtain ⟨x, restX⟩ := (packet.readValue (0 : INT64)).2.readValue_eq env.x
  obtain ⟨y, -⟩ := ((packet.readValue (0 : INT64)).2.readValue env.x).2.readValue_eq env.y
  rw [rest] at x restX
  rw [restX] at y
  unfold reqSectorMove
  dsimp only
  rw [x, y]
  exact if_pos outside

/-- A sector move that is carried out. -/
def moved (s : ChatServer) (player : PlayerPtr) (x y : WORD) (now : UINT64) : ChatServer :=
  let ox := (s.player player).sectorX
  let oy := (s.player player).sectorY
  let s := if isValidSector ox oy then s.updateSector ox oy (·.erase player) else s
  let s := s.updateSector x y (·.insert player)
  s.updatePlayer player fun p => { p with sectorX := x, sectorY := y, lastRecvTime := now }

variable (player sessionID) in
theorem reqSectorMove_of_valid (s : ChatServer) {env : Env} (fuel : Nat) {packet : CPacket}
    (inside : isValidSector (moveWords env packet.data).1 (moveWords env packet.data).2 = true) :
    ∃ res, s.reqSectorMove env fuel sessionID player packet =
      .ok (true, (s.moved player (moveWords env packet.data).1 (moveWords env packet.data).2
        env.now).sendPacket sessionID res) := by
  obtain ⟨-, rest⟩ := packet.readValue_eq (0 : INT64)
  obtain ⟨x, restX⟩ := (packet.readValue (0 : INT64)).2.readValue_eq env.x
  obtain ⟨y, -⟩ := ((packet.readValue (0 : INT64)).2.readValue env.x).2.readValue_eq env.y
  rw [rest] at x restX
  rw [restX] at y
  obtain ⟨res, made⟩ := resSectorMove_ok env fuel (packet.readValue (0 : INT64)).1
    (moveWords env packet.data).1 (moveWords env packet.data).2
  refine ⟨res, ?_⟩
  unfold moveWords at inside made ⊢
  unfold reqSectorMove
  dsimp only at inside made ⊢
  rw [x, y, inside, if_neg (by decide), made]
  rfl

theorem foldl_sendPacket (res : CPacket) (sids : List UINT64) (s : ChatServer) :
    sids.foldl (fun s sid => s.sendPacket sid res) s =
      { s with sent := s.sent ++ sids.map (·, res) } := by
  induction sids generalizing s with
  | nil => simp
  | cons sid sids ih =>
      rw [List.foldl_cons, ih, List.map_cons]
      rw [sendPacket, List.append_assoc]
      rfl

/-- What `Req_Chat` comes to, if it returns. -/
theorem reqChat_cases {env : Env} {fuel : Nat} {packet : CPacket} {ok : Bool}
    (done : s.reqChat env fuel player packet = .ok (ok, s')) :
    (ok = false ∧ s' = s) ∨
      (ok = true ∧ (s.player player).isLogined = true ∧
        isValidSector (s.player player).sectorX (s.player player).sectorY = true ∧
        ∃ res, s' = { s with
          sent := s.sent ++
            (s.targets (s.player player).sectorX (s.player player).sectorY).map (·, res) }) := by
  unfold reqChat at done
  split at done
  · cases done
    exact Or.inl ⟨rfl, rfl⟩
  · rename_i logined
    dsimp only at done
    split at done
    · cases done
      exact Or.inl ⟨rfl, rfl⟩
    · generalize getMsg env.msg _ = msg at done
      cases msg with
      | error fault => cases done
      | ok msg =>
          simp only [bind, Except.bind] at done
          generalize resChat env fuel (s.player player) msg _ = res at done
          cases res with
          | error fault => cases done
          | ok res =>
              dsimp only at done
              split at done
              · cases done
                exact Or.inl ⟨rfl, rfl⟩
              · rename_i inside
                rw [foldl_sendPacket] at done
                cases done
                exact Or.inr
                  ⟨rfl, eq_true_of_ne_false logined, eq_true_of_ne_false inside, res, rfl⟩

/-- What `Req_Chat` does for a player that is logged in, on the words it
reads. -/
theorem reqChat_eq (s : ChatServer) (env : Env) (fuel : Nat) (packet : CPacket)
    (logined : (s.player player).isLogined = true) :
    ∃ q : CPacket, q.data = msgRest packet.data ∧
      s.reqChat env fuel player packet =
        if msgLenWord packet.data = 0 then .ok (false, s)
        else do
          let msg ← getMsg env.msg (q.getData (msgLenWord packet.data).toNat).1
          let res ← resChat env fuel (s.player player) msg (msgLenWord packet.data)
          if isValidSector (s.player player).sectorX (s.player player).sectorY = false then
            return (false, s)
          else
            return (true, (s.targets (s.player player).sectorX (s.player player).sectorY).foldl
              (fun s sid => s.sendPacket sid res) s) := by
  obtain ⟨-, rest⟩ := packet.readValue_eq (0 : INT64)
  obtain ⟨len, restLen⟩ := (packet.readValue (0 : INT64)).2.readValue_eq (0 : WORD)
  rw [rest] at len restLen
  refine ⟨((packet.readValue (0 : INT64)).2.readValue (0 : WORD)).2, restLen, ?_⟩
  unfold reqChat
  rw [logined, if_neg (by decide)]
  dsimp only
  rw [len]
  rfl

end ChatServer

/-! ## Truncated payloads -/

/-- Where a truncated sector move is turned down whatever the uninitialised
coordinates hold: an account of fewer than eight bytes is skipped and its bytes
are read as coordinates. -/
def MoveRefused (payload : List BYTE) : Prop :=
  ((payload.length = 2 ∨ payload.length = 3) ∧ dfSECTOR_MAX_X ≤ (wordAt payload 0).toNat) ∨
    ((4 ≤ payload.length ∧ payload.length < 8) ∧
      isValidSector (wordAt payload 0) (wordAt payload 2) = false) ∨
    ((payload.length = 10 ∨ payload.length = 11) ∧ dfSECTOR_MAX_X ≤ (wordAt payload 8).toNat)

/-- The message length a truncated chat request shows. -/
def shownLen (payload : List BYTE) : WORD :=
  if payload.length < 2 then 0
  else if payload.length < 8 then wordAt payload 0
  else if payload.length < 10 then 0
  else wordAt payload 8

theorem readWord_of_short {val : WORD} {bytes : List BYTE} (short : bytes.length < 2) :
    readBytes val bytes = (val, bytes) :=
  readBytes_of_short short

theorem readWord_of_le {val : WORD} {bytes : List BYTE} (enough : 2 ≤ bytes.length) :
    readBytes val bytes = (wordAt bytes 0, bytes.drop 2) :=
  readBytes_of_le enough

theorem readAccount_of_short {payload : List BYTE} (short : payload.length < 8) :
    (readBytes (0 : INT64) payload).2 = payload := by
  rw [readBytes_of_short short]

theorem readAccount_of_le {payload : List BYTE} (enough : 8 ≤ payload.length) :
    (readBytes (0 : INT64) payload).2 = payload.drop 8 := by
  rw [readBytes_of_le enough]

theorem wordAt_drop (bytes : List BYTE) (k i : Nat) :
    wordAt (bytes.drop k) i = wordAt bytes (k + i) := by
  rw [wordAt, wordAt, List.drop_drop]

theorem isValidSector_eq_false {x : WORD} (outside : dfSECTOR_MAX_X ≤ x.toNat) (y : WORD) :
    isValidSector x y = false := by
  rw [isValidSector, decide_eq_false (Nat.not_lt.mpr outside), Bool.false_and]

/-- Coordinates whose second half is left to chance are never all refused. -/
theorem forall_isValidSector_iff (x : WORD) :
    (∀ env : Env, isValidSector x env.y = false) ↔ dfSECTOR_MAX_X ≤ x.toNat := by
  constructor
  · intro refused
    have zero := refused ⟨0, 0, 0, 0, fun _ => 0⟩
    rw [isValidSector, Bool.and_eq_false_iff] at zero
    rcases zero with outside | inside
    · exact Nat.not_lt.mp (of_decide_eq_false outside)
    · cases inside
  · intro outside env
    exact isValidSector_eq_false outside env.y

/-- The coordinates a truncated sector move is carried out with, by length. -/
theorem forall_moveWords_iff {payload : List BYTE} (short : payload.length < 12) :
    (∀ env : Env, isValidSector (moveWords env payload).1 (moveWords env payload).2 = false) ↔
      MoveRefused payload := by
  have garbage : ¬ ∀ env : Env, isValidSector env.x env.y = false := by
    intro refused
    have zero := refused ⟨0, 0, 0, 0, fun _ => 0⟩
    revert zero
    decide
  unfold moveWords
  rcases Nat.lt_or_ge payload.length 8 with noAccount | account
  · simp only [readAccount_of_short noAccount]
    rcases Nat.lt_or_ge payload.length 2 with none | word
    · simp only [readWord_of_short none]
      refine iff_of_false garbage ?_
      rintro (⟨_, _⟩ | ⟨_, _⟩ | ⟨_, _⟩) <;> omega
    · simp only [readWord_of_le word]
      rcases Nat.lt_or_ge payload.length 4 with one | two
      · have last : (payload.drop 2).length < 2 := by
          rw [List.length_drop]
          omega
        simp only [readWord_of_short last]
        rw [forall_isValidSector_iff]
        constructor
        · intro outside
          exact Or.inl ⟨by omega, outside⟩
        · rintro (⟨_, outside⟩ | ⟨_, _⟩ | ⟨_, _⟩)
          · exact outside
          · omega
          · omega
      · have last : 2 ≤ (payload.drop 2).length := by
          rw [List.length_drop]
          omega
        simp only [readWord_of_le last, wordAt_drop]
        constructor
        · intro refused
          exact Or.inr (Or.inl ⟨⟨two, noAccount⟩, refused ⟨0, 0, 0, 0, fun _ => 0⟩⟩)
        · rintro (⟨_, _⟩ | ⟨_, outside⟩ | ⟨_, _⟩)
          · omega
          · exact fun _ => outside
          · omega
  · have left : (payload.drop 8).length = payload.length - 8 := List.length_drop
    simp only [readAccount_of_le account]
    rcases Nat.lt_or_ge payload.length 10 with none | word
    · have missing : (payload.drop 8).length < 2 := by omega
      simp only [readWord_of_short missing]
      refine iff_of_false garbage ?_
      rintro (⟨_, _⟩ | ⟨_, _⟩ | ⟨_, _⟩) <;> omega
    · have last : ((payload.drop 8).drop 2).length < 2 := by
        rw [List.length_drop]
        omega
      have word' : 2 ≤ (payload.drop 8).length := by omega
      simp only [readWord_of_le word', readWord_of_short last,
        wordAt_drop]
      rw [forall_isValidSector_iff]
      constructor
      · intro outside
        exact Or.inr (Or.inr ⟨by omega, outside⟩)
      · rintro (⟨_, _⟩ | ⟨_, _⟩ | ⟨_, outside⟩)
        · omega
        · omega
        · exact outside

theorem msgLenWord_eq (payload : List BYTE) : msgLenWord payload = shownLen payload := by
  unfold msgLenWord shownLen
  rcases Nat.lt_or_ge payload.length 8 with noAccount | account
  · rw [readAccount_of_short noAccount]
    rcases Nat.lt_or_ge payload.length 2 with none | word
    · rw [readWord_of_short none, if_pos none]
    · rw [readWord_of_le word, if_neg (by omega), if_pos noAccount]
  · have left : (payload.drop 8).length = payload.length - 8 := List.length_drop
    rw [readAccount_of_le account, if_neg (by omega), if_neg (by omega)]
    rcases Nat.lt_or_ge payload.length 10 with none | word
    · rw [readWord_of_short (by omega), if_pos none]
    · rw [readWord_of_le (by omega), if_neg (by omega), wordAt_drop]

/-- What is left for the message of a truncated chat request is either too
little, and then not read, or less than eight bytes. -/
theorem msgRest_short {payload : List BYTE}
    (short : payload.length < layoutSize en_PACKET_CS_CHAT_REQ_MESSAGE payload) :
    (msgRest payload).length < (msgLenWord payload).toNat ∨ (msgRest payload).length < 8 ∨
      msgLenWord payload = 0 := by
  have size : layoutSize en_PACKET_CS_CHAT_REQ_MESSAGE payload =
      if payload.length < 8 + 2 then 8 + 2 else 8 + 2 + (wordAt payload 8).toNat := rfl
  rw [size] at short
  rw [msgLenWord_eq]
  unfold msgRest shownLen
  rcases Nat.lt_or_ge payload.length 8 with noAccount | account
  · rw [readAccount_of_short noAccount]
    refine Or.inr (Or.inl ?_)
    rcases Nat.lt_or_ge payload.length 2 with none | word
    · rw [readWord_of_short none]
      exact noAccount
    · rw [readWord_of_le word, List.length_drop]
      omega
  · have left : (payload.drop 8).length = payload.length - 8 := List.length_drop
    rw [readAccount_of_le account, if_neg (by omega), if_neg (by omega)]
    rcases Nat.lt_or_ge payload.length 10 with none | word
    · rw [if_pos none]
      exact Or.inr (Or.inr rfl)
    · rw [if_neg (by omega)] at short
      rw [readWord_of_le (by omega), if_neg (by omega), List.length_drop]
      exact Or.inl (by omega)

/-! ## Rejection -/

/-- Where a login request is turned down. -/
def LoginRefused (p : Player) (sessionID : UINT64) : Prop :=
  p.sessionID ≠ sessionID ∨ p.accountNo ≠ 0 ∨ p.isLogined = true

/-- Where a truncated chat request is turned down: the length it shows is zero,
or the answer can be built and the player then stands in no sector. -/
def ChatRefused (p : Player) (payload : List BYTE) : Prop :=
  p.isLogined = false ∨ shownLen payload = 0 ∨
    ((shownLen payload).toNat ≤ 415 ∧ isValidSector p.sectorX p.sectorY = false)

/-- Where a truncated request of the player is turned down. -/
def Refused (p : Player) (sessionID : UINT64) (message : List BYTE) : Prop :=
  (wordAt message 0 = en_PACKET_CS_CHAT_REQ_LOGIN ∧ LoginRefused p sessionID) ∨
    (wordAt message 0 = en_PACKET_CS_CHAT_REQ_SECTOR_MOVE ∧ MoveRefused (message.drop 2)) ∨
    (wordAt message 0 = en_PACKET_CS_CHAT_REQ_MESSAGE ∧ ChatRefused p (message.drop 2))

namespace ChatServer

variable {s : ChatServer} {player : PlayerPtr} {sessionID : UINT64} {packet : CPacket}

/-- `RecvProc` turns the request down and leaves the content of the server as
it was, whatever the locals of the handlers hold. -/
def Rejects (s : ChatServer) (sessionID : UINT64) (packet : CPacket) : Prop :=
  ∀ env, ∃ fuel s', s.recvProc env fuel sessionID packet = .ok (false, s') ∧ s.SameContent s'

theorem rejects_of_unattended (h : ∀ player, ¬ s.Attended sessionID player) :
    s.Rejects sessionID packet := by
  intro env
  obtain ⟨absent, same⟩ := acquirePlayer_of_unattended h
  have acquired : s.acquirePlayer sessionID = (none, (s.acquirePlayer sessionID).2) :=
    Prod.ext absent rfl
  refine ⟨0, (s.acquirePlayer sessionID).2, ?_, same⟩
  unfold recvProc
  rw [acquired]

/-- A message too long for the packet is not read, and one that is read fits. -/
theorem getMsg_ok (msg : Memory BYTE) {q : CPacket} {n : Nat}
    (few : q.data.length < n ∨ q.data.length ≤ msgSize) :
    ∃ msg', getMsg msg (q.getData n).1 = .ok msg' := by
  rw [CPacket.length_data] at few
  rcases Nat.lt_or_ge q.iUsingSize n with short | enough
  · rw [q.getData_of_short short]
    exact ⟨msg, rfl⟩
  · have fits : (q.data.take n).length ≤ msgSize := by
      rw [List.length_take, CPacket.length_data]
      omega
    rw [q.getData_of_le enough]
    exact ⟨_, if_pos fits⟩

/-- What `Req_Chat` does with a truncated request that shows a length. -/
theorem reqChat_shown (s : ChatServer) (env : Env) (fuel : Nat)
    (logined : (s.player player).isLogined = true)
    (short : packet.data.length < layoutSize en_PACKET_CS_CHAT_REQ_MESSAGE packet.data)
    (shown : shownLen packet.data ≠ 0) :
    ∃ msg, s.reqChat env fuel player packet = do
      let res ← resChat env fuel (s.player player) msg (shownLen packet.data)
      if isValidSector (s.player player).sectorX (s.player player).sectorY = false then
        return (false, s)
      else
        return (true, (s.targets (s.player player).sectorX (s.player player).sectorY).foldl
          (fun s sid => s.sendPacket sid res) s) := by
  obtain ⟨q, rest, run⟩ := reqChat_eq s env fuel packet logined
  rw [msgLenWord_eq] at run
  have few : q.data.length < (shownLen packet.data).toNat ∨ q.data.length ≤ msgSize := by
    rw [rest, ← msgLenWord_eq]
    rcases msgRest_short short with more | less | none
    · exact Or.inl more
    · refine Or.inr ?_
      unfold msgSize
      omega
    · exact absurd none (msgLenWord_eq packet.data ▸ shown)
  obtain ⟨msg, read⟩ := getMsg_ok env.msg few
  refine ⟨msg, ?_⟩
  rw [run, if_neg shown, read]
  rfl

theorem reqChat_of_refused (s : ChatServer) (env : Env) (fuel : Nat)
    (short : packet.data.length < layoutSize en_PACKET_CS_CHAT_REQ_MESSAGE packet.data)
    (refused : ChatRefused (s.player player) packet.data) :
    s.reqChat env fuel player packet = .ok (false, s) := by
  cases logined : (s.player player).isLogined with
  | false => exact if_pos logined
  | true =>
      rcases eq_or_ne (shownLen packet.data) 0 with none | shown
      · obtain ⟨q, -, run⟩ := reqChat_eq s env fuel packet logined
        rw [run, msgLenWord_eq, if_pos none]
      · obtain ⟨msg, run⟩ := reqChat_shown s env fuel logined short shown
        rcases refused with out | none | ⟨fits, nowhere⟩
        · rw [logined] at out
          cases out
        · exact absurd none shown
        · obtain ⟨res, made, -⟩ := resChat_ok env fuel (s.player player) msg _ fits
          rw [run, made, nowhere]
          rfl

theorem reqChat_of_not_refused (s : ChatServer) (env : Env) (fuel : Nat)
    (short : packet.data.length < layoutSize en_PACKET_CS_CHAT_REQ_MESSAGE packet.data)
    (goes : ¬ ChatRefused (s.player player) packet.data) (s' : ChatServer) :
    s.reqChat env fuel player packet ≠ .ok (false, s') := by
  have logined : (s.player player).isLogined = true :=
    eq_true_of_ne_false fun out => goes (Or.inl out)
  have shown : shownLen packet.data ≠ 0 := fun none => goes (Or.inr (Or.inl none))
  obtain ⟨msg, run⟩ := reqChat_shown s env fuel logined short shown
  intro rejected
  rw [run] at rejected
  rcases Nat.lt_or_ge 415 (shownLen packet.data).toNat with long | fits
  · obtain ⟨fault, stuck⟩ := resChat_error env fuel (s.player player) msg _ long
    rw [stuck] at rejected
    cases rejected
  · obtain ⟨res, made, -⟩ := resChat_ok env fuel (s.player player) msg _ fits
    have somewhere : ¬ isValidSector (s.player player).sectorX (s.player player).sectorY = false :=
      fun nowhere => goes (Or.inr (Or.inr ⟨fits, nowhere⟩))
    rw [made] at rejected
    dsimp only [bind, Except.bind] at rejected
    rw [if_neg somewhere] at rejected
    cases rejected

/-- Taking and dropping the reference around a handler does not matter. -/
theorem rejects_iff_dispatch (h : s.Attended sessionID player) :
    s.Rejects sessionID packet ↔ ∀ env, ∃ fuel s',
      (s.begun env player).dispatch env fuel sessionID player (packet.readValue (0 : WORD)).1
        (packet.readValue (0 : WORD)).2 = .ok (false, s') ∧ s.SameContent s' := by
  constructor
  · intro rejects env
    obtain ⟨fuel, s', run, same⟩ := rejects env
    rw [recvProc_of_attended h] at run
    refine ⟨fuel, ?_⟩
    cases handled : (s.begun env player).dispatch env fuel sessionID player
        (packet.readValue (0 : WORD)).1 (packet.readValue (0 : WORD)).2 with
    | error fault =>
        rw [handled] at run
        cases run
    | ok result =>
        obtain ⟨ok, s''⟩ := result
        rw [handled] at run
        cases run
        exact ⟨s'', rfl, same.trans (sameContent_releasePlayer s'' player).symm⟩
  · intro handled env
    obtain ⟨fuel, s', run, same⟩ := handled env
    refine ⟨fuel, s'.releasePlayer player, ?_, same.trans (sameContent_releasePlayer s' player)⟩
    rw [recvProc_of_attended h, run]
    rfl

section Types

variable (h : s.Attended sessionID player)
include h

theorem rejects_login_iff
    (login : (packet.readValue (0 : WORD)).1 = en_PACKET_CS_CHAT_REQ_LOGIN) :
    s.Rejects sessionID packet ↔ LoginRefused (s.player player) sessionID := by
  have refused : ∀ env, ((s.begun env player).reqLoginRedis sessionID player
      (packet.readValue (0 : WORD)).2).1 = false ↔ LoginRefused (s.player player) sessionID := by
    intro env
    have same := sameContent_begun s env player
    have staying := (same.field Player.closing (fun _ => rfl) player).trans h.staying
    rw [reqLoginRedis_fst _ _ staying, same.field Player.sessionID (fun _ => rfl) player,
      same.field Player.accountNo (fun _ => rfl) player,
      same.field Player.isLogined (fun _ => rfl) player]
    rfl
  rw [rejects_iff_dispatch h, login]
  constructor
  · intro handled
    obtain ⟨fuel, s', run, -⟩ := handled ⟨0, 0, 0, 0, fun _ => 0⟩
    refine (refused ⟨0, 0, 0, 0, fun _ => 0⟩).mp ?_
    rw [show (s.begun _ player).reqLoginRedis sessionID player _ = (false, s') from
      Except.ok.inj run]
  · intro turned env
    have down := (refused env).mpr turned
    refine ⟨0, s.begun env player, ?_, sameContent_begun s env player⟩
    exact congrArg Except.ok (Prod.ext down (reqLoginRedis_of_false down))

theorem rejects_move_iff
    (move : (packet.readValue (0 : WORD)).1 = en_PACKET_CS_CHAT_REQ_SECTOR_MOVE)
    (short : (packet.readValue (0 : WORD)).2.data.length < 12) :
    s.Rejects sessionID packet ↔ MoveRefused (packet.readValue (0 : WORD)).2.data := by
  rw [rejects_iff_dispatch h, move, ← forall_moveWords_iff short]
  constructor
  · intro handled env
    by_contra inside
    obtain ⟨fuel, s', run, -⟩ := handled env
    obtain ⟨res, accepted⟩ := reqSectorMove_of_valid player sessionID (s.begun env player) fuel
      (eq_true_of_ne_false inside)
    cases accepted.symm.trans run
  · intro outside env
    exact ⟨0, s.begun env player, reqSectorMove_of_invalid _ 0 (outside env),
      sameContent_begun s env player⟩

theorem rejects_chat_iff
    (chat : (packet.readValue (0 : WORD)).1 = en_PACKET_CS_CHAT_REQ_MESSAGE)
    (short : (packet.readValue (0 : WORD)).2.data.length <
      layoutSize en_PACKET_CS_CHAT_REQ_MESSAGE (packet.readValue (0 : WORD)).2.data) :
    s.Rejects sessionID packet ↔
      ChatRefused (s.player player) (packet.readValue (0 : WORD)).2.data := by
  have same : ∀ env, ChatRefused ((s.begun env player).player player)
      (packet.readValue (0 : WORD)).2.data =
        ChatRefused (s.player player) (packet.readValue (0 : WORD)).2.data := fun env =>
    (sameContent_begun s env player).field (fun p => ChatRefused p _) (fun _ => rfl) player
  rw [rejects_iff_dispatch h, chat]
  constructor
  · intro handled
    by_contra goes
    obtain ⟨fuel, s', run, -⟩ := handled ⟨0, 0, 0, 0, fun _ => 0⟩
    exact reqChat_of_not_refused (s.begun _ player) _ fuel short (same _ ▸ goes) s' run
  · intro refused env
    exact ⟨0, s.begun env player,
      reqChat_of_refused (s.begun env player) env 0 short (same env ▸ refused),
      sameContent_begun s env player⟩

end Types

/-- **Truncated requests.** Among login, sector move and chat requests that
end before their layout does, exactly these are rejected without effect
whatever the locals of the handlers hold: those of a session without a player
to attend to, and those its player is `Refused`. -/
theorem malformed_rejected_iff (s : ChatServer) (sessionID : UINT64) (packet : CPacket)
    (short : ShortRequest packet.data) :
    s.Rejects sessionID packet ↔
      ∀ player, s.Attended sessionID player →
        Refused (s.player player) sessionID packet.data := by
  obtain ⟨word, few⟩ := short
  obtain ⟨type, rest⟩ := packet.readValue_eq (0 : WORD)
  rw [readWord_of_le word] at type rest
  by_cases attended : ∃ player, s.Attended sessionID player
  · obtain ⟨player, here⟩ := attended
    have only : ∀ other, s.Attended sessionID other → other = player := by
      intro other there
      exact Option.some.inj (there.joined.symm.trans here.joined)
    have one : (∀ player, s.Attended sessionID player →
        Refused (s.player player) sessionID packet.data) ↔
          Refused (s.player player) sessionID packet.data := by
      constructor
      · exact fun all => all player here
      · intro this other there
        rw [only other there]
        exact this
    rw [one]
    rcases ShortRequest.type ⟨word, few⟩ with login | move | chat
    · rw [rejects_login_iff here (type.trans login), Refused, login]
      constructor
      · exact fun turned => Or.inl ⟨rfl, turned⟩
      · rintro (⟨-, turned⟩ | ⟨wrong, -⟩ | ⟨wrong, -⟩)
        · exact turned
        · cases wrong
        · cases wrong
    · rw [move] at few
      rw [rejects_move_iff here (type.trans move) (by rw [rest]; exact few), Refused, move, rest]
      constructor
      · exact fun turned => Or.inr (Or.inl ⟨rfl, turned⟩)
      · rintro (⟨wrong, -⟩ | ⟨-, turned⟩ | ⟨wrong, -⟩)
        · cases wrong
        · exact turned
        · cases wrong
    · rw [chat] at few
      rw [rejects_chat_iff here (type.trans chat) (by rw [rest]; exact few), Refused, chat, rest]
      constructor
      · exact fun turned => Or.inr (Or.inr ⟨rfl, turned⟩)
      · rintro (⟨wrong, -⟩ | ⟨wrong, -⟩ | ⟨-, turned⟩)
        · cases wrong
        · cases wrong
        · exact turned
  · have unattended : ∀ player, ¬ s.Attended sessionID player :=
      fun player here => attended ⟨player, here⟩
    exact iff_of_true (rejects_of_unattended unattended)
      fun player here => absurd here (unattended player)

/-- A server that one session has just joined. -/
def lobby : ChatServer := (start.joinProc 0 0x10000).2

theorem attended_lobby : lobby.Attended 0x10000 0 := ⟨rfl, rfl⟩

/-- A sector move of which only the type arrives is carried out with whatever
coordinates the stack holds. -/
theorem malformed_move_accepted :
    ¬ ∀ message : List BYTE, message.length ≤ 507 → ShortRequest message →
      lobby.Rejects 0x10000 (CPacket.received 0 message) := by
  intro all
  have data := CPacket.data_received 0 [3, 0] (by decide)
  obtain ⟨type, rest⟩ := (CPacket.received 0 [3, 0]).readValue_eq (0 : WORD)
  rw [data] at type rest
  have turned := (rejects_move_iff attended_lobby type (by rw [rest]; decide)).mp
    (all [3, 0] (by decide) (by decide))
  rw [rest] at turned
  rcases turned with ⟨wrong, -⟩ | ⟨wrong, -⟩ | ⟨wrong, -⟩ <;> revert wrong <;> decide

/-- A chat request of which only the type arrives, from a player that is not logged in,
is rejected. -/
theorem malformed_chat_rejected :
    ShortRequest (CPacket.received 0 [5, 0]).data ∧
      lobby.Rejects 0x10000 (CPacket.received 0 [5, 0]) := by
  have data := CPacket.data_received 0 [5, 0] (by decide)
  have short : ShortRequest (CPacket.received 0 [5, 0]).data := by
    rw [data]
    decide
  refine ⟨short, (malformed_rejected_iff lobby 0x10000 _ short).mpr ?_⟩
  intro player here
  have first : player = 0 := Option.some.inj (here.joined.symm.trans attended_lobby.joined)
  subst first
  rw [data]
  exact Or.inr (Or.inr ⟨by decide, Or.inl rfl⟩)

end ChatServer

end ChattingServer
