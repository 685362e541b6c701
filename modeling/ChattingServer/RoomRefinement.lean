import ChattingServer.Audience
import ChattingServer.Letters

/-!
# The server is a chat room

Whole handlers, one after another, on well-formed requests: they all return,
with the verdicts of `Room.step`, and every session has been sent exactly the
letters that are in its mail there (`room_refinement`).
-/

namespace ChattingServer

/-! ## What a state shows -/

/-- The member that a player is. -/
def Player.member (p : Player) : Member where
  heard := p.lastRecvTime
  card := if p.isLogined then some ⟨p.accountNo, text p.id, text p.nick⟩ else none
  sector := if isValidSector p.sectorX p.sectorY then some (p.sectorX, p.sectorY) else none

/-- A login that waits for the store. -/
structure Waits (job : UINT64 × CPacket) (entry : UINT64 × Card) : Prop where
  session : job.1 = entry.1
  login : ∃ id nick clientKey, Terminated id ∧ Terminated nick ∧ text id = entry.2.id ∧
    text nick = entry.2.nick ∧ job.2.data = loginBytes entry.2.account id nick ++ clientKey

namespace ChatServer

/-- What a session has been sent, oldest first. -/
def sentTo (s : ChatServer) (session : UINT64) : List CPacket :=
  (s.sent.filter fun entry => entry.1 = session).map Prod.snd

/-- The server shows the room. -/
structure Shows (s : ChatServer) (room : Room) : Prop where
  members : ∀ session, room.members session =
    (s.players session).map fun player => (s.player player).member
  fresh : ∀ {session player}, s.players session = some player →
    (s.player player).isLogined = false → (s.player player).accountNo = 0
  waiting : List.Forall₂ Waits s.redisQ room.waiting
  mail : ∀ session, List.Forall₂ CPacket.Carries (s.sentTo session) (room.mail session)

theorem shows_empty : Shows start Room.empty where
  members := fun _ => rfl
  fresh := nofun
  waiting := .nil
  mail := fun _ => .nil

variable {s s' : ChatServer} {room : Room} {session : UINT64} {player : PlayerPtr}

/-- What does not show of a change. -/
structure Unseen (s s' : ChatServer) : Prop where
  players : s'.players = s.players
  redisQ : s'.redisQ = s.redisQ
  sent : s'.sent = s.sent
  member : ∀ q, (s'.player q).member = (s.player q).member
  accountNo : ∀ q, (s'.player q).accountNo = (s.player q).accountNo

theorem Unseen.trans {t : ChatServer} (h : s.Unseen s') (h' : s'.Unseen t) : s.Unseen t where
  players := h'.players.trans h.players
  redisQ := h'.redisQ.trans h.redisQ
  sent := h'.sent.trans h.sent
  member := fun q => (h'.member q).trans (h.member q)
  accountNo := fun q => (h'.accountNo q).trans (h.accountNo q)

theorem unseen_updatePlayer (s : ChatServer) (player : PlayerPtr) {f : Player → Player}
    (member : ∀ p, (f p).member = p.member) (accountNo : ∀ p, (f p).accountNo = p.accountNo) :
    s.Unseen (s.updatePlayer player f) where
  players := rfl
  redisQ := rfl
  sent := rfl
  member := by
    intro q
    rcases eq_or_ne q player with rfl | different
    · rw [player_updatePlayer_self, member]
    · rw [player_updatePlayer_of_ne s different]
  accountNo := by
    intro q
    rcases eq_or_ne q player with rfl | different
    · rw [player_updatePlayer_self, accountNo]
    · rw [player_updatePlayer_of_ne s different]

theorem unseen_addRefPlayer (s : ChatServer) (player : PlayerPtr) :
    s.Unseen (s.addRefPlayer player) :=
  unseen_updatePlayer s player (fun _ => rfl) fun _ => rfl

theorem unseen_releasePlayer (s : ChatServer) (player : PlayerPtr) :
    s.Unseen (s.releasePlayer player) := by
  have same : s.Unseen (s.updatePlayer player fun p => { p with ref := p.ref - 1 }) :=
    unseen_updatePlayer s player (fun _ => rfl) fun _ => rfl
  unfold releasePlayer
  dsimp only
  split
  · exact ⟨same.players, same.redisQ, same.sent, same.member, same.accountNo⟩
  · exact same

theorem isLogined_of_member {p p' : Player} (same : p'.member = p.member) :
    p'.isLogined = p.isLogined := by
  have card := congrArg (fun m : Member => m.card.isSome) same
  unfold Player.member at card
  dsimp only at card
  cases first : p'.isLogined <;> cases second : p.isLogined <;> simp_all

/-- What is sent to a list of sessions, as one of them sees it. -/
theorem filter_targets {ids : List UINT64} (nodup : ids.Nodup) (res : CPacket) (id : UINT64) :
    ((ids.map (·, res)).filter fun entry => entry.1 = id).map Prod.snd =
      if id ∈ ids then [res] else [] := by
  induction ids with
  | nil => rfl
  | cons first rest ih =>
      obtain ⟨once, others⟩ := List.nodup_cons.mp nodup
      have tail := ih others
      rw [List.map_cons, List.filter_cons]
      rcases eq_or_ne first id with rfl | different
      · rw [if_neg once] at tail
        rw [if_pos (decide_eq_true rfl), List.map_cons, tail, if_pos List.mem_cons_self]
      · rw [if_neg (by simpa using different), tail]
        simp only [List.mem_cons, different.symm, false_or]

namespace Shows

variable (shows' : s.Shows room)
include shows'

/-- Who sees nothing is shown the same room. -/
theorem of_unseen (unseen : s.Unseen s') : s'.Shows room where
  members := by
    intro other
    rw [unseen.players, shows'.members other]
    exact Option.map_congr fun _ _ => (unseen.member _).symm
  fresh := by
    intro other q joined out
    rw [unseen.accountNo]
    refine shows'.fresh (unseen.players ▸ joined) ?_
    rw [← isLogined_of_member (unseen.member q)]
    exact out
  waiting := unseen.redisQ ▸ shows'.waiting
  mail := by
    intro other
    rw [sentTo, unseen.sent]
    exact shows'.mail other

/-- One player changes along with its member. -/
theorem updatePlayer (joined : s.players session = some player)
    (only : ∀ other, s.players other = some player → other = session) {f : Player → Player}
    {g : Member → Member} (same : (f (s.player player)).member = g (s.player player).member)
    (fresh : (f (s.player player)).isLogined = false → (f (s.player player)).accountNo = 0) :
    (s.updatePlayer player f).Shows (room.change session g) where
  members := by
    intro other
    rcases eq_or_ne other session with rfl | different
    · rw [Room.members_change_self, shows'.members, joined]
      show some (g (s.player player).member) = (s.players other).map _
      rw [joined, Option.map_some, player_updatePlayer_self, same]
    · rw [Room.members_change_of_ne room different, shows'.members]
      refine Option.map_congr ?_
      intro q mapped
      rw [player_updatePlayer_of_ne]
      rintro rfl
      exact different (only other mapped)
  fresh := by
    intro other q mapped out
    rcases eq_or_ne q player with rfl | different
    · rw [player_updatePlayer_self] at out ⊢
      exact fresh out
    · rw [player_updatePlayer_of_ne s different] at out ⊢
      exact shows'.fresh mapped out
  waiting := shows'.waiting
  mail := shows'.mail

/-- The sector sets do not show. -/
theorem sector (sector : Nat → Nat → List PlayerPtr) : Shows { s with sector := sector } room :=
  ⟨shows'.members, shows'.fresh, shows'.waiting, shows'.mail⟩

/-- Some sessions are sent a letter. -/
theorem tellAll {ids : List UINT64} (nodup : ids.Nodup) {res : CPacket} {letter : Letter}
    (carries : res.Carries letter) {mail : UINT64 → List Letter}
    (told : ∀ id, mail id = if id ∈ ids then room.mail id ++ [letter] else room.mail id) :
    Shows { s with sent := s.sent ++ ids.map (·, res) } { room with mail := mail } where
  members := shows'.members
  fresh := shows'.fresh
  waiting := shows'.waiting
  mail := by
    intro other
    have before := shows'.mail other
    rw [sentTo] at before
    rw [sentTo, List.filter_append, List.map_append, filter_targets nodup]
    dsimp only
    rw [told]
    split
    · exact List.rel_append before (.cons carries .nil)
    · rw [List.append_nil]
      exact before

/-- A session is sent a letter. -/
theorem sendPacket {res : CPacket} {letter : Letter} (carries : res.Carries letter) :
    (s.sendPacket session res).Shows (room.tell session letter) := by
  refine shows'.tellAll (List.nodup_singleton session) carries ?_
  intro other
  rcases eq_or_ne other session with rfl | different
  · rw [if_pos (List.mem_singleton_self other)]
    exact room.mail_tell_self other letter
  · rw [if_neg fun member => different (List.mem_singleton.mp member)]
    exact room.mail_tell_of_ne different letter

/-- A login begins to wait. -/
theorem enqueueRedis {packet : CPacket} {card : Card}
    (waits : Waits (session, packet) (session, card)) :
    (s.enqueueRedis session packet).Shows (room.await session card) := by
  have length := shows'.waiting.length_eq
  unfold ChatServer.enqueueRedis Room.await
  rw [length]
  split
  · refine ⟨shows'.members, shows'.fresh, ?_, shows'.mail⟩
    exact List.rel_append shows'.waiting (.cons waits .nil)
  · exact shows'

end Shows

/-! ## The handlers -/

theorem isValidSector_eq_onMap (x y : WORD) : isValidSector x y = onMap x y := by
  unfold isValidSector onMap
  rw [Bool.decide_and]

section Requests

variable (shows' : s.Shows room) {m : Member} (card : m.card = (s.player player).member.card)
  (sector : m.sector = (s.player player).member.sector)
include shows' card

theorem reqLoginRedis_shows (joined : s.players session = some player)
    (own : (s.player player).sessionID = session) (staying : (s.player player).closing = false)
    {packet : CPacket} {asked : Card} (waits : Waits (session, packet) (session, asked)) :
    ∃ s', s.reqLoginRedis session player packet =
        ((room.answer session m (.login asked)).1, s') ∧
      s'.Shows (room.answer session m (.login asked)).2 := by
  have taken : ((s.player player).accountNo ≠ 0 || (s.player player).isLogined) = true ↔
      m.card.isSome = true := by
    rw [card]
    unfold Player.member
    cases logined : (s.player player).isLogined with
    | true => simp
    | false => simp [shows'.fresh joined logined]
  unfold reqLoginRedis Room.answer
  dsimp only
  rw [staying, if_neg Bool.false_ne_true, if_neg (not_not.mpr own)]
  by_cases holds : m.card.isSome = true
  · rw [if_pos holds, if_pos (taken.mpr holds)]
    exact ⟨s, rfl, shows'⟩
  · rw [if_neg holds, if_neg (holds ∘ taken.mp)]
    exact ⟨_, rfl, shows'.enqueueRedis waits⟩

omit card in
theorem reqSectorMove_shows (joined : s.players session = some player)
    (only : ∀ other, s.players other = some player → other = session) {env : Env} (fuel : Nat)
    (heard : (s.player player).lastRecvTime = env.now) {packet : CPacket} {account : INT64}
    {x y : WORD} (data : packet.data = bytesOf account ++ (bytesOf x ++ bytesOf y)) :
    ∃ s', s.reqSectorMove env fuel session player packet =
        .ok ((room.answer session m (.move account x y)).1, s') ∧
      s'.Shows (room.answer session m (.move account x y)).2 := by
  obtain ⟨q, first, data⟩ := CPacket.readValue_of_data (k := 8) 0 account data
  obtain ⟨r, second, data⟩ := CPacket.readValue_of_data (k := 2) env.x x data
  rw [← List.append_nil (bytesOf y)] at data
  obtain ⟨t, third, -⟩ := CPacket.readValue_of_data (k := 2) env.y y data
  obtain ⟨res, made, carries⟩ := resSectorMove_carries env fuel account x y
  unfold reqSectorMove Room.answer
  rw [first]
  dsimp only
  rw [second]
  dsimp only
  rw [third]
  dsimp only
  rw [isValidSector_eq_onMap]
  cases inside : onMap x y with
  | false => exact ⟨s, rfl, shows'⟩
  | true =>
      rw [if_neg Bool.noConfusion, if_pos rfl, made]
      refine ⟨(s.moved player x y env.now).sendPacket session res, rfl, ?_⟩
      obtain ⟨sets, moved⟩ := s.moved_eq player x y env.now
      rw [moved]
      refine ((shows'.updatePlayer joined only ?_ ?_).sector sets).sendPacket carries
      · unfold Player.member
        dsimp only
        rw [isValidSector_eq_onMap, inside, heard]
        rfl
      · exact shows'.fresh joined

end Requests

/-- Who hears a sector, in the server and in the room. -/
theorem Shows.hears_iff (shows' : s.Shows room) (cx cy : WORD) (id : UINT64) :
    s.seating.Hears cx cy id ↔ (room.members id).any (·.hears cx cy) = true := by
  rw [shows'.members]
  cases joined : s.players id with
  | none =>
      refine iff_of_false ?_ Bool.false_ne_true
      intro heard
      obtain ⟨x, y, seated, -⟩ := heard
      rw [seating_of_none joined] at seated
      cases seated
  | some q =>
      unfold Roster.Hears
      rw [seating_of_some joined]
      simp only [Option.map_some, Option.any_some, Member.hears, Player.member, Player.seat,
        Option.some.injEq, Seat.mk.injEq, Bool.and_eq_true]
      constructor
      · intro heard
        obtain ⟨x, y, ⟨logined, placed⟩, nearX, nearY⟩ := heard
        rw [logined, placed]
        unfold Near at nearX nearY
        refine ⟨rfl, ?_⟩
        simp only [Option.any_some, adjacent, Bool.and_eq_true, decide_eq_true_eq]
        omega
      · intro heard
        obtain ⟨logined, near⟩ := heard
        split at near
        · rename_i inside
          refine ⟨_, _, ⟨?_, if_pos inside⟩, ?_⟩
          · by_contra out
            rw [if_neg out] at logined
            cases logined
          · simp only [Option.any_some, adjacent, Bool.and_eq_true, decide_eq_true_eq] at near
            unfold Near
            omega
        · cases near

/-- An empty message is turned down, and one from somewhere off the map. -/
theorem reqChat_turned_down (s : ChatServer) (env : Env) (fuel : Nat)
    (logined : (s.player player).isLogined = true) {packet : CPacket} {account : INT64}
    {msg : List BYTE} (short : msg.length ≤ 415) (data : packet.data = chatRequest account msg)
    (off : msg = [] ∨ isValidSector (s.player player).sectorX (s.player player).sectorY = false) :
    s.reqChat env fuel player packet = .ok (false, s) := by
  obtain ⟨q, rest, run⟩ := reqChat_eq s env fuel packet logined
  rw [data, msgRest_chatRequest] at rest
  rw [data, msgLenWord_chatRequest] at run
  have len : (BitVec.ofNat 16 msg.length : WORD).toNat = msg.length := by
    rw [BitVec.toNat_ofNat]
    exact Nat.mod_eq_of_lt (by omega)
  rcases eq_or_ne msg [] with rfl | said
  · exact run.trans (if_pos rfl)
  · have outside := off.resolve_left said
    have few : q.data.length ≤ msgSize := by
      rw [rest]
      exact short.trans (by decide)
    obtain ⟨scratch, copied⟩ := getMsg_ok env.msg (n := msg.length) (Or.inr few)
    obtain ⟨res, built, -⟩ := resChat_ok env fuel (s.player player) scratch
      (BitVec.ofNat 16 msg.length) (by rw [len]; exact short)
    have nonzero : (BitVec.ofNat 16 msg.length : WORD) ≠ 0 := by
      intro zero
      rw [zero] at len
      exact said (List.length_eq_zero_iff.mp len.symm)
    rw [run, if_neg nonzero, len, copied]
    dsimp only [bind, Except.bind]
    rw [built]
    exact if_pos outside

section Chat

variable (orderly : s.Orderly) (shows' : s.Shows room) {m : Member}
  (card : m.card = (s.player player).member.card)
  (sector : m.sector = (s.player player).member.sector)
include orderly shows' card sector

theorem reqChat_shows (env : Env) (fuel : Nat) {packet : CPacket} {account : INT64}
    {msg : List BYTE} (short : msg.length ≤ 415) (data : packet.data = chatRequest account msg) :
    ∃ s', s.reqChat env fuel player packet =
        .ok ((room.answer session m (.say account msg)).1, s') ∧
      s'.Shows (room.answer session m (.say account msg)).2 := by
  unfold Room.answer
  rw [card, sector]
  unfold Player.member
  dsimp only
  cases logined : (s.player player).isLogined with
  | false => exact ⟨s, if_pos logined, shows'⟩
  | true =>
      rw [if_pos rfl]
      have len : (BitVec.ofNat 16 msg.length : WORD).toNat = msg.length := by
        rw [BitVec.toNat_ofNat]
        exact Nat.mod_eq_of_lt (by omega)
      cases inside : isValidSector (s.player player).sectorX (s.player player).sectorY with
      | false =>
          exact ⟨s, reqChat_turned_down s env fuel logined short data (Or.inr inside), shows'⟩
      | true =>
          rw [if_pos rfl]
          dsimp only
          rcases eq_or_ne msg [] with empty | said
          · rw [if_pos empty]
            exact ⟨s, reqChat_turned_down s env fuel logined short data (Or.inl empty), shows'⟩
          · rw [if_neg said]
            obtain ⟨scratch, read, made⟩ := reqChat_wellFormed s env fuel logined inside
              (List.length_pos_of_ne_nil said) (by omega) data
            obtain ⟨res, built, decodes⟩ := resChat_ok env fuel (s.player player) scratch
              (BitVec.ofNat 16 msg.length) (by rw [len]; exact short)
            rw [len, read] at decodes
            rw [built] at made
            refine ⟨_, made, ?_⟩
            rw [foldl_sendPacket]
            apply shows'.tellAll (nodup_targets orderly inside) (carries_of_chatResponse decodes)
            intro id
            simp only [mem_targets orderly inside, shows'.hears_iff]

/-- The `switch` of `RecvProc`, on a request of any kind. -/
theorem dispatch_shows (joined : s.players session = some player)
    (only : ∀ other, s.players other = some player → other = session)
    (own : (s.player player).sessionID = session) (staying : (s.player player).closing = false)
    {env : Env} (fuel : Nat) (heard : (s.player player).lastRecvTime = env.now) {packet : CPacket}
    {ask : Ask} (encodes : ask.Encodes packet.data) :
    ∃ s', s.dispatch env fuel session player (packet.readValue (0 : WORD)).1
        (packet.readValue (0 : WORD)).2 = .ok ((room.answer session m ask).1, s') ∧
      s'.Shows (room.answer session m ask).2 := by
  have known {type : WORD} {body : List BYTE} (data : packet.data = bytesOf type ++ body) :
      (packet.readValue (0 : WORD)).1 = type ∧ (packet.readValue (0 : WORD)).2.data = body := by
    obtain ⟨q, read, rest⟩ := CPacket.readValue_of_data (k := 2) 0 type data
    rw [read]
    exact ⟨rfl, rest⟩
  cases ask with
  | login asked =>
      obtain ⟨body, data, id, nick, clientKey, endsId, endsNick, sameId, sameNick, -, rfl⟩ :=
        encodes
      obtain ⟨type, rest⟩ := known data
      obtain ⟨s', done, after⟩ := reqLoginRedis_shows shows' card joined own staying
        ⟨rfl, id, nick, clientKey, endsId, endsNick, sameId, sameNick, rest⟩
      rw [type, dispatch, if_pos rfl, done]
      exact ⟨s', rfl, after⟩
  | move account x y =>
      obtain ⟨body, data, rfl⟩ := encodes
      obtain ⟨type, rest⟩ := known data
      rw [type, dispatch, if_neg (by decide), if_pos rfl]
      exact reqSectorMove_shows shows' joined only fuel heard rest
  | say account msg =>
      obtain ⟨body, data, short, rfl⟩ := encodes
      obtain ⟨type, rest⟩ := known data
      rw [type, dispatch, if_neg (by decide), if_neg (by decide), if_pos rfl]
      exact reqChat_shows orderly shows' card sector env fuel short rest
  | heartbeat =>
      obtain ⟨body, data, -⟩ := encodes
      obtain ⟨type, rest⟩ := known data
      rw [type, dispatch, if_neg (by decide), if_neg (by decide), if_neg (by decide), if_pos rfl]
      exact ⟨s, rfl, shows'⟩
  | other =>
      have unlisted : (packet.readValue (0 : WORD)).1 ∉ requestTypes := by
        rcases Nat.lt_or_ge packet.data.length 2 with few | enough
        · rw [(packet.readValue_eq (0 : WORD)).1, readWord_of_short few]
          show (0 : WORD) ∉ requestTypes
          decide
        · rw [(packet.readValue_eq (0 : WORD)).1, readWord_of_le enough]
          exact encodes.resolve_left (Nat.not_lt.mpr enough)
      simp only [requestTypes, List.mem_cons, List.not_mem_nil, or_false, not_or] at unlisted
      obtain ⟨login, move, say, heartbeat⟩ := unlisted
      rw [dispatch, if_neg login, if_neg move, if_neg say, if_neg heartbeat]
      exact ⟨s, rfl, shows'⟩

end Chat

/-- The server in which a handler starts. -/
theorem orderly_begun (orderly : s.Orderly) (joined : s.players session = some player)
    (env : Env) : (s.begun env player).Orderly := by
  have held := orderly.held joined
  have taken : (s.addRefPlayer player).Orderly :=
    orderly.updatePlayer ⟨rfl, rfl, by dsimp only; omega⟩ rfl rfl
  have still : 1 ≤ ((s.addRefPlayer player).player player).ref := taken.held joined
  exact taken.updatePlayer ⟨rfl, rfl, still⟩ rfl rfl

theorem player_begun (s : ChatServer) (env : Env) (player : PlayerPtr) :
    (s.begun env player).player player =
      { s.player player with ref := (s.player player).ref + 1, lastRecvTime := env.now } := by
  unfold begun addRefPlayer
  rw [player_updatePlayer_self, player_updatePlayer_self]

theorem shows_begun (orderly : s.Orderly) (shows' : s.Shows room)
    (joined : s.players session = some player) (env : Env) :
    (s.begun env player).Shows (room.change session fun m => { m with heard := env.now }) := by
  have taken := shows'.of_unseen (unseen_addRefPlayer s player)
  refine taken.updatePlayer joined (fun other mapped => orderly.unique mapped joined) rfl ?_
  exact taken.fresh joined

/-- A request is answered as in the room. -/
theorem recvProc_shows (orderly : s.Orderly) (shows' : s.Shows room) (env : Env) (fuel : Nat)
    {packet : CPacket} {ask : Ask} (encodes : ask.Encodes packet.data) :
    ∃ s', s.recvProc env fuel session packet = .ok ((room.step (.ask env.now session ask)).1, s') ∧
      s'.Shows (room.step (.ask env.now session ask)).2 := by
  unfold Room.step
  dsimp only
  cases joined : s.players session with
  | none =>
      rw [shows'.members, joined, recvProc, acquirePlayer_of_none joined]
      exact ⟨s, rfl, shows'⟩
  | some player =>
      rw [shows'.members, joined, recvProc_of_attended (attended orderly joined)]
      have begun := orderly_begun orderly joined env
      have shown := shows_begun orderly shows' joined env
      have self := player_begun s env player
      obtain ⟨s', done, after⟩ := dispatch_shows begun shown (m := (s.player player).member)
        (by rw [self]; rfl) (by rw [self]; rfl) joined
        (fun other mapped => orderly.unique mapped joined) (begun.session joined)
        (begun.staying joined) fuel (by rw [self]) encodes
      rw [done]
      exact ⟨s'.releasePlayer player, rfl, after.of_unseen (unseen_releasePlayer s' player)⟩

/-- A `CompleteLogin` that finds its player, read to the copies of the names. -/
theorem completeLogin_of_joined (orderly : s.Orderly) (joined : s.players session = some player)
    (env : LoginEnv) (fuel : Nat) (ok : Bool) {packet res : CPacket} {account : INT64}
    {id nick : Vector WCHAR 20} (data : packet.data = loginBytes account id nick)
    (made : resLogin env.randKey fuel account (if ok then 1 else 0) = .ok res) :
    s.completeLogin env fuel session packet ok =
      if ok then
        (wcscpy_s ((s.addRefPlayer player).player player).id id).bind fun id =>
          (wcscpy_s ((s.addRefPlayer player).player player).nick nick).bind fun nick =>
            some (true, (s.addRefPlayer player).stores session player account id nick res)
      else
        some (true, ((s.addRefPlayer player).sendPacket session res).releasePlayer player) := by
  have self := player_updatePlayer_self s player fun p => { p with ref := p.ref + 1 }
  obtain ⟨q, r, t, no, first, second⟩ := CPacket.readLogin (data.trans (List.append_nil _).symm)
  unfold completeLogin
  rw [acquirePlayer_of_attended (attended orderly joined)]
  dsimp only
  rw [if_neg, if_neg]
  · rw [no]
    dsimp only
    rw [first]
    dsimp only
    rw [second]
    dsimp only [getName]
    rw [nameOf_nameBytes, nameOf_nameBytes]
    cases ok with
    | false =>
        rw [if_neg Bool.false_ne_true] at made ⊢
        rw [made]
        rfl
    | true =>
        rw [if_pos rfl] at made ⊢
        rw [made]
        rfl
  · rw [addRefPlayer, self, orderly.staying joined]
    exact Bool.false_ne_true
  · rw [addRefPlayer, self]
    exact not_not.mpr (orderly.session joined)

/-- What the store has found out of a login reaches the session as in the room. -/
theorem completeLogin_shows (orderly : s.Orderly) (shows' : s.Shows room) (env : LoginEnv)
    (fuel : Nat) (ok : Bool) {packet : CPacket} {card : Card} {id nick : Vector WCHAR 20}
    (endsId : Terminated id) (endsNick : Terminated nick) (sameId : text id = card.id)
    (sameNick : text nick = card.nick) (data : packet.data = loginBytes card.account id nick) :
    ∃ s', s.completeLogin env fuel session packet ok = some (true, s') ∧
      s'.Shows (room.settle session card ok) := by
  unfold Room.settle
  cases joined : s.players session with
  | none =>
      rw [shows'.members, joined, completeLogin, acquirePlayer_of_none joined]
      exact ⟨s, rfl, shows'⟩
  | some player =>
      obtain ⟨res, made, carries⟩ := resLogin_carries env.randKey fuel card.account ok
      have taken := shows'.of_unseen (unseen_addRefPlayer s player)
      rw [shows'.members, joined, completeLogin_of_joined orderly joined env fuel ok data made]
      dsimp only [Option.map_some]
      cases ok with
      | false =>
          refine ⟨_, if_neg Bool.false_ne_true, ?_⟩
          exact (taken.sendPacket carries).of_unseen (unseen_releasePlayer _ player)
      | true =>
          obtain ⟨id', copy, copied⟩ : ∃ copied,
              wcscpy_s ((s.addRefPlayer player).player player).id id = some copied ∧
                text copied = text id := wcscpy_s_of_terminated endsId
          obtain ⟨nick', copy', copied'⟩ : ∃ copied,
              wcscpy_s ((s.addRefPlayer player).player player).nick nick = some copied ∧
                text copied = text nick := wcscpy_s_of_terminated endsNick
          rw [if_pos rfl, if_pos rfl, copy, Option.bind_some, copy', Option.bind_some]
          refine ⟨_, rfl, Shows.of_unseen ?_ (unseen_releasePlayer _ player)⟩
          refine Shows.sendPacket ?_ carries
          have listed : Shows { s.addRefPlayer player with
              accounts := Function.update s.accounts card.account (some session) } room :=
            taken.of_unseen ⟨rfl, rfl, rfl, fun _ => rfl, fun _ => rfl⟩
          refine listed.updatePlayer joined (fun other mapped => orderly.unique mapped joined) ?_
            nofun
          unfold Player.member
          dsimp only
          rw [copied, copied', sameId, sameNick]
          rfl

/-- One round of `RedisThread` is a verdict of the store. -/
theorem redisThread_shows (orderly : s.Orderly) (shows' : s.Shows room) (env : LoginEnv)
    (fuel : Nat) (ok : Bool) :
    ∃ s', s.redisThread env fuel ok = some ((room.step (.verdict ok)).1, s') ∧
      s'.Shows (room.step (.verdict ok)).2 := by
  have queued := shows'.waiting
  unfold Room.step redisThread
  cases waiting : room.waiting with
  | nil =>
      rw [waiting] at queued
      rw [List.forall₂_nil_right_iff.mp queued]
      exact ⟨s, rfl, shows'⟩
  | cons entry rest =>
      obtain ⟨session, card⟩ := entry
      rw [waiting] at queued
      obtain ⟨⟨front, packet⟩, jobs, ⟨rfl, login⟩, others, queue⟩ :=
        List.forall₂_cons_right_iff.mp queued
      obtain ⟨id, nick, clientKey, endsId, endsNick, sameId, sameNick, data⟩ := login
      obtain ⟨q, r, t, no, first, second⟩ := CPacket.readLogin data
      obtain ⟨result, made, written⟩ := makeLoginResult_ok fuel card.account id nick
      have left : Shows { s with redisQ := jobs } { room with waiting := rest } :=
        ⟨shows'.members, shows'.fresh, others, shows'.mail⟩
      rw [queue]
      dsimp only
      rw [no]
      dsimp only
      rw [first]
      dsimp only
      rw [second]
      dsimp only [getName]
      rw [nameOf_nameBytes, nameOf_nameBytes, made]
      exact completeLogin_shows (orderly.beside s.accounts jobs s.sent) left env fuel ok endsId
        endsNick sameId sameNick written.data

/-- A join neither sends nor queues. -/
theorem joinProc_beside (s : ChatServer) (now session : UINT64) :
    (s.joinProc now session).2.redisQ = s.redisQ ∧ (s.joinProc now session).2.sent = s.sent := by
  unfold joinProc allocPlayer
  split
  rename_i player t taken
  split at taken <;> cases taken <;> dsimp only <;> split <;> exact ⟨rfl, rfl⟩

theorem joinProc_shows (orderly : s.Orderly) (shows' : s.Shows room) (now session : UINT64) :
    (s.joinProc now session).1 = (room.step (.join now session)).1 ∧
      (s.joinProc now session).2.Shows (room.step (.join now session)).2 := by
  obtain ⟨redisQ, sent⟩ := s.joinProc_beside now session
  obtain ⟨player, t, -, loose, players, -, -, self, others, result⟩ :=
    joinProc_cases orderly now session
  have kept {other : UINT64} {q : PlayerPtr} (mapped : s.players other = some q) :
      t.player q = s.player q := by
    refine others q ?_
    rintro rfl
    exact loose.unmapped other (players ▸ mapped)
  have waiting := redisQ ▸ shows'.waiting
  have mail : ∀ other, List.Forall₂ CPacket.Carries ((s.joinProc now session).2.sentTo other)
      (room.mail other) := by
    intro other
    rw [sentTo, sent]
    exact shows'.mail other
  unfold Room.step
  dsimp only
  rw [shows'.members]
  cases joined : s.players session with
  | some q =>
      rw [joined, Option.isSome_some, if_pos rfl] at result
      rw [result] at waiting mail ⊢
      refine ⟨rfl, ?_, ?_, waiting, mail⟩
      · intro other
        dsimp only [Option.map_some]
        rw [shows'.members, players]
        exact Option.map_congr fun q mapped => congrArg Player.member (kept mapped).symm
      · intro other q mapped out
        dsimp only at mapped out ⊢
        rw [players] at mapped
        rw [kept mapped] at out ⊢
        exact shows'.fresh mapped out
  | none =>
      rw [joined, Option.isSome_none, if_neg Bool.false_ne_true] at result
      rw [result] at waiting mail ⊢
      refine ⟨rfl, ?_, ?_, waiting, mail⟩
      · intro other
        dsimp only [Option.map_none]
        rcases eq_or_ne other session with rfl | different
        · rw [Function.update_self, Function.update_self, Option.map_some, self]
          rfl
        · rw [Function.update_of_ne different, Function.update_of_ne different, shows'.members,
            players]
          exact Option.map_congr fun q mapped => congrArg Player.member (kept mapped).symm
      · intro other q mapped out
        dsimp only at mapped out ⊢
        rcases eq_or_ne other session with rfl | different
        · rw [Function.update_self] at mapped
          rw [← Option.some.inj mapped, self]
          rfl
        · rw [Function.update_of_ne different, players] at mapped
          rw [kept mapped] at out ⊢
          exact shows'.fresh mapped out

theorem leaveProc_shows (orderly : s.Orderly) (shows' : s.Shows room) (session : UINT64) :
    (s.leaveProc session).1 = true ∧
      (s.leaveProc session).2.Shows (room.step (.leave session)).2 := by
  cases joined : s.players session with
  | none =>
      rw [leaveProc_of_none joined]
      refine ⟨rfl, ?_⟩
      have same : (room.step (.leave session)).2 = room := by
        have absent := shows'.members session
        rw [joined, Option.map_none] at absent
        unfold Room.step
        dsimp only
        rw [← absent, Function.update_eq_self]
      rw [same]
      exact shows'
  | some player =>
      rw [leaveProc_of_some orderly joined]
      refine ⟨rfl, ?_, ?_, shows'.waiting, shows'.mail⟩
      · intro other
        unfold Room.step
        dsimp only
        rcases eq_or_ne other session with rfl | different
        · rw [Function.update_self, players_left, Function.update_self]
          rfl
        · rw [Function.update_of_ne different, shows'.members, players_left,
            Function.update_of_ne different]
          refine Option.map_congr ?_
          intro q mapped
          have stayed : (s.left session player).players other = some q := by
            rw [players_left, Function.update_of_ne different]
            exact mapped
          rw [(left_stayed orderly joined stayed).2]
      · intro other q mapped out
        obtain ⟨before, same⟩ := left_stayed orderly joined mapped
        rw [same] at out ⊢
        exact shows'.fresh before out

end ChatServer

/-! ## Histories -/

/-- What a handler is about.  `complete` is no handler of its own here: it is the
second half of `redis`. -/
inductive Handler.Means : Handler → Deed → Prop
  | join (now session : UINT64) : Means (.join now session) (.join now session)
  | leave (session : UINT64) : Means (.leave session) (.leave session)
  | ask (env : Env) (fuel : Nat) (session : UINT64) {packet : CPacket} {ask : Ask}
      (encodes : ask.Encodes packet.data) :
      Means (.recv env fuel session packet) (.ask env.now session ask)
  | verdict (env : LoginEnv) (fuel : Nat) (ok : Bool) : Means (.redis env fuel ok) (.verdict ok)

namespace ChatServer

/-- One handler is one deed. -/
theorem exec_shows (orderly : s.Orderly) (shows' : s.Shows room) {handler : Handler} {deed : Deed}
    (means : handler.Means deed) :
    ∃ s', handler.exec s = some ((room.step deed).1, s') ∧ s'.Shows (room.step deed).2 := by
  cases means with
  | join now session =>
      obtain ⟨verdict, after⟩ := joinProc_shows orderly shows' now session
      exact ⟨_, congrArg some (Prod.ext verdict rfl), after⟩
  | leave session =>
      obtain ⟨verdict, after⟩ := leaveProc_shows orderly shows' session
      exact ⟨_, congrArg some (Prod.ext verdict rfl), after⟩
  | ask env fuel session encodes =>
      obtain ⟨s', done, after⟩ := recvProc_shows orderly shows' env fuel encodes
      exact ⟨s', congrArg Except.toOption done, after⟩
  | verdict env fuel ok => exact redisThread_shows orderly shows' env fuel ok

/-- Whole histories show the room. -/
theorem shows_after {handlers : List Handler} {deeds : List Deed}
    (mean : List.Forall₂ Handler.Means handlers deeds) :
    ∃ s, serveAll Handler.exec start handlers = some ((serve Room.step Room.empty deeds).1, s) ∧
      s.Orderly ∧ s.Shows (Room.after deeds) := by
  have each : ∀ (s : ChatServer) (room : Room) (handler : Handler) (deed : Deed),
      (s.Orderly ∧ s.Shows room) → handler.Means deed →
      ∃ s', handler.exec s = some ((room.step deed).1, s') ∧
        s'.Orderly ∧ s'.Shows (room.step deed).2 := by
    intro s room handler deed shown means
    obtain ⟨orderly, shows'⟩ := shown
    obtain ⟨s', done, after⟩ := exec_shows orderly shows' means
    exact ⟨s', done, (orderly_exec orderly done).1, after⟩
  exact serveAll_related each ⟨orderly_start, shows_empty⟩ mean

/-- **The server is a chat room.**  Whatever handlers run, one after another, on
well-formed requests: all of them return, with the verdicts of the room; its
members are the players; and every session has been sent the letters that are in
its mail, in their order. -/
theorem room_refinement {handlers : List Handler} {deeds : List Deed}
    (mean : List.Forall₂ Handler.Means handlers deeds) :
    ∃ s, serveAll Handler.exec start handlers = some ((serve Room.step Room.empty deeds).1, s) ∧
      ∀ session,
        (Room.after deeds).members session =
          (s.players session).map (fun player => (s.player player).member) ∧
        List.Forall₂ CPacket.Carries (s.sentTo session) ((Room.after deeds).mail session) := by
  obtain ⟨s, served, -, shown⟩ := shows_after mean
  exact ⟨s, served, fun session => ⟨shown.members session, shown.mail session⟩⟩

/-- A request as it arrives. -/
def requestPacket (type : WORD) (body : List BYTE) : CPacket :=
  CPacket.received 0 (bytesOf type ++ body)

theorem data_requestPacket (type : WORD) {body : List BYTE} (fits : body.length ≤ 505) :
    (requestPacket type body).data = bytesOf type ++ body := by
  apply CPacket.data_received
  rw [List.length_append, length_bytesOf]
  omega

/-- A client that joins, logs in with empty names, moves, and says two letters. -/
def visit : List Handler :=
  let env : Env := ⟨0, 0, 0, 0, fun _ => 0⟩
  let nobody : Vector WCHAR 20 := Vector.replicate 20 0
  [.join 0 7,
    .recv env 0 7 (requestPacket en_PACKET_CS_CHAT_REQ_LOGIN
      (loginBytes 1 nobody nobody ++ List.replicate dfSESSIONKEY_LEN 0)),
    .redis ⟨nobody, nobody, 0⟩ 0 true,
    .recv env 0 7 (requestPacket en_PACKET_CS_CHAT_REQ_SECTOR_MOVE
      (bytesOf (1 : INT64) ++ (bytesOf (2 : WORD) ++ bytesOf (3 : WORD)))),
    .recv env 0 7 (requestPacket en_PACKET_CS_CHAT_REQ_MESSAGE (chatRequest 1 [0x68, 0x69]))]

def visitDeeds : List Deed :=
  [.join 0 7, .ask 0 7 (.login ⟨1, [], []⟩), .verdict true, .ask 0 7 (.move 1 2 3),
    .ask 0 7 (.say 1 [0x68, 0x69])]

theorem means_visit : List.Forall₂ Handler.Means visit visitDeeds := by
  refine .cons (.join 0 7) (.cons (.ask _ 0 7 ?_) (.cons (.verdict _ 0 true)
    (.cons (.ask _ 0 7 ?_) (.cons (.ask _ 0 7 ?_) .nil))))
  · refine ⟨_, data_requestPacket _ ?_, _, _, _, ?_, ?_, ?_, ?_, ?_, rfl⟩ <;> decide +kernel
  · exact ⟨_, data_requestPacket _ (by decide), rfl⟩
  · exact ⟨_, data_requestPacket _ (by decide), by decide, rfl⟩

/-- A client that joins, logs in, moves and chats is told of the login, the move and the
message, in this order. -/
theorem room_refinement_visit :
    ∃ s, serveAll Handler.exec start visit = some ([true, true, true, true, true], s) ∧
      List.Forall₂ CPacket.Carries (s.sentTo 7)
        [.login true 1, .moved 1 2 3, .said ⟨1, [], []⟩ [0x68, 0x69]] := by
  obtain ⟨s, served, shown⟩ := room_refinement means_visit
  exact ⟨s, served, (shown 7).2⟩

end ChatServer

end ChattingServer
