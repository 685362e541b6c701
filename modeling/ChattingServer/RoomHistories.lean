import ChattingServer.RoomRefinement

/-!
# Histories of the whole server

Nobody is impersonated (`nobody_impersonated`), which is read off the room that
the server shows.  `CheckTimeOut` disconnects exactly the sessions that have been
silent for too long (`timeouts_exact`), after any handlers that return, whatever
bytes their requests were made of: when each session was last heard of is kept
from the calls alone (`lastHeard`).
-/

namespace ChattingServer

namespace ChatServer

variable {s : ChatServer} {room : Room} {session : UINT64} {res : CPacket} {letter : Letter}

theorem mem_sentTo : res ∈ s.sentTo session ↔ (session, res) ∈ s.sent := by
  simp [sentTo]

/-- A packet that was sent is a letter in its receiver's mail. -/
theorem Shows.posted (shows' : s.Shows room) (sent : (session, res) ∈ s.sent)
    (carries : res.Carries letter) : letter ∈ room.mail session := by
  obtain ⟨i, inside, here⟩ := List.mem_iff_getElem.mp (mem_sentTo.mpr sent)
  obtain ⟨length, each⟩ := List.forall₂_iff_get.mp (shows'.mail session)
  have carried := each i inside (length ▸ inside)
  rw [List.get_eq_getElem, List.get_eq_getElem, here] at carried
  rw [carries.unique carried]
  exact List.getElem_mem _

/-- A letter in the mail is a packet that was sent. -/
theorem Shows.packet (shows' : s.Shows room) (posted : letter ∈ room.mail session) :
    ∃ res, (session, res) ∈ s.sent ∧ res.Carries letter := by
  obtain ⟨i, inside, rfl⟩ := List.mem_iff_getElem.mp posted
  obtain ⟨length, each⟩ := List.forall₂_iff_get.mp (shows'.mail session)
  exact ⟨_, mem_sentTo.mp (List.get_mem _ _), each i (length ▸ inside) inside⟩

/-- **Nobody is impersonated.**  A chat message that any client was ever sent
bears the account and the names of somebody who said it, logged in with them at
that moment, having asked for them before and with the store's consent. -/
theorem nobody_impersonated {handlers : List Handler} {deeds : List Deed}
    (mean : List.Forall₂ Handler.Means handlers deeds) {rs : List Bool}
    (served : serveAll Handler.exec start handlers = some (rs, s)) {card : Card}
    {msg : List BYTE} (sent : (session, res) ∈ s.sent) (carries : res.Carries (.said card msg)) :
    Room.Spoken deeds card msg := by
  obtain ⟨t, served', -, shown⟩ := shows_after mean
  obtain ⟨-, rfl⟩ := Prod.mk.inj (Option.some.inj (served.symm.trans served'))
  exact (Room.genuine_after deeds).mail session card msg (shown.posted sent carries)

/-- A client that joins, logs in as account 1 and chats is told of its own words, under
the account that it logged in with. -/
theorem nobody_impersonated_visit : ∃ s res, serveAll Handler.exec start visit = some s ∧
    (7, res) ∈ s.2.sent ∧ res.Carries (.said ⟨1, [], []⟩ [0x68, 0x69]) ∧
    Room.Spoken visitDeeds ⟨1, [], []⟩ [0x68, 0x69] := by
  obtain ⟨s, served, -, shown⟩ := shows_after means_visit
  have posted : Letter.said ⟨1, [], []⟩ [0x68, 0x69] ∈ (Room.after visitDeeds).mail 7 := by
    decide
  obtain ⟨res, sent, carries⟩ := shown.packet posted
  exact ⟨_, res, served, sent, carries, nobody_impersonated means_visit served sent carries⟩

/-! ## Time-outs -/

/-- `CheckTimeOut`: the sessions it disconnects, as it finds them on its way
through the map. -/
def checkTimeOut (s : ChatServer) (order : List UINT64) (curTime : UINT64) : List UINT64 :=
  order.filter fun sid =>
    match s.players sid with
    | none => false
    | some player =>
        let p := s.player player
        decide (curTime > p.lastRecvTime) && decide (curTime - p.lastRecvTime > 40000)

/-- A way through the map meets every session that is there once. -/
structure Walk (s : ChatServer) (order : List UINT64) : Prop where
  once : order.Nodup
  all : ∀ session, session ∈ order ↔ (s.players session).isSome = true

theorem mem_checkTimeOut {order : List UINT64} (walk : s.Walk order) {curTime : UINT64} :
    session ∈ s.checkTimeOut order curTime ↔ ∃ player, s.players session = some player ∧
      (s.player player).lastRecvTime < curTime ∧
      40000 < curTime - (s.player player).lastRecvTime := by
  rw [checkTimeOut, List.mem_filter, walk.all]
  cases joined : s.players session with
  | none => simp
  | some player => simp

/-- When each session was last heard of, after one more handler.  A session that
joins is heard of then, unless it was there; one that leaves is not heard of any
more; a request counts if its session is there, whatever it is and whether or not
it is granted. -/
def news (heard : UINT64 → Option UINT64) : Handler → UINT64 → Option UINT64
  | .join now sessionID => Function.update heard sessionID (some ((heard sessionID).getD now))
  | .leave sessionID => Function.update heard sessionID none
  | .recv env _ sessionID _ =>
      Function.update heard sessionID ((heard sessionID).map fun _ => env.now)
  | .complete .. => heard
  | .redis .. => heard

/-- When each session was last heard of in a history that starts with nobody. -/
def lastHeard (handlers : List Handler) : UINT64 → Option UINT64 :=
  handlers.foldl news fun _ => none

theorem news_recv_of_none {heard : UINT64 → Option UINT64} (absent : heard session = none)
    (env : Env) (fuel : Nat) (packet : CPacket) :
    news heard (.recv env fuel session packet) = heard := by
  rw [news, absent, Option.map_none, ← absent, Function.update_eq_self]

theorem lastRecvTime_joinProc (orderly : Orderly s) (now session : UINT64) :
    (s.joinProc now session).2.shown Player.lastRecvTime =
      news (s.shown Player.lastRecvTime) (.join now session) := by
  rw [shown_joinProc _ orderly, news]
  cases joined : s.players session with
  | none =>
      rw [shown_of_none _ joined]
      rfl
  | some player =>
      rw [shown_of_some _ joined, Option.isSome_some, if_pos rfl, Option.getD_some,
        ← shown_of_some Player.lastRecvTime joined, Function.update_eq_self]

/-- The completion of a login is no news of anybody. -/
theorem lastRecvTime_of_completes (orderly : Orderly s) {account : INT64} {success : Bool}
    {s' : ChatServer} (completes : s.Completes session account success s') :
    s'.shown Player.lastRecvTime = s.shown Player.lastRecvTime := by
  cases completes with
  | absent => rfl
  | failure => rfl
  | success joined id nick res => exact shown_updatePlayer_same _ orderly joined rfl

theorem lastRecvTime_moved (orderly : Orderly s) {player : PlayerPtr}
    (joined : s.players session = some player) (x y : WORD) (now : UINT64) :
    (s.moved player x y now).shown Player.lastRecvTime =
      Function.update (s.shown Player.lastRecvTime) session (some now) := by
  have walked := shown_updatePlayer Player.lastRecvTime orderly joined fun p =>
    { p with sectorX := x, sectorY := y, lastRecvTime := now }
  obtain ⟨sector, moved⟩ := s.moved_eq player x y now
  rw [moved]
  exact walked

/-- A request is news of the session it came from, and of no other. -/
theorem lastRecvTime_of_receives (orderly : Orderly s) {env : Env} {packet : CPacket} {ok : Bool}
    {s' : ChatServer} (receives : s.Receives env session packet ok s') (fuel : Nat) :
    s'.shown Player.lastRecvTime =
      news (s.shown Player.lastRecvTime) (.recv env fuel session packet) := by
  cases receives with
  | absent absent => exact (news_recv_of_none (shown_of_none _ absent) env fuel packet).symm
  | stood joined other redisQ sent =>
      have asked := shown_updatePlayer Player.lastRecvTime orderly joined (heard env.now)
      rw [news, shown_of_some _ joined]
      exact asked
  | @went player joined type inside res =>
      have visited : Orderly (s.updatePlayer player (heard env.now)) :=
        orderly.updatePlayer ⟨rfl, rfl, orderly.held joined⟩ rfl rfl
      have moved := lastRecvTime_moved visited joined
        (moveWords env (packet.readValue (0 : WORD)).2.data).1
        (moveWords env (packet.readValue (0 : WORD)).2.data).2 env.now
      rw [shown_updatePlayer _ orderly joined, Function.update_idem] at moved
      rw [news, shown_of_some _ joined]
      exact moved

/-- What any handler that returns does to the times of the players is the news
it brings. -/
theorem lastRecvTime_exec (orderly : Orderly s) {handler : Handler} {ok : Bool} {s' : ChatServer}
    (done : handler.exec s = some (ok, s')) :
    s'.shown Player.lastRecvTime = news (s.shown Player.lastRecvTime) handler := by
  cases handler with
  | join now session =>
      have result := lastRecvTime_joinProc orderly now session
      rw [Option.some.inj done] at result
      exact result
  | leave session =>
      have result := shown_leaveProc Player.lastRecvTime orderly session
      rw [Option.some.inj done] at result
      exact result
  | recv env fuel session packet =>
      exact lastRecvTime_of_receives orderly (recvProc_cases orderly (of_toOption done)) fuel
  | complete env fuel session packet success =>
      exact lastRecvTime_of_completes orderly (completeLogin_cases orderly done).2
  | redis env fuel success =>
      rw [Handler.exec, redisThread] at done
      cases waiting : s.redisQ with
      | nil =>
          rw [waiting] at done
          cases done
          rfl
      | cons job jobs =>
          rw [waiting] at done
          obtain ⟨result, -, done⟩ := Option.bind_eq_some_iff.mp done
          have waits := orderly.beside s.accounts jobs s.sent
          exact lastRecvTime_of_completes waits (completeLogin_cases waits done).2

/-- The times of the players are those of the history. -/
theorem lastRecvTime_after {handlers : List Handler} {rs : List Bool}
    (served : serveAll Handler.exec start handlers = some (rs, s)) :
    s.Orderly ∧ s.shown Player.lastRecvTime = lastHeard handlers := by
  refine serveAll_foldl (R := fun s heard => s.Orderly ∧ s.shown Player.lastRecvTime = heard) ?_
    ⟨orderly_start, rfl⟩ served
  intro s heard handler ok s' before done
  obtain ⟨orderly, rfl⟩ := before
  exact ⟨(orderly_exec orderly done).1, lastRecvTime_exec orderly done⟩

/-- **Time-outs are exact.**  After any history of handlers that return,
`CheckTimeOut` disconnects a session when it is there and the latest request it
made, or else its join, is more than forty seconds old, and then once; whatever
the requests were, whatever others do, and however the map is laid out. -/
theorem timeouts_exact {handlers : List Handler} {rs : List Bool}
    (served : serveAll Handler.exec start handlers = some (rs, s)) {order : List UINT64}
    (walk : s.Walk order) (curTime : UINT64) :
    (s.checkTimeOut order curTime).Nodup ∧
      ∀ session, session ∈ s.checkTimeOut order curTime ↔
        ∃ last, lastHeard handlers session = some last ∧
          last < curTime ∧ 40000 < curTime - last := by
  refine ⟨walk.once.filter _, ?_⟩
  intro session
  rw [mem_checkTimeOut walk, ← (lastRecvTime_after served).2]
  constructor
  · intro late
    obtain ⟨player, joined, since⟩ := late
    exact ⟨_, shown_of_some _ joined, since⟩
  · intro late
    obtain ⟨last, found, since⟩ := late
    obtain ⟨player, joined, rfl⟩ := Option.map_eq_some_iff.mp found
    exact ⟨player, joined, since⟩

/-- Sessions 7 and 8 join at 0.  At 30000 session 7 asks to move, with a byte too
many behind its coordinates. -/
def moveAndSilence : List Handler :=
  [.join 0 7, .join 0 8,
    .recv ⟨30000, 0, 0, 0, fun _ => 0⟩ 0 7 (requestPacket en_PACKET_CS_CHAT_REQ_SECTOR_MOVE
      (bytesOf (1 : INT64) ++ (bytesOf (2 : WORD) ++ (bytesOf (3 : WORD) ++ [0xFF]))))]

/-- At 40001 session 8, which has joined at 0 and asked for nothing, is
disconnected, and session 7, which has asked for a move since, is not. -/
theorem timeouts_exact_silent : ∃ rs s, serveAll Handler.exec start moveAndSilence = some (rs, s) ∧
    8 ∈ s.checkTimeOut [7, 8] 40001 ∧ 7 ∉ s.checkTimeOut [7, 8] 40001 := by
  have returns : (serveAll Handler.exec start moveAndSilence).isSome = true := by decide +kernel
  obtain ⟨⟨rs, s⟩, served⟩ := Option.isSome_iff_exists.mp returns
  have walk : s.Walk [7, 8] := by
    refine ⟨by decide, ?_⟩
    intro session
    have there := congrArg Option.isSome (congrFun (lastRecvTime_after served).2 session)
    rw [shown, Option.isSome_map] at there
    rw [there]
    show _ ↔ (Function.update (Function.update (Function.update (fun _ => none) 7 (some 0)) 8
      (some 0)) 7 (some 30000) session).isSome = true
    simp only [Function.update_apply, List.mem_cons, List.not_mem_nil, or_false]
    split_ifs <;> simp_all
  obtain ⟨-, late⟩ := timeouts_exact served walk 40001
  refine ⟨rs, s, served, (late 8).mpr ⟨0, by decide, by decide, by decide⟩, ?_⟩
  intro member
  obtain ⟨last, heard, -, silent⟩ := (late 7).mp member
  obtain rfl : (30000 : UINT64) = last := Option.some.inj heard
  exact absurd silent (by decide)

end ChatServer

end ChattingServer
