import ChattingServer.Audience
import ChattingServer.Foundation.Threads

/-!
# The handlers as threads

`ChatServer` while any number of worker threads join, leave and handle requests,
and `RedisThread` completes logins.  A step is one lock region, one atomic
operation, or one read or write of a field of a player.

A worker chooses its next call; `Choice` also says what Redis answers.  A block
that `JoinProc` has taken from the pool is prepared in one step, nobody else
having it, and `SendPacket` is one step, recorded as before.
-/

namespace ChattingServer

/-- The `WCHAR` at index `i` of a `WCHAR[20]`. -/
def charAt (name : Vector WCHAR 20) (i : Nat) : WCHAR := name.toList.getD i 0

/-- A store to index `i` of a `WCHAR[20]`. -/
def setChar (name : Vector WCHAR 20) (i : Nat) (c : WCHAR) : Vector WCHAR 20 :=
  Vector.ofFn fun j => if j.val = i then c else name.get j

namespace ChatThreads

/-- The login `RedisThread` reads off a request, and whether Redis gave its
session key back. -/
structure Login where
  account : INT64
  id : Vector WCHAR 20
  nick : Vector WCHAR 20
  ok : Bool

def Login.of (packet : CPacket) (ok : Bool) : Login :=
  let (account, packet) := packet.readValue (0 : INT64)
  let (idBytes, packet) := packet.getData dfID_LEN
  let (nickBytes, _) := packet.getData dfNiCK_LEN
  let zero := Vector.replicate 20 0
  { account := account, id := getName zero idBytes, nick := getName zero nickBytes, ok := ok }

/-- What a worker calls. -/
inductive Call where
  | join (now sessionID : UINT64)
  | leave (sessionID : UINT64)
  | recv (env : Env) (fuel : Nat) (sessionID : UINT64) (packet : CPacket)

structure Choice where
  call : Call
  ok : Bool
  randKey : BYTE
  fuel : Nat

/-! ## Operations -/

/-- The stores to a player. -/
inductive Store where
  | prepare (now sessionID : UINT64)
  | time (now : UINT64)
  | sectorX (x : WORD)
  | sectorY (y : WORD)
  | isLogined
  | accountNo (account : INT64)
  | id (i : Nat) (c : WCHAR)
  | nick (i : Nat) (c : WCHAR)
  | closing

@[simp] def Store.apply : Store → Player → Player
  | .prepare now sessionID, _ => Player.joining now sessionID
  | .time now, p => { p with lastRecvTime := now }
  | .sectorX x, p => { p with sectorX := x }
  | .sectorY y, p => { p with sectorY := y }
  | .isLogined, p => { p with isLogined := true }
  | .accountNo account, p => { p with accountNo := account }
  | .id i c, p => { p with id := setChar p.id i c }
  | .nick i c, p => { p with nick := setChar p.nick i c }
  | .closing, p => { p with closing := true }

inductive Op : Type → Type 1
  | choose : Op Call
  /-- `redisQ.pop`, and Redis's answer for the job. -/
  | popJob : Op (Option (UINT64 × Login))
  | pushJob (sessionID : UINT64) (packet : CPacket) : Op Unit
  /-- The region of `AcquirePlayer`: `players.find` and `AddRefPlayer`. -/
  | find (sessionID : UINT64) : Op (Option PlayerPtr)
  | load {α : Type} (player : PlayerPtr) (field : Player → α) : Op α
  | store (player : PlayerPtr) (store : Store) : Op Unit
  /-- `ref.fetch_sub(1) - 1`. -/
  | fetchSub (player : PlayerPtr) : Op Int
  | alloc : Op PlayerPtr
  | free (player : PlayerPtr) : Op Unit
  /-- The region of `JoinProc`. -/
  | emplace (sessionID : UINT64) (player : PlayerPtr) : Op Bool
  /-- The first region of `LeaveProc`. -/
  | erase (sessionID : UINT64) : Op (Option PlayerPtr)
  | putAccount (account : INT64) (sessionID : UINT64) : Op Unit
  /-- The second region of `LeaveProc`. -/
  | dropAccount (sessionID : UINT64) (player : PlayerPtr) : Op Unit
  | moveSector (player : PlayerPtr) (ox oy x y : WORD) : Op Unit
  | dropSector (player : PlayerPtr) : Op Unit
  /-- The logged-in players of a sector, with their sessions. -/
  | scan (cell : Nat × Nat) : Op (List (PlayerPtr × UINT64))
  | send (sessionID : UINT64) (packet : CPacket) : Op Unit
  | sendLogin (sessionID : UINT64) (account : INT64) (status : BYTE) : Op Unit
  /-- What does not return. -/
  | abort : Op Unit

/-- The logged-in players a scan meets. -/
def met (s : ChatServer) (cell : Nat × Nat) : List (PlayerPtr × UINT64) :=
  (s.sectorAt cell).filterMap fun t => (s.collect t).map fun sid => (t, sid)

/-- The first region of `LeaveProc`, for the player it finds. -/
def erased (s : ChatServer) (sessionID : UINT64) (player : PlayerPtr) : ChatServer :=
  { s with players := Function.update s.players sessionID none }.updatePlayer player fun p =>
    { p with ref := p.ref + 1, closing := true }

def exec {α : Type} (op : Op α) (c : Choice) (s : ChatServer) : Option (α × ChatServer) :=
  match op with
  | .choose => some (c.call, s)
  | .popJob =>
      match s.redisQ with
      | [] => some (none, s)
      | (sessionID, packet) :: jobs =>
          some (some (sessionID, Login.of packet c.ok), { s with redisQ := jobs })
  | .pushJob sessionID packet => some ((), s.enqueueRedis sessionID packet)
  | .find sessionID =>
      match s.players sessionID with
      | none => some (none, s)
      | some player => some (some player, s.addRefPlayer player)
  | .load player field => some (field (s.player player), s)
  | .store player store => some ((), s.updatePlayer player store.apply)
  | .fetchSub player =>
      some ((s.player player).ref - 1, s.updatePlayer player fun p => { p with ref := p.ref - 1 })
  | .alloc => some s.allocPlayer
  | .free player => some ((), { s with playerPool := player :: s.playerPool })
  | .emplace sessionID player =>
      if (s.players sessionID).isSome then
        some (false, s)
      else
        some (true, { s with players := Function.update s.players sessionID (some player) })
  | .erase sessionID =>
      match s.players sessionID with
      | none => some (none, s)
      | some player => some (some player, erased s sessionID player)
  | .putAccount account sessionID =>
      some ((), { s with accounts := Function.update s.accounts account (some sessionID) })
  | .dropAccount sessionID player =>
      let account := (s.player player).accountNo
      if s.accounts account = some sessionID then
        some ((), { s with accounts := Function.update s.accounts account none })
      else
        some ((), s)
  | .moveSector player ox oy x y =>
      let s := if isValidSector ox oy then s.updateSector ox oy (·.erase player) else s
      some ((), s.updateSector x y (·.insert player))
  | .dropSector player =>
      some ((), s.updateSector (s.player player).sectorX (s.player player).sectorY (·.erase player))
  | .scan cell => some (met s cell, s)
  | .send sessionID packet => some ((), s.sendPacket sessionID packet)
  | .sendLogin sessionID account status =>
      (ChatServer.resLogin c.randKey c.fuel account status).toOption.map fun res =>
        ((), s.sendPacket sessionID res)
  | .abort => none

/-! ## Places in the handlers -/

/-- What a player is acquired for. -/
inductive Use where
  | recv (env : Env) (fuel : Nat) (packet : CPacket)
  | complete (login : Login)

inductive JoinProc where
  | alloc (now sessionID : UINT64)
  | prepare (now sessionID : UINT64) (player : PlayerPtr)
  | emplace (sessionID : UINT64) (player : PlayerPtr)
  | free (player : PlayerPtr)

/-- `LeaveProc` behind its first region. -/
inductive LeaveProc where
  | isLogined
  | accountNo
  | accounts
  | sectorX
  | sectorY (x : WORD)
  | sector
  | closing

inductive ReqLogin where
  | closing
  | sessionID
  | accountNo
  | isLogined
  | push

/-- The locals of `Req_SectorMove`. -/
structure Move where
  sessionID : UINT64
  env : Env
  fuel : Nat
  account : INT64
  x : WORD
  y : WORD

inductive ReqSectorMove where
  | ox
  | oy (ox : WORD)
  | sets (ox oy : WORD)
  | sectorX
  | sectorY
  | time
  | send (res : CPacket)

/-- The locals of `Req_Chat`. -/
structure Chat where
  env : Env
  fuel : Nat
  msg : Memory BYTE
  len : WORD

/-- `Req_Chat`, with what it has read of the player and the sectors. -/
inductive ReqChat where
  | isLogined (env : Env) (fuel : Nat) (packet : CPacket)
  | accountNo (chat : Chat)
  | id (chat : Chat) (account : INT64) (ids : List WCHAR)
  | nick (chat : Chat) (account : INT64) (ids nicks : List WCHAR)
  | cx (res : CPacket)
  | cy (res : CPacket) (cx : WORD)
  | scan (res : CPacket) (targets : List UINT64) (cell : Nat × Nat) (cells : List (Nat × Nat))
  | send (res : CPacket) (sid : UINT64) (targets : List UINT64)

/-- `CompleteLogin` once it has acquired the player. -/
inductive CompleteLogin where
  | sessionID
  | closing
  | accounts
  | isLogined
  | accountNo
  | id (i : Nat)
  | nick (i : Nat)
  | send (status : BYTE)
  /-- `wcscpy_s` has not met a terminator. -/
  | invalid

inductive Frame where
  | worker
  | redis
  | acquire (sessionID : UINT64) (use : Use)
  | acquired (sessionID : UINT64) (use : Use) (player : PlayerPtr)
  | release (player : PlayerPtr)
  | free (player : PlayerPtr)
  | join (pc : JoinProc)
  | erase (sessionID : UINT64)
  | leave (sessionID : UINT64) (player : PlayerPtr) (pc : LeaveProc)
  | recv (sessionID : UINT64) (player : PlayerPtr) (env : Env) (fuel : Nat) (packet : CPacket)
  | login (sessionID : UINT64) (player : PlayerPtr) (packet : CPacket) (pc : ReqLogin)
  | move (player : PlayerPtr) (move : Move) (pc : ReqSectorMove)
  | chat (player : PlayerPtr) (pc : ReqChat)
  | complete (sessionID : UINT64) (player : PlayerPtr) (login : Login) (pc : CompleteLogin)
  | fault

/-- What a thread does when it has nothing more to do with a player. -/
@[simp] def Use.ended : Use → List Frame
  | .recv .. => []
  | .complete _ => [.redis]

/-- What a thread does with the player it has acquired. -/
@[simp] def Use.begun (sessionID : UINT64) (player : PlayerPtr) : Use → List Frame
  | .recv env fuel packet => [.recv sessionID player env fuel packet, .release player]
  | .complete found => [.complete sessionID player found .sessionID]

@[simp] def Call.frame : Call → Frame
  | .join now sessionID => .join (.alloc now sessionID)
  | .leave sessionID => .erase sessionID
  | .recv env fuel sessionID packet => .acquire sessionID (.recv env fuel packet)

@[simp] def JoinProc.act : JoinProc → Act Op Frame
  | .alloc now sessionID => ⟨.alloc, fun player => [.join (.prepare now sessionID player)]⟩
  | .prepare now sessionID player => ⟨.store player (.prepare now sessionID), fun _ =>
      [.join (.emplace sessionID player)]⟩
  | .emplace sessionID player => ⟨.emplace sessionID player, fun
      | true => []
      | false => [.join (.free player)]⟩
  | .free player => ⟨.free player, fun _ => []⟩

@[simp] def LeaveProc.act (sessionID : UINT64) (player : PlayerPtr) : LeaveProc → Act Op Frame
  | .isLogined => ⟨.load player Player.isLogined, fun
      | true => [.leave sessionID player .accountNo]
      | false => [.leave sessionID player .sectorX]⟩
  | .accountNo => ⟨.load player Player.accountNo, fun account =>
      if account ≠ 0 then [.leave sessionID player .accounts]
      else [.leave sessionID player .sectorX]⟩
  | .accounts => ⟨.dropAccount sessionID player, fun _ => [.leave sessionID player .sectorX]⟩
  | .sectorX => ⟨.load player Player.sectorX, fun x => [.leave sessionID player (.sectorY x)]⟩
  | .sectorY x => ⟨.load player Player.sectorY, fun y =>
      if isValidSector x y then [.leave sessionID player .sector]
      else [.leave sessionID player .closing]⟩
  | .sector => ⟨.dropSector player, fun _ => [.leave sessionID player .closing]⟩
  | .closing => ⟨.store player .closing, fun _ => []⟩

@[simp] def ReqLogin.act (sessionID : UINT64) (player : PlayerPtr) (packet : CPacket) :
    ReqLogin → Act Op Frame
  | .closing => ⟨.load player Player.closing, fun
      | true => []
      | false => [.login sessionID player packet .sessionID]⟩
  | .sessionID => ⟨.load player Player.sessionID, fun id =>
      if id ≠ sessionID then [] else [.login sessionID player packet .accountNo]⟩
  | .accountNo => ⟨.load player Player.accountNo, fun account =>
      if account ≠ 0 then [] else [.login sessionID player packet .isLogined]⟩
  | .isLogined => ⟨.load player Player.isLogined, fun
      | true => []
      | false => [.login sessionID player packet .push]⟩
  | .push => ⟨.pushJob sessionID packet, fun _ => []⟩

@[simp] def ReqSectorMove.act (player : PlayerPtr) (req : Move) : ReqSectorMove → Act Op Frame
  | .ox => ⟨.load player Player.sectorX, fun oldX => [.move player req (.oy oldX)]⟩
  | .oy oldX => ⟨.load player Player.sectorY, fun oldY => [.move player req (.sets oldX oldY)]⟩
  | .sets oldX oldY => ⟨.moveSector player oldX oldY req.x req.y, fun _ =>
      [.move player req .sectorX]⟩
  | .sectorX => ⟨.store player (.sectorX req.x), fun _ => [.move player req .sectorY]⟩
  | .sectorY => ⟨.store player (.sectorY req.y), fun _ => [.move player req .time]⟩
  | .time => ⟨.store player (.time req.env.now), fun _ =>
      match ChatServer.resSectorMove req.env req.fuel req.account req.x req.y with
      | .ok res => [.move player req (.send res)]
      | .error _ => [.fault]⟩
  | .send res => ⟨.send req.sessionID res, fun _ => []⟩

/-- `Req_Chat` once it knows that the player is logged in. -/
@[simp] def ReqChat.read (player : PlayerPtr) (env : Env) (fuel : Nat) (packet : CPacket) :
    List Frame :=
  let (_, packet) := packet.readValue (0 : INT64)
  let (len, packet) := packet.readValue (0 : WORD)
  if len = 0 then
    []
  else
    match ChatServer.getMsg env.msg (packet.getData len.toNat).1 with
    | .ok msg => [.chat player (.accountNo ⟨env, fuel, msg, len⟩)]
    | .error _ => [.fault]

/-- What `Res_Chat` has read of a player. -/
def readPlayer (account : INT64) (id nick : List WCHAR) : Player :=
  { Player.reset with
    accountNo := account
    id := Vector.ofFn fun i => id.getD i 0
    nick := Vector.ofFn fun i => nick.getD i 0 }

/-- `Req_Chat` once `Res_Chat` has read the player. -/
@[simp] def ReqChat.built (player : PlayerPtr) (chat : Chat) (account : INT64)
    (id nick : List WCHAR) : List Frame :=
  match ChatServer.resChat chat.env chat.fuel (readPlayer account id nick) chat.msg chat.len with
  | .ok res => [.chat player (.cx res)]
  | .error _ => [.fault]

@[simp] def ReqChat.sends (player : PlayerPtr) (res : CPacket) : List UINT64 → List Frame
  | [] => []
  | sid :: targets => [.chat player (.send res sid targets)]

@[simp] def ReqChat.scans (player : PlayerPtr) (res : CPacket) (targets : List UINT64) :
    List (Nat × Nat) → List Frame
  | [] => ReqChat.sends player res targets
  | cell :: cells => [.chat player (.scan res targets cell cells)]

@[simp] def ReqChat.act (player : PlayerPtr) : ReqChat → Act Op Frame
  | .isLogined env fuel packet => ⟨.load player Player.isLogined, fun
      | true => ReqChat.read player env fuel packet
      | false => []⟩
  | .accountNo chat => ⟨.load player Player.accountNo, fun account =>
      [.chat player (.id chat account [])]⟩
  | .id chat account ids => ⟨.load player fun p => charAt p.id ids.length, fun c =>
      if ids.length + 1 < 20 then [.chat player (.id chat account (ids ++ [c]))]
      else [.chat player (.nick chat account (ids ++ [c]) [])]⟩
  | .nick chat account ids nicks => ⟨.load player fun p => charAt p.nick nicks.length, fun c =>
      if nicks.length + 1 < 20 then [.chat player (.nick chat account ids (nicks ++ [c]))]
      else ReqChat.built player chat account ids (nicks ++ [c])⟩
  | .cx res => ⟨.load player Player.sectorX, fun x => [.chat player (.cy res x)]⟩
  | .cy res x => ⟨.load player Player.sectorY, fun y =>
      if isValidSector x y then ReqChat.scans player res [] (around x y) else []⟩
  | .scan res targets cell cells => ⟨.scan cell, fun met =>
      ReqChat.scans player res (targets ++ met.map Prod.snd) cells⟩
  | .send res sid targets => ⟨.send sid res, fun _ => ReqChat.sends player res targets⟩

@[simp] def CompleteLogin.act (sessionID : UINT64) (player : PlayerPtr) (found : Login) :
    CompleteLogin → Act Op Frame
  -- the reference stays with a player of another session
  | .sessionID => ⟨.load player Player.sessionID, fun id =>
      if id ≠ sessionID then [.redis] else [.complete sessionID player found .closing]⟩
  | .closing => ⟨.load player Player.closing, fun
      | true => [.release player, .redis]
      | false =>
          if found.ok then [.complete sessionID player found .accounts]
          else [.complete sessionID player found (.send 0)]⟩
  | .accounts => ⟨.putAccount found.account sessionID, fun _ =>
      [.complete sessionID player found .isLogined]⟩
  | .isLogined => ⟨.store player .isLogined, fun _ =>
      [.complete sessionID player found .accountNo]⟩
  | .accountNo => ⟨.store player (.accountNo found.account), fun _ =>
      [.complete sessionID player found (.id 0)]⟩
  | .id i => ⟨.store player (.id i (charAt found.id i)), fun _ =>
      if charAt found.id i = 0 then [.complete sessionID player found (.nick 0)]
      else if i + 1 < 20 then [.complete sessionID player found (.id (i + 1))]
      else [.complete sessionID player found .invalid]⟩
  | .nick i => ⟨.store player (.nick i (charAt found.nick i)), fun _ =>
      if charAt found.nick i = 0 then [.complete sessionID player found (.send 1)]
      else if i + 1 < 20 then [.complete sessionID player found (.nick (i + 1))]
      else [.complete sessionID player found .invalid]⟩
  | .send status => ⟨.sendLogin sessionID found.account status, fun _ =>
      [.release player, .redis]⟩
  | .invalid => ⟨.abort, fun _ => []⟩

/-- The `switch` of `RecvProc`. -/
@[simp] def dispatch (sessionID : UINT64) (player : PlayerPtr) (env : Env) (fuel : Nat)
    (packet : CPacket) : List Frame :=
  let (type, packet) := packet.readValue (0 : WORD)
  if type = en_PACKET_CS_CHAT_REQ_LOGIN then
    [.login sessionID player packet .closing]
  else if type = en_PACKET_CS_CHAT_REQ_SECTOR_MOVE then
    let (account, packet) := packet.readValue (0 : INT64)
    let (x, packet) := packet.readValue env.x
    let (y, _) := packet.readValue env.y
    if isValidSector x y then [.move player ⟨sessionID, env, fuel, account, x, y⟩ .ox] else []
  else if type = en_PACKET_CS_CHAT_REQ_MESSAGE then
    [.chat player (.isLogined env fuel packet)]
  else
    []

@[simp] def Frame.act : Frame → Act Op Frame
  | .worker => ⟨.choose, fun call => [call.frame, .worker]⟩
  | .redis => ⟨.popJob, fun
      | some (sessionID, found) => [.acquire sessionID (.complete found)]
      | none => [.redis]⟩
  | .acquire sessionID use => ⟨.find sessionID, fun
      | some player => [.acquired sessionID use player]
      | none => use.ended⟩
  | .acquired sessionID use player => ⟨.load player Player.closing, fun
      | true => .release player :: use.ended
      | false => use.begun sessionID player⟩
  | .release player => ⟨.fetchSub player, fun r => if r = 0 then [.free player] else []⟩
  | .free player => ⟨.free player, fun _ => []⟩
  | .join pc => pc.act
  | .erase sessionID => ⟨.erase sessionID, fun
      | some player => [.leave sessionID player .isLogined, .release player]
      | none => []⟩
  | .leave sessionID player pc => pc.act sessionID player
  | .recv sessionID player env fuel packet => ⟨.store player (.time env.now), fun _ =>
      dispatch sessionID player env fuel packet⟩
  | .login sessionID player packet pc => pc.act sessionID player packet
  | .move player req pc => pc.act player req
  | .chat player pc => pc.act player
  | .complete sessionID player found pc => pc.act sessionID player found
  | .fault => ⟨.abort, fun _ => []⟩

/-- The server as a machine. -/
def chatServer : Machine Op Frame Choice ChatServer where
  act := Frame.act
  exec := exec

/-- A server nobody has joined, with its threads. -/
def boot (redis workers : Nat) : Conf Frame ChatServer where
  mem := ChatServer.start
  threads := List.replicate redis [.redis] ++ List.replicate workers [.worker]

/-- What a step of the server is. -/
theorem chat_step_cases {s s' : Conf Frame ChatServer} {t : Nat} {c : Choice}
    (step : chatServer.step s t c = some s') :
    ∃ (f : Frame) (rest : List Frame) (r : f.act.α) (m : ChatServer),
      s.threads[t]? = some (f :: rest) ∧ exec f.act.op c s.mem = some (r, m) ∧
        s' = ⟨m, s.threads.set t (f.act.next r ++ rest)⟩ :=
  Machine.step_cases step

theorem chat_noted_cases {H : Type}
    {note : Nat → (f : Frame) → List Frame → f.act.α → H → H} {p q : Conf Frame ChatServer × H}
    {t : Nat} {c : Choice} (step : chatServer.noted note p t c = some q) :
    ∃ (f : Frame) (rest : List Frame) (r : f.act.α) (m : ChatServer),
      p.1.threads[t]? = some (f :: rest) ∧ exec f.act.op c p.1.mem = some (r, m) ∧
        q = (⟨m, p.1.threads.set t (f.act.next r ++ rest)⟩, note t f rest r p.2) :=
  Machine.noted_cases step

end ChatThreads

end ChattingServer
