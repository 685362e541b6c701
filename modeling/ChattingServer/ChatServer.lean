import ChattingServer.Codec
import ChattingServer.Protocol

/-!
# The request handlers

`ChatServer` as one thread sees it while it handles a request: `RecvProc` and
the handlers it calls, each run to its end.  A player is named by its pointer;
a sector's set is listed without repetition.

`Env` holds what a handler finds and does not compute: the clock, the byte
`rand() % 256` draws for the response, and the initial contents of the locals
that the source leaves uninitialised.

`SendPacket` is recorded: the session it is called for and the packet.
-/

namespace ChattingServer

/-- `Player`.  Its session key is never read. -/
structure Player where
  ref : Int
  closing : Bool
  sessionID : UINT64
  accountNo : INT64
  id : Vector WCHAR 20
  nick : Vector WCHAR 20
  sectorX : WORD
  sectorY : WORD
  isLogined : Bool
  lastRecvTime : UINT64

/-- The bytes of a `WCHAR[20]`. -/
def nameBytes (name : Vector WCHAR 20) : List BYTE := name.toList.flatMap bytesOf

theorem length_nameBytes (name : Vector WCHAR 20) : (nameBytes name).length = 40 := by
  simp [nameBytes, List.length_flatMap]

/-- `Reset`. -/
def Player.reset : Player where
  ref := 1
  closing := false
  sessionID := 0
  accountNo := 0
  id := Vector.replicate 20 0
  nick := Vector.replicate 20 0
  sectorX := -1
  sectorY := -1
  isLogined := false
  lastRecvTime := 0

/-- Forty bytes as a `WCHAR[20]`. -/
def nameOf (bytes : List BYTE) : Vector WCHAR 20 := Vector.ofFn fun i => wordAt bytes (2 * i)

/-- `GetData` into a `WCHAR[20]`: a failed read leaves it as it was found. -/
def getName (name : Vector WCHAR 20) : Option (List BYTE) → Vector WCHAR 20
  | none => name
  | some bytes => nameOf bytes

/-- `wcscpy_s` between two `WCHAR[20]`: none for a source without a terminator,
at which the run-time library ends the process. -/
def wcscpy_s (dest src : Vector WCHAR 20) : Option (Vector WCHAR 20) :=
  let len := src.toList.findIdx (· == 0)
  if len < 20 then
    some (Vector.ofFn fun i => if i.val ≤ len then src.get i else dest.get i)
  else
    none

abbrev PlayerPtr : Type := Nat

/-- What a handler finds: the clock, the key byte drawn for the response, and
the uninitialised `x` and `y` of `Req_SectorMove` and `msg` of `Req_Chat`. -/
structure Env where
  now : UINT64
  randKey : BYTE
  x : WORD
  y : WORD
  msg : Memory BYTE

/-- What `CompleteLogin` finds: the uninitialised `id` and `nick`, and the key
byte drawn for the response. -/
structure LoginEnv where
  id : Vector WCHAR 20
  nick : Vector WCHAR 20
  randKey : BYTE

structure ChatServer where
  player : PlayerPtr → Player
  /-- The free blocks of the pool, and how many blocks it has made. -/
  playerPool : List PlayerPtr
  playerBlocks : Nat
  players : UINT64 → Option PlayerPtr
  accounts : INT64 → Option UINT64
  /-- `sector[y][x].set`. -/
  sector : Nat → Nat → List PlayerPtr
  redisQ : List (UINT64 × CPacket)
  sent : List (UINT64 × CPacket)

def isValidSector (x y : WORD) : Bool :=
  decide (x.toNat < dfSECTOR_MAX_X) && decide (y.toNat < dfSECTOR_MAX_Y)

/-- `MakeAround`: the offsets are added as `int`s, tested as `WORD`s. -/
def makeAround (x y : WORD) : List (Int × Int) :=
  [-1, 0, 1].flatMap fun dy : Int =>
    [-1, 0, 1].filterMap fun dx : Int =>
      if isValidSector (BitVec.ofInt 16 (x.toNat + dx)) (BitVec.ofInt 16 (y.toNat + dy)) then
        some (x.toNat + dx, y.toNat + dy)
      else
        none

namespace ChatServer

/-- A server nobody has joined. -/
def start : ChatServer where
  player := fun _ => Player.reset
  playerPool := []
  playerBlocks := 0
  players := fun _ => none
  accounts := fun _ => none
  sector := fun _ _ => []
  redisQ := []
  sent := []

variable (s : ChatServer)

def updatePlayer (player : PlayerPtr) (f : Player → Player) : ChatServer :=
  { s with player := Function.update s.player player (f (s.player player)) }

def updateSector (x y : WORD) (f : List PlayerPtr → List PlayerPtr) : ChatServer :=
  { s with
    sector := Function.update s.sector y.toNat
      (Function.update (s.sector y.toNat) x.toNat (f (s.sector y.toNat x.toNat))) }

def addRefPlayer (player : PlayerPtr) : ChatServer :=
  s.updatePlayer player fun p => { p with ref := p.ref + 1 }

def releasePlayer (player : PlayerPtr) : ChatServer :=
  let s := s.updatePlayer player fun p => { p with ref := p.ref - 1 }
  if (s.player player).ref = 0 then { s with playerPool := player :: s.playerPool } else s

def acquirePlayer (sessionID : UINT64) : Option PlayerPtr × ChatServer :=
  match s.players sessionID with
  | none => (none, s)
  | some player =>
      let s := s.addRefPlayer player
      if (s.player player).closing then
        (none, s.releasePlayer player)
      else
        (some player, s)

/-- `playerPool.Alloc()`. -/
def allocPlayer : PlayerPtr × ChatServer :=
  match s.playerPool with
  | player :: rest => (player, { s with playerPool := rest })
  | [] => (s.playerBlocks, { s with playerBlocks := s.playerBlocks + 1 })

def joinProc (now sessionID : UINT64) : Bool × ChatServer :=
  let (player, s) := s.allocPlayer
  let s := s.updatePlayer player fun _ =>
    { Player.reset with sessionID := sessionID, lastRecvTime := now }
  if (s.players sessionID).isSome then
    (false, { s with playerPool := player :: s.playerPool })
  else
    (true, { s with players := Function.update s.players sessionID (some player) })

def leaveProc (sessionID : UINT64) : Bool × ChatServer :=
  match s.players sessionID with
  | none => (true, s)
  | some player =>
      let s := { s with players := Function.update s.players sessionID none }
      let s := (s.addRefPlayer player).updatePlayer player fun p => { p with closing := true }
      let p := s.player player
      let s :=
        if p.isLogined ∧ p.accountNo ≠ (0 : INT64) ∧ s.accounts p.accountNo = some sessionID then
          { s with accounts := Function.update s.accounts p.accountNo none }
        else
          s
      let s :=
        if isValidSector p.sectorX p.sectorY then
          s.updateSector p.sectorX p.sectorY (·.erase player)
        else
          s
      let s := s.updatePlayer player fun p => { p with closing := true }
      (true, s.releasePlayer player)

/-- `SendPacket`, for a packet that is encoded. -/
def sendPacket (sessionID : UINT64) (packet : CPacket) : ChatServer :=
  { s with sent := s.sent ++ [(sessionID, packet)] }

/-- `EnqueueRedis`: the push fails, and is not looked at, when the queue is
full. -/
def enqueueRedis (sessionID : UINT64) (packet : CPacket) : ChatServer :=
  if s.redisQ.length < redisCapacity then
    { s with redisQ := s.redisQ ++ [(sessionID, packet)] }
  else
    s

def reqLoginRedis (sessionID : UINT64) (player : PlayerPtr) (packet : CPacket) :
    Bool × ChatServer :=
  let p := s.player player
  if p.closing then
    (false, s)
  else if p.sessionID ≠ sessionID then
    (false, s)
  else if p.accountNo ≠ 0 || p.isLogined then
    (false, s)
  else
    (true, s.enqueueRedis sessionID packet)

def resSectorMove (env : Env) (fuel : Nat) (account : INT64) (x y : WORD) :
    Except Fault CPacket := do
  let packet ← CPacket.alloc.writeValue fuel en_PACKET_CS_CHAT_RES_SECTOR_MOVE
  let packet ← packet.writeValue fuel account
  let packet ← packet.writeValue fuel x
  let packet ← packet.writeValue fuel y
  return packet.setEncodingCode env.randKey

def reqSectorMove (env : Env) (fuel : Nat) (sessionID : UINT64) (player : PlayerPtr)
    (packet : CPacket) : Except Fault (Bool × ChatServer) :=
  let (account, packet) := packet.readValue (0 : INT64)
  let (x, packet) := packet.readValue env.x
  let (y, _) := packet.readValue env.y
  if isValidSector x y = false then
    .ok (false, s)
  else
    let ox := (s.player player).sectorX
    let oy := (s.player player).sectorY
    let s := if isValidSector ox oy then s.updateSector ox oy (·.erase player) else s
    let s := s.updateSector x y (·.insert player)
    let s := s.updatePlayer player fun p =>
      { p with sectorX := x, sectorY := y, lastRecvTime := env.now }
    match resSectorMove env fuel account x y with
    | .error fault => .error fault
    | .ok res => .ok (true, s.sendPacket sessionID res)

/-- The bytes of `WCHAR msg[1024]`. -/
def msgSize : Nat := 2048

/-- `GetData` into `msg`: a failed read leaves it as it was found. -/
def getMsg (msg : Memory BYTE) : Option (List BYTE) → Except Fault (Memory BYTE)
  | none => .ok msg
  | some bytes => if bytes.length ≤ msgSize then .ok (msg.write 0 bytes) else .error .overrun

/-- `msg[wlen] = 0`, with the index clamped to the buffer. -/
def terminateMsg (msg : Memory BYTE) (len : WORD) : Except Fault (Memory BYTE) :=
  let wlen := len.toNat / 2
  let wlen := if wlen ≥ 1024 then 1023 else wlen
  if 2 * wlen + 2 ≤ msgSize then .ok (msg.write (2 * wlen) [0, 0]) else .error .overrun

def resChat (env : Env) (fuel : Nat) (player : Player) (msg : Memory BYTE) (len : WORD) :
    Except Fault CPacket := do
  let packet ← CPacket.alloc.writeValue fuel en_PACKET_CS_CHAT_RES_MESSAGE
  let packet ← packet.writeValue fuel player.accountNo
  let packet ← packet.putData fuel (nameBytes player.id)
  let packet ← packet.putData fuel (nameBytes player.nick)
  let packet ← packet.writeValue fuel len
  let packet ← packet.putData fuel (msg.read 0 len.toNat)
  let _ ← terminateMsg msg len
  return packet.setEncodingCode env.randKey

/-- The sessions `Req_Chat` collects: the logged-in players around a sector. -/
def targets (cx cy : WORD) : List UINT64 :=
  (makeAround cx cy).flatMap fun (x, y) =>
    (s.sector (BitVec.ofInt 16 y).toNat (BitVec.ofInt 16 x).toNat).filterMap fun t =>
      if (s.player t).isLogined then some (s.player t).sessionID else none

def reqChat (env : Env) (fuel : Nat) (player : PlayerPtr) (packet : CPacket) :
    Except Fault (Bool × ChatServer) :=
  if (s.player player).isLogined = false then
    .ok (false, s)
  else
    let (_, packet) := packet.readValue (0 : INT64)
    let (msgLenBytes, packet) := packet.readValue (0 : WORD)
    if msgLenBytes = 0 then
      .ok (false, s)
    else do
      let msg ← getMsg env.msg (packet.getData msgLenBytes.toNat).1
      let res ← resChat env fuel (s.player player) msg msgLenBytes
      let cx := (s.player player).sectorX
      let cy := (s.player player).sectorY
      if isValidSector cx cy = false then
        return (false, s)
      else
        return (true, (s.targets cx cy).foldl (fun s sid => s.sendPacket sid res) s)

/-- The `switch` of `RecvProc`. -/
def dispatch (env : Env) (fuel : Nat) (sessionID : UINT64) (player : PlayerPtr) (type : WORD)
    (packet : CPacket) : Except Fault (Bool × ChatServer) :=
  if type = en_PACKET_CS_CHAT_REQ_LOGIN then
    .ok (s.reqLoginRedis sessionID player packet)
  else if type = en_PACKET_CS_CHAT_REQ_SECTOR_MOVE then
    s.reqSectorMove env fuel sessionID player packet
  else if type = en_PACKET_CS_CHAT_REQ_MESSAGE then
    s.reqChat env fuel player packet
  else if type = en_PACKET_CS_CHAT_REQ_HEARTBEAT then
    .ok (true, s)
  else
    .ok (false, s)

def recvProc (env : Env) (fuel : Nat) (sessionID : UINT64) (packet : CPacket) :
    Except Fault (Bool × ChatServer) :=
  match s.acquirePlayer sessionID with
  | (none, s) => .ok (false, s)
  | (some player, s) =>
      let s := s.updatePlayer player fun p => { p with lastRecvTime := env.now }
      let type := packet.readValue (0 : WORD)
      (s.dispatch env fuel sessionID player type.1 type.2).map fun (ok, s) =>
        (ok, s.releasePlayer player)

def resLogin (randKey : BYTE) (fuel : Nat) (account : INT64) (status : BYTE) :
    Except Fault CPacket := do
  let packet ← CPacket.alloc.writeValue fuel en_PACKET_CS_CHAT_RES_LOGIN
  let packet ← packet.writeValue fuel status
  let packet ← packet.writeValue fuel account
  return packet.setEncodingCode randKey

/-- `CompleteLogin`, of a session and what `RedisThread` found out about its
login: none if it does not return. -/
def completeLogin (env : LoginEnv) (fuel : Nat) (sessionID : UINT64) (packet : CPacket)
    (success : Bool) : Option (Bool × ChatServer) :=
  match s.acquirePlayer sessionID with
  | (none, s) => some (true, s)
  | (some player, s) =>
      if (s.player player).sessionID ≠ sessionID then
        some (false, s)
      else if (s.player player).closing then
        some (true, s.releasePlayer player)
      else
        let (account, packet) := packet.readValue (0 : INT64)
        let (idBytes, packet) := packet.getData dfID_LEN
        let (nickBytes, _) := packet.getData dfNiCK_LEN
        if success then do
          let s := { s with accounts := Function.update s.accounts account (some sessionID) }
          let id ← wcscpy_s (s.player player).id (getName env.id idBytes)
          let nick ← wcscpy_s (s.player player).nick (getName env.nick nickBytes)
          let s := s.updatePlayer player fun p =>
            { p with isLogined := true, accountNo := account, id := id, nick := nick }
          let res ← (resLogin env.randKey fuel account 1).toOption
          return (true, (s.sendPacket sessionID res).releasePlayer player)
        else do
          let res ← (resLogin env.randKey fuel account 0).toOption
          return (true, (s.sendPacket sessionID res).releasePlayer player)

def makeLoginResult (fuel : Nat) (account : INT64) (id nick : Vector WCHAR 20) :
    Except Fault CPacket := do
  let packet ← CPacket.alloc.writeValue fuel account
  let packet ← packet.putData fuel (nameBytes id)
  packet.putData fuel (nameBytes nick)

/-- One round of `RedisThread`, on the job at the front of its queue; `ok` is
whether Redis gave the session key back. -/
def redisThread (env : LoginEnv) (fuel : Nat) (ok : Bool) : Option (Bool × ChatServer) :=
  match s.redisQ with
  | [] => some (true, s)
  | (sessionID, packet) :: jobs => do
      let s := { s with redisQ := jobs }
      let (account, packet) := packet.readValue (0 : INT64)
      let (idBytes, packet) := packet.getData dfID_LEN
      let (nickBytes, _) := packet.getData dfNiCK_LEN
      let zero := Vector.replicate 20 0
      let result ← (makeLoginResult fuel account (getName zero idBytes)
        (getName zero nickBytes)).toOption
      s.completeLogin env fuel sessionID result ok

end ChatServer

end ChattingServer
