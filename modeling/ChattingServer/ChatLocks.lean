import ChattingServer.ChatThreads
import ChattingServer.Foundation.Locks

/-!
# The handlers with their locks

`ChatServer` under concurrency once more, with the locks themselves: a lock
region is the acquisitions, the work, which is that of `chatServer`, and the
releases, each a step of its own.  A thread that cannot acquire a lock waits.

A call of the session layer (`SendPacket`, `Disconnect`, `SessionUnLock`) may
come to a `ReleaseSession` of any sessions, each with its `LeaveProc` and its
`PushIndex`.  Which, a `Choice` says, as it says what a thread calls next, and
in which order `CheckTimeOut` meets the players.
-/

namespace ChattingServer

namespace ChatLocks

open ChatThreads (Use)

/-- `sector[y][x].lock` is named by its cell, `(x, y)`. -/
inductive Lock where
  | player
  | account
  | index
  | sector (cell : Nat × Nat)
  deriving DecidableEq

/-- `lockIndex`: the constructor counts the sectors row by row. -/
def lockIndex (cell : Nat × Nat) : Nat := cell.2 * dfSECTOR_MAX_X + cell.1

/-- The memory of the chat server, and its locks. -/
structure Shared where
  chat : ChatServer
  lock : Lock → RWLock

/-- What a thread calls. -/
inductive Call where
  | chat (call : ChatThreads.Call)
  /-- `CreateSession` takes an index off `indexStack`. -/
  | popIndex
  | checkTimeOut (now : UINT64)

structure Choice where
  chat : ChatThreads.Choice
  call : Call
  /-- The sessions that are released, or that `CheckTimeOut` meets. -/
  sessions : List UINT64

inductive Op : Type → Type 1
  | chat {α : Type} (op : ChatThreads.Op α) : Op α
  | acquire (l : Lock) (mode : Mode) : Op Unit
  | release (l : Lock) (mode : Mode) : Op Unit
  | pass : Op Unit
  | choose : Op Call
  /-- The sessions that a call of the session layer releases. -/
  | releases : Op (List UINT64)
  /-- The region of `CheckTimeOut`: the `kickList`. -/
  | kick (now : UINT64) : Op (List UINT64)

/-- `CheckTimeOut` puts a player on its list. -/
def timedOut (s : ChatServer) (now : UINT64) (sid : UINT64) : Bool :=
  match s.players sid with
  | none => false
  | some player =>
      let last := (s.player player).lastRecvTime
      decide (now.toNat > last.toNat) && decide (now.toNat - last.toNat > 40000)

def exec {α : Type} (op : Op α) (c : Choice) (m : Shared) : Option (α × Shared) :=
  match op with
  | .chat op => (ChatThreads.exec op c.chat m.chat).map fun (r, chat) =>
      (r, { m with chat := chat })
  | .acquire l mode => ((m.lock l).acquire mode).map fun lock =>
      ((), { m with lock := Function.update m.lock l lock })
  | .release l mode => ((m.lock l).release mode).map fun lock =>
      ((), { m with lock := Function.update m.lock l lock })
  | .pass => some ((), m)
  | .choose => some (c.call, m)
  | .releases => some (c.sessions, m)
  | .kick now => some (c.sessions.filter (timedOut m.chat now), m)

/-! ## Lock regions -/

/-- A lock region: what it acquires before the work and releases after it. -/
structure Region where
  acquires : List (Lock × Mode)
  releases : List (Lock × Mode)

/-- The region of one lock. -/
def Region.one (l : Lock) (mode : Mode) : Region := ⟨[(l, mode)], [(l, mode)]⟩

/-- The lock of a sector. -/
def sectorLock (x y : WORD) : Lock := .sector (x.toNat, y.toNat)

/-- `LockTwoSectorsExclusive`. -/
def lockTwoSectorsExclusive (x1 y1 x2 y2 : WORD) : List Lock :=
  let i1 := lockIndex (x1.toNat, y1.toNat)
  let i2 := lockIndex (x2.toNat, y2.toNat)
  if i1 = i2 then [sectorLock x1 y1]
  else if i1 < i2 then [sectorLock x1 y1, sectorLock x2 y2]
  else [sectorLock x2 y2, sectorLock x1 y1]

/-- `UnlockTwoSectorsExclusive`. -/
def unlockTwoSectorsExclusive (x1 y1 x2 y2 : WORD) : List Lock :=
  if lockIndex (x1.toNat, y1.toNat) = lockIndex (x2.toNat, y2.toNat) then [sectorLock x1 y1]
  else [sectorLock x1 y1, sectorLock x2 y2]

/-- The locks of `Req_SectorMove`, from the sector it has read to the one it was
asked for. -/
def moveRegion (ox oy x y : WORD) : Region :=
  if isValidSector ox oy then
    { acquires := (lockTwoSectorsExclusive ox oy x y).map (·, .exclusive)
      releases := (unlockTwoSectorsExclusive ox oy x y).map (·, .exclusive) }
  else
    .one (sectorLock x y) .exclusive

/-- The lock region that an operation of `chatServer` stands for.  The one of
`LeaveProc` on a sector is in `DropSector`. -/
def region : ChatThreads.Frame → Option Region
  | .acquire _ _ => some (.one .player .shared)
  | .join (.emplace _ _) => some (.one .player .exclusive)
  | .erase _ => some (.one .player .exclusive)
  | .leave _ _ .accounts => some (.one .account .exclusive)
  | .complete _ _ _ .accounts => some (.one .account .exclusive)
  | .move _ req (.sets ox oy) => some (moveRegion ox oy req.x req.y)
  | .chat _ (.scan _ _ cell _) => some (.one (.sector cell) .shared)
  | _ => none

/-- The operation is a `SendPacket`. -/
def sends : ChatThreads.Frame → Bool
  | .move _ _ (.send _) => true
  | .chat _ (.send _ _ _) => true
  | .complete _ _ _ (.send _) => true
  | _ => false

/-! ## Places -/

/-- `LeaveProc` on the sector of its player: it reads `sectorX` and `sectorY` for
the lock, for the set, and once more for `UnlockSectorExclusive`.  `x` and `y`
are what it has read for the lock; the source does not keep them. -/
inductive DropSector where
  | lockX
  | lockY (x : WORD)
  | erase (x y : WORD)
  | unlockX (x y : WORD)
  | unlockY (x y x' : WORD)

inductive Frame where
  | chat (f : ChatThreads.Frame)
  | lock (l : Lock) (mode : Mode)
  | unlock (l : Lock) (mode : Mode)
  /-- In the lock region of the operation. -/
  | work (f : ChatThreads.Frame)
  | dropSector (player : PlayerPtr) (pc : DropSector)
  /-- `PushIndex` or `PopIndex`. -/
  | index
  | indexStack
  | checkTimeOut (now : UINT64)
  | players (now : UINT64)
  /-- In a call of the session layer. -/
  | session
  | worker

@[simp] def DropSector.act (player : PlayerPtr) : DropSector → Act Op Frame
  | .lockX => ⟨.chat (.load player Player.sectorX), fun x => [.dropSector player (.lockY x)]⟩
  | .lockY x => ⟨.chat (.load player Player.sectorY), fun y =>
      if isValidSector x y then
        [.lock (sectorLock x y) .exclusive, .dropSector player (.erase x y)]
      else
        [.chat .fault]⟩
  | .erase x y => ⟨.chat (.dropSector player), fun _ => [.dropSector player (.unlockX x y)]⟩
  | .unlockX x y => ⟨.chat (.load player Player.sectorX), fun x' =>
      [.dropSector player (.unlockY x y x')]⟩
  | .unlockY _ _ x' => ⟨.chat (.load player Player.sectorY), fun y' =>
      [.unlock (sectorLock x' y') .exclusive]⟩

/-- Into a region: its locks, then the work. -/
@[simp] def Region.enter (region : Region) (work : Frame) : List Frame :=
  region.acquires.map (fun lock => .lock lock.1 lock.2) ++ [work]

@[simp] def Region.leave (region : Region) : List Frame :=
  region.releases.map fun lock => .unlock lock.1 lock.2

/-- An operation of `chatServer` outside the lock regions, or the way into one. -/
@[simp] def chatAct : ChatThreads.Frame → Act Op Frame
  | .leave sessionID player .sector => ⟨.pass, fun _ =>
      [.dropSector player .lockX, .chat (.leave sessionID player .closing)]⟩
  | f =>
      match region f with
      | some region => ⟨.pass, fun _ => region.enter (.work f)⟩
      | none => ⟨.chat f.act.op, fun r =>
          (if sends f then [.session] else []) ++ (f.act.next r).map .chat⟩

/-- The work of a region, and the way out of it. -/
@[simp] def workAct (f : ChatThreads.Frame) : Act Op Frame :=
  ⟨.chat f.act.op, fun r =>
    (match region f with
      | some region => region.leave
      | none => []) ++ (f.act.next r).map .chat⟩

@[simp] def Call.frames : Call → List Frame
  | .chat call => [.chat call.frame]
  | .popIndex => [.index]
  | .checkTimeOut now => [.checkTimeOut now]

@[simp] def Frame.act : Frame → Act Op Frame
  | .chat f => chatAct f
  | .lock l mode => ⟨.acquire l mode, fun _ => []⟩
  | .unlock l mode => ⟨.release l mode, fun _ => []⟩
  | .work f => workAct f
  | .dropSector player pc => pc.act player
  | .index => ⟨.pass, fun _ => (Region.one .index .exclusive).enter .indexStack⟩
  | .indexStack => ⟨.pass, fun _ => (Region.one .index .exclusive).leave⟩
  | .checkTimeOut now => ⟨.pass, fun _ => (Region.one .player .shared).enter (.players now)⟩
  -- a `Disconnect` for each player on the list
  | .players now => ⟨.kick now, fun kickList =>
      (Region.one .player .shared).leave ++ kickList.map fun _ => .session⟩
  | .session => ⟨.releases, fun released =>
      released.flatMap fun sid => [.chat (.erase sid), .index]⟩
  -- `OnRecv` disconnects a session whose request is turned down
  | .worker => ⟨.choose, fun call => call.frames ++ [.session, .worker]⟩

/-- The handlers with their locks, as a machine. -/
def chatLocks : Machine Op Frame Choice Shared where
  act := Frame.act
  exec := exec

/-- A chat server with its threads, no lock taken. -/
def boot (chat : ChatServer) (redis workers : Nat) : Conf Frame Shared where
  mem := ⟨chat, fun _ => .unlocked⟩
  threads := List.replicate redis [.chat .redis] ++ List.replicate workers [.worker]

end ChatLocks

end ChattingServer
