import ChattingServer.Types
import ChattingServer.Foundation.Threads
import Mathlib.Logic.Function.Basic

/-!
# The session layer under concurrency

`IOCPServer` with its threads: the accept thread, workers, the Redis thread
and any other callers of `SendPacket` and `Disconnect`.  An `Op` is one
interlocked operation, lock region, queue operation or field access; a `Frame`
is a place in a function of the source with the operation that comes next.

Sessions are named by their slot, packets by their pointer.  The content of
packets and receive rings is not part of this memory: what `RecvComplete`
finds in a ring and what a handler answers are outcomes of `ring`, `outcome`
and `request`.  `recvOut` and `sendOut` count the overlapped operations the
kernel still owes a completion.  A completion may be picked up by any worker at
any later time, with any number of bytes.

`log` records what happened, newest first.  No function reads it.
-/

namespace ChattingServer

abbrev PacketPtr : Type := Nat

/-- `COMBINE_ID_INDEX`. -/
def combineIdIndex (ID INDEX : UINT64) : UINT64 := (ID <<< 48) ||| INDEX

/-- `GET_SESSION_INDEX`. -/
def getSessionIndex (ID : UINT64) : Nat := (ID &&& 0xffff).toNat

/-- `Session`, and the operations the kernel has outstanding on it. -/
structure Session where
  sock : Option Nat
  sessionID : UINT64
  index : Nat
  isSendFlag : Bool
  sendCount : Nat
  isReleased : Bool
  ioCount : Int
  sendBuf : List PacketPtr
  completeSendBuf : List PacketPtr
  recvOut : Nat
  sendOut : Nat

/-- `Session()`. -/
def Session.new : Session where
  sock := none
  sessionID := -1
  index := 0
  isSendFlag := false
  sendCount := 0
  isReleased := false
  ioCount := 0
  sendBuf := []
  completeSendBuf := []
  recvOut := 0
  sendOut := 0

/-- What has happened, for the record. -/
inductive Event where
  /-- `CreateSession` has taken a slot's index. -/
  | create (slot : Nat)
  | join (slot : Nat) (id : UINT64)
  /-- A `ReleaseSession` of the slot has called `OnClientLeave`. -/
  | leave (slot : Nat) (id : UINT64)
  /-- A `ReleaseSession` of the slot has pushed an index. -/
  | push (slot index : Nat)
  | close (slot : Nat) (sock : Option Nat)
  deriving DecidableEq

/-- What the server itself keeps. -/
structure Server where
  indexStack : List Nat
  sessionCount : Int
  sessionID : UINT64
  log : List Event

/-- The packets of `g_PacketPool`, and `redisQ`. -/
structure Packets where
  refs : PacketPtr → Int
  pool : List PacketPtr
  blocks : Nat
  redisQ : List (UINT64 × PacketPtr)

/-- The memory of a server with `n` slots. -/
structure Shared (n : Nat) where
  slot : Fin n → Session
  server : Server
  packets : Packets

/-- A server as `Start` leaves it.  The counter of session IDs is never
initialised. -/
def Shared.start (n : Nat) (sessionID : UINT64) : Shared n where
  slot := fun _ => Session.new
  server :=
    { indexStack := List.range n
      sessionCount := 0
      sessionID := sessionID
      log := [] }
  packets :=
    { refs := fun _ => 0
      pool := []
      blocks := 0
      redisQ := [] }

/-! ## Operations -/

/-- Operations on the fields of one session. -/
inductive SessionOp : Type → Type
  /-- `InterlockedIncrement(&ioCount)`. -/
  | incIo : SessionOp Unit
  /-- `InterlockedDecrement(&ioCount) == 0`. -/
  | decIo : SessionOp Bool
  | ioIsZero : SessionOp Bool
  | clearIo : SessionOp Unit
  | isReleased : SessionOp Bool
  /-- `InterlockedCompareExchange(&isReleased, TRUE, FALSE) == TRUE`. -/
  | casReleased : SessionOp Bool
  | clearReleased : SessionOp Unit
  | idIs (id : UINT64) : SessionOp Bool
  | loadID : SessionOp UINT64
  | storeID (id : UINT64) : SessionOp Unit
  | loadIndex : SessionOp Nat
  | storeIndex (index : Nat) : SessionOp Unit
  | loadSock : SessionOp (Option Nat)
  | storeSock (sock : Option Nat) : SessionOp Unit
  /-- `InterlockedCompareExchange(&isSendFlag, 1, 0) == 0`. -/
  | casSendFlag : SessionOp Bool
  | clearSendFlag : SessionOp Unit
  | loadSendCount : SessionOp Nat
  | storeSendCount (count : Nat) : SessionOp Unit
  | pushSend (p : PacketPtr) : SessionOp Unit
  | popSend : SessionOp (Option PacketPtr)
  | pushComplete (p : PacketPtr) : SessionOp Unit
  | popComplete : SessionOp (Option PacketPtr)

/-- A `push` that nobody looks at the result of. -/
def pushBounded {α : Type} (capacity : Nat) (queue : List α) (x : α) : List α :=
  if queue.length < capacity then queue ++ [x] else queue

def SessionOp.exec (s : Session) : {α : Type} → SessionOp α → α × Session
  | _, .incIo => ((), { s with ioCount := s.ioCount + 1 })
  | _, .decIo => (decide (s.ioCount - 1 = 0), { s with ioCount := s.ioCount - 1 })
  | _, .ioIsZero => (decide (s.ioCount = 0), s)
  | _, .clearIo => ((), { s with ioCount := 0 })
  | _, .isReleased => (s.isReleased, s)
  | _, .casReleased => (s.isReleased, { s with isReleased := true })
  | _, .clearReleased => ((), { s with isReleased := false })
  | _, .idIs id => (decide (id = s.sessionID), s)
  | _, .loadID => (s.sessionID, s)
  | _, .storeID id => ((), { s with sessionID := id })
  | _, .loadIndex => (s.index, s)
  | _, .storeIndex index => ((), { s with index := index })
  | _, .loadSock => (s.sock, s)
  | _, .storeSock sock => ((), { s with sock := sock })
  | _, .casSendFlag => (!s.isSendFlag, { s with isSendFlag := true })
  | _, .clearSendFlag => ((), { s with isSendFlag := false })
  | _, .loadSendCount => (s.sendCount, s)
  | _, .storeSendCount count => ((), { s with sendCount := count })
  | _, .pushSend p => ((), { s with sendBuf := pushBounded sendCapacity s.sendBuf p })
  | _, .popSend => (s.sendBuf.head?, { s with sendBuf := s.sendBuf.tail })
  | _, .pushComplete p =>
      ((), { s with completeSendBuf := pushBounded sendCapacity s.completeSendBuf p })
  | _, .popComplete =>
      (s.completeSendBuf.head?, { s with completeSendBuf := s.completeSendBuf.tail })

/-- Operations on what the server keeps. -/
inductive ServerOp : Type → Type
  /-- `sessionCount >= maxClientCount`. -/
  | isFull (maxClientCount : Nat) : ServerOp Bool
  | popIndex : ServerOp Nat
  /-- `PushIndex(index)` in the `ReleaseSession` of `slot`. -/
  | pushIndex (slot index : Nat) : ServerOp Unit
  | incSessions : ServerOp Unit
  | decSessions : ServerOp Unit
  /-- `++sessionID`. -/
  | nextID : ServerOp UINT64
  | onClientJoin (slot : Nat) (id : UINT64) : ServerOp Unit
  | onClientLeave (slot : Nat) (id : UINT64) : ServerOp Unit
  | closesocket (slot : Nat) (sock : Option Nat) : ServerOp Unit

def Server.record (s : Server) (e : Event) : Server := { s with log := e :: s.log }

/-- A pop from an empty `indexStack` has no result. -/
def ServerOp.exec (s : Server) : {α : Type} → ServerOp α → Option (α × Server)
  | _, .isFull maxClientCount => some (decide (s.sessionCount ≥ maxClientCount), s)
  | _, .popIndex =>
      match s.indexStack with
      | index :: rest => some (index, { s with indexStack := rest }.record (.create index))
      | [] => none
  | _, .pushIndex slot index =>
      some ((), { s with indexStack := index :: s.indexStack }.record (.push slot index))
  | _, .incSessions => some ((), { s with sessionCount := s.sessionCount + 1 })
  | _, .decSessions => some ((), { s with sessionCount := s.sessionCount - 1 })
  | _, .nextID => some (s.sessionID + 1, { s with sessionID := s.sessionID + 1 })
  | _, .onClientJoin slot id => some ((), s.record (.join slot id))
  | _, .onClientLeave slot id => some ((), s.record (.leave slot id))
  | _, .closesocket slot sock => some ((), s.record (.close slot sock))

/-- Operations on packets and on `redisQ`. -/
inductive PacketOp : Type → Type
  | takeBlock : PacketOp PacketPtr
  | setRef (p : PacketPtr) : PacketOp Unit
  | addRef (p : PacketPtr) : PacketOp Unit
  /-- `InterlockedDecrement(&m_lRefCount) == 0`. -/
  | subRef (p : PacketPtr) : PacketOp Bool
  | freeBlock (p : PacketPtr) : PacketOp Unit
  | pushRedis (id : UINT64) (p : PacketPtr) : PacketOp Unit
  | popRedis : PacketOp (Option (UINT64 × PacketPtr))

def PacketOp.exec (k : Packets) : {α : Type} → PacketOp α → α × Packets
  | _, .takeBlock =>
      match k.pool with
      | p :: rest => (p, { k with pool := rest })
      | [] => (k.blocks, { k with blocks := k.blocks + 1 })
  | _, .setRef p => ((), { k with refs := Function.update k.refs p 1 })
  | _, .addRef p => ((), { k with refs := Function.update k.refs p (k.refs p + 1) })
  | _, .subRef p =>
      (decide (k.refs p - 1 = 0), { k with refs := Function.update k.refs p (k.refs p - 1) })
  | _, .freeBlock p => ((), { k with pool := p :: k.pool })
  | _, .pushRedis id p => ((), { k with redisQ := pushBounded redisCapacity k.redisQ (id, p) })
  | _, .popRedis => (k.redisQ.head?, { k with redisQ := k.redisQ.tail })

/-- What `RecvComplete` finds in the ring: no complete frame, a header it does
not accept, or a frame. -/
inductive RingResult where
  | stop
  | bad
  | frame
  deriving DecidableEq

/-- What the handler of a request does with the session layer. -/
inductive Request where
  | accept
  | reject
  | login
  | reply (targets : List UINT64)
  | replyReject

/-- What a thread outside the server calls. -/
inductive Call where
  | disconnect (id : UINT64)
  | broadcast (targets : List UINT64)

/-- A completion packet. -/
structure Completion (n : Nat) where
  slot : Fin n
  isSend : Bool
  transferred : Nat

/-- What the threads do not determine. -/
inductive OutsideOp (n : Nat) : Type → Type
  | accept : OutsideOp n (Option Nat)
  | ring : OutsideOp n RingResult
  | outcome : OutsideOp n Bool
  | request : OutsideOp n Request
  | call : OutsideOp n Call

/-- What the outside world decides in a step. -/
inductive Choice (n : Nat) where
  | none
  | socket (sock : Option Nat)
  | outcome (ok : Bool)
  | completed (c : Completion n)
  | ring (r : RingResult)
  | request (r : Request)
  | call (c : Call)

def OutsideOp.exec {n : Nat} : {α : Type} → OutsideOp n α → Choice n → Option α
  | _, .accept, .socket sock => some sock
  | _, .ring, .ring r => some r
  | _, .outcome, .outcome ok => some ok
  | _, .request, .request r => some r
  | _, .call, .call c => some c
  | _, _, _ => none

inductive Op (n : Nat) : Type → Type 1
  | session {α : Type} (i : Fin n) (op : SessionOp α) : Op n α
  | server {α : Type} (op : ServerOp α) : Op n α
  | packet {α : Type} (op : PacketOp α) : Op n α
  | outside {α : Type} (op : OutsideOp n α) : Op n α
  /-- Whether `WSARecv` was accepted, at once or pending. -/
  | wsaRecv (i : Fin n) : Op n Bool
  | wsaSend (i : Fin n) : Op n Bool
  | completion : Op n (Completion n)
  /-- What the language leaves undefined. -/
  | undefined : Op n Unit

/-- The kernel has taken a receive, or a send. -/
def Session.outstanding (s : Session) (isSend : Bool) : Session :=
  if isSend then { s with sendOut := s.sendOut + 1 } else { s with recvOut := s.recvOut + 1 }

/-- The kernel has completed one, if one was outstanding. -/
def Session.completed (s : Session) (isSend : Bool) : Option Session :=
  if isSend then
    if 0 < s.sendOut then some { s with sendOut := s.sendOut - 1 } else none
  else
    if 0 < s.recvOut then some { s with recvOut := s.recvOut - 1 } else none

theorem Session.completed_cases {s s' : Session} {isSend : Bool}
    (done : s.completed isSend = some s') :
    (isSend = true ∧ 0 < s.sendOut ∧ s' = { s with sendOut := s.sendOut - 1 }) ∨
      (isSend = false ∧ 0 < s.recvOut ∧ s' = { s with recvOut := s.recvOut - 1 }) := by
  unfold completed at done
  split_ifs at done with send out out
  · exact Or.inl ⟨send, out, (Option.some.inj done).symm⟩
  · exact Or.inr ⟨eq_false_of_ne_true send, out, (Option.some.inj done).symm⟩

def Shared.setSlot {n : Nat} (m : Shared n) (i : Fin n) (s : Session) : Shared n :=
  { m with slot := Function.update m.slot i s }

section SetSlot

variable {n : Nat} (m : Shared n)

@[simp] theorem Shared.slot_setSlot_self (i : Fin n) (s : Session) : (m.setSlot i s).slot i = s :=
  Function.update_self ..

theorem Shared.slot_setSlot_of_ne {i j : Fin n} (other : j ≠ i) (s : Session) :
    (m.setSlot i s).slot j = m.slot j :=
  Function.update_of_ne other ..

theorem Shared.setSlot_setSlot (i : Fin n) (s s' : Session) :
    (m.setSlot i s).setSlot i s' = m.setSlot i s' := by
  unfold setSlot
  rw [Function.update_idem]

@[simp] theorem Shared.setSlot_slot (i : Fin n) : m.setSlot i (m.slot i) = m := by
  unfold setSlot
  rw [Function.update_eq_self]

end SetSlot

/-- A call of `WSARecv` or `WSASend` on the session. -/
def Shared.issue {n : Nat} (m : Shared n) (i : Fin n) (isSend : Bool) (c : Choice n) :
    Option (Bool × Shared n) :=
  match c with
  | .outcome true => some (true, m.setSlot i ((m.slot i).outstanding isSend))
  | .outcome false => some (false, m)
  | _ => none

theorem Shared.issue_cases {n : Nat} {m m' : Shared n} {i : Fin n} {isSend : Bool} {c : Choice n}
    {r : Bool} (done : m.issue i isSend c = some (r, m')) :
    (r = true ∧ m' = m.setSlot i ((m.slot i).outstanding isSend)) ∨ (r = false ∧ m' = m) := by
  unfold issue at done
  split at done <;> cases done
  · exact Or.inl ⟨rfl, rfl⟩
  · exact Or.inr ⟨rfl, rfl⟩

/-- A completion packet is handed to a worker. -/
def Shared.complete {n : Nat} (m : Shared n) (c : Choice n) : Option (Completion n × Shared n) :=
  match c with
  | .completed c => ((m.slot c.slot).completed c.isSend).map fun s => (c, m.setSlot c.slot s)
  | _ => none

theorem Shared.complete_cases {n : Nat} {m m' : Shared n} {c : Choice n} {r : Completion n}
    (done : m.complete c = some (r, m')) :
    ∃ s, (m.slot r.slot).completed r.isSend = some s ∧ m' = m.setSlot r.slot s := by
  unfold complete at done
  split at done
  · obtain ⟨s, completed, same⟩ := Option.map_eq_some_iff.mp done
    cases same
    exact ⟨s, completed, rfl⟩
  · cases done

/-- One operation on the memory. -/
def exec {n : Nat} {α : Type} (op : Op n α) (c : Choice n) (m : Shared n) :
    Option (α × Shared n) :=
  match op with
  | .session i op => some ((op.exec (m.slot i)).1, m.setSlot i (op.exec (m.slot i)).2)
  | .server op => (op.exec m.server).map fun (r, server) => (r, { m with server := server })
  | .packet op => some ((op.exec m.packets).1, { m with packets := (op.exec m.packets).2 })
  | .outside op => (op.exec c).map fun r => (r, m)
  | .wsaRecv i => m.issue i false c
  | .wsaSend i => m.issue i true c
  | .completion => m.complete c
  | .undefined => none

/-- The operation, with its result, has to do with slot `i`. -/
def Op.touches {n : Nat} (i : Fin n) : {α : Type} → Op n α → α → Bool
  | _, .session j _, _ => j = i
  | _, .wsaRecv j, accepted => accepted && j = i
  | _, .wsaSend j, accepted => accepted && j = i
  | _, .completion, c => c.slot = i
  | _, _, _ => false

/-- What an operation with its result makes of the session in slot `i`. -/
inductive SlotStep {n : Nat} (i : Fin n) (s : Session) :
    {α : Type} → Op n α → α → Session → Prop
  | away {α : Type} {op : Op n α} {r : α} (away : op.touches i r = false) : SlotStep i s op r s
  | session {α : Type} (op : SessionOp α) :
      SlotStep i s (.session i op) (op.exec s).1 (op.exec s).2
  | recv : SlotStep i s (.wsaRecv i) true { s with recvOut := s.recvOut + 1 }
  | send : SlotStep i s (.wsaSend i) true { s with sendOut := s.sendOut + 1 }
  | received (transferred : Nat) (out : 0 < s.recvOut) :
      SlotStep i s .completion ⟨i, false, transferred⟩ { s with recvOut := s.recvOut - 1 }
  | sent (transferred : Nat) (out : 0 < s.sendOut) :
      SlotStep i s .completion ⟨i, true, transferred⟩ { s with sendOut := s.sendOut - 1 }

theorem slot_exec {n : Nat} {α : Type} (i : Fin n) {op : Op n α} {c : Choice n} {m m' : Shared n}
    {r : α} (done : exec op c m = some (r, m')) : SlotStep i (m.slot i) op r (m'.slot i) := by
  cases op with
  | session j op =>
      cases done
      rcases eq_or_ne j i with rfl | other
      · rw [m.slot_setSlot_self]
        exact .session op
      · rw [m.slot_setSlot_of_ne other.symm]
        exact .away (decide_eq_false other)
  | server op =>
      obtain ⟨⟨r', server⟩, -, same⟩ := Option.map_eq_some_iff.mp done
      cases same
      exact .away rfl
  | packet op =>
      cases done
      exact .away rfl
  | outside op =>
      obtain ⟨r', -, same⟩ := Option.map_eq_some_iff.mp done
      cases same
      exact .away rfl
  | wsaRecv j =>
      rcases Shared.issue_cases done with ⟨rfl, rfl⟩ | ⟨rfl, rfl⟩
      · rcases eq_or_ne j i with rfl | other
        · rw [m.slot_setSlot_self]
          exact .recv
        · rw [m.slot_setSlot_of_ne other.symm]
          exact .away (decide_eq_false other)
      · exact .away rfl
  | wsaSend j =>
      rcases Shared.issue_cases done with ⟨rfl, rfl⟩ | ⟨rfl, rfl⟩
      · rcases eq_or_ne j i with rfl | other
        · rw [m.slot_setSlot_self]
          exact .send
        · rw [m.slot_setSlot_of_ne other.symm]
          exact .away (decide_eq_false other)
      · exact .away rfl
  | completion =>
      obtain ⟨s, completed, rfl⟩ := Shared.complete_cases done
      obtain ⟨j, isSend, transferred⟩ := r
      rcases eq_or_ne j i with rfl | other
      · rw [m.slot_setSlot_self]
        rcases Session.completed_cases completed with ⟨rfl, out, rfl⟩ | ⟨rfl, out, rfl⟩
        · exact .sent transferred out
        · exact .received transferred out
      · rw [m.slot_setSlot_of_ne other.symm]
        exact .away (decide_eq_false other)
  | undefined => cases done

/-! ## Places in the functions -/

inductive AcceptThread (n : Nat) where
  | accept
  | full (sock : Nat)
  | pop (sock : Nat)
  | nextID (i : Fin n) (sock : Nat)
  | setID (i : Fin n) (sock : Nat) (id : UINT64)
  | setIndex (i : Fin n) (sock : Nat)
  | setSock (i : Fin n) (sock : Nat)
  | count (i : Fin n)
  | loadID (i : Fin n)
  | join (i : Fin n) (id : UINT64)

/-- Who called `PostRecv`. -/
inductive Caller where
  | accept
  | worker
  deriving DecidableEq

inductive PostRecv where
  | check
  | inc
  | issue
  | undo

inductive DisConnect where
  | cas
  | loadSock
  | close (sock : Option Nat)
  | clearSock
  | check

/-- `ReleaseSession`, from `loadIndex` on with the index it has read, the
stores of `Init` in their order. -/
inductive ReleaseSession where
  | loadID
  | leave (id : UINT64)
  | drainSend
  | drainComplete
  | loadIndex
  | initSock (index : Nat)
  | initID (index : Nat)
  | initIndex (index : Nat)
  | initSendFlag (index : Nat)
  | initSendCount (index : Nat)
  | initDrainSend (index : Nat)
  | initDrainComplete (index : Nat)
  | initReleased (index : Nat)
  | initIo (index : Nat)
  | push (index : Nat)
  | count

/-- `SessionLock` behind its increment. -/
inductive SessionLock where
  | id
  | released
  | idAgain
  | releasedAgain
  | fail
  | failAgain

/-- What a session is locked for. -/
inductive LockUse where
  | send (p : PacketPtr)
  | disconnect

inductive SendPacket where
  | addRef
  | push
  | check

inductive PostSend where
  | cas
  | pop (pktCount : Nat)
  | move (p : PacketPtr) (pktCount : Nat)
  | clear
  | count (pktCount : Nat)
  | inc
  | issue
  | undo

/-- `SendComplete`; `pop k` has `k` more rounds after its own. -/
inductive SendComplete where
  | count
  | zero (cnt : Nat)
  | pop (k : Nat)
  | clear
  | check

inductive RecvComplete where
  | ring
  | dequeue (p : PacketPtr)
  | decode (p : PacketPtr)
  | handle (p : PacketPtr)
  | check

inductive WorkerThread (n : Nat) where
  | idle
  | dec (i : Fin n)
  | check (i : Fin n)

/-- What a packet is allocated for. -/
inductive AllocUse (n : Nat) where
  | frame (i : Fin n)
  | response (targets : List UINT64)
  | loginResult (id : UINT64) (job : PacketPtr)

inductive Frame (n : Nat) where
  | acceptThread (pc : AcceptThread n)
  | postRecv (pc : PostRecv) (i : Fin n) (who : Caller)
  | disConnect (pc : DisConnect) (i : Fin n)
  | releaseSession (pc : ReleaseSession) (i : Fin n)
  | lock (id : UINT64) (use : LockUse)
  | sessionLock (pc : SessionLock) (i : Fin n) (id : UINT64) (use : LockUse)
  | sessionUnLock (i : Fin n)
  | sendPacket (pc : SendPacket) (i : Fin n) (p : PacketPtr)
  | postSend (pc : PostSend) (i : Fin n)
  | sendComplete (pc : SendComplete) (i : Fin n)
  | recvComplete (pc : RecvComplete) (i : Fin n)
  | workerThread (pc : WorkerThread n)
  | alloc (use : AllocUse n)
  | setRef (p : PacketPtr) (use : AllocUse n)
  | subRef (p : PacketPtr)
  | free (p : PacketPtr)
  | onRecv (id : UINT64) (p : PacketPtr)
  | loginAddRef (id : UINT64) (p : PacketPtr)
  | loginPush (id : UINT64) (p : PacketPtr)
  | redisThread
  | completeLogin (id : UINT64) (result job : PacketPtr)
  | caller
  | undefined

/-! ## The functions -/

variable {n : Nat}

@[simp] def AcceptThread.act : AcceptThread n → Act (Op n) (Frame n)
  | .accept => ⟨.outside .accept, fun
      | some sock => [.acceptThread (.full sock)]
      | none => []⟩
  | .full sock => ⟨.server (.isFull n), fun
      | true => [.acceptThread .accept]
      | false => [.acceptThread (.pop sock)]⟩
  | .pop sock => ⟨.server .popIndex, fun index =>
      if h : index < n then [.acceptThread (.nextID ⟨index, h⟩ sock)] else [.undefined]⟩
  | .nextID i sock => ⟨.server .nextID, fun id =>
      [.acceptThread (.setID i sock (combineIdIndex id (BitVec.ofNat 64 i)))]⟩
  | .setID i sock id => ⟨.session i (.storeID id), fun _ => [.acceptThread (.setIndex i sock)]⟩
  | .setIndex i sock => ⟨.session i (.storeIndex i), fun _ => [.acceptThread (.setSock i sock)]⟩
  | .setSock i sock => ⟨.session i (.storeSock (some sock)), fun _ => [.acceptThread (.count i)]⟩
  | .count i => ⟨.server .incSessions, fun _ => [.acceptThread (.loadID i)]⟩
  | .loadID i => ⟨.session i .loadID, fun id => [.acceptThread (.join i id)]⟩
  | .join i id => ⟨.server (.onClientJoin i id), fun _ =>
      [.postRecv .check i .accept, .acceptThread .accept]⟩

@[simp] def PostRecv.act (i : Fin n) (who : Caller) : PostRecv → Act (Op n) (Frame n)
  | .check => ⟨.session i .isReleased, fun
      | true => []
      | false => [.postRecv .inc i who]⟩
  | .inc => ⟨.session i .incIo, fun _ => [.postRecv .issue i who]⟩
  | .issue => ⟨.wsaRecv i, fun
      | true => []
      | false => [.postRecv .undo i who]⟩
  | .undo => ⟨.session i .decIo, fun
      | true => [.releaseSession .loadID i, .disConnect .cas i]
      | false => [.disConnect .cas i]⟩

@[simp] def DisConnect.act (i : Fin n) : DisConnect → Act (Op n) (Frame n)
  | .cas => ⟨.session i .casReleased, fun
      | true => []
      | false => [.disConnect .loadSock i]⟩
  | .loadSock => ⟨.session i .loadSock, fun sock => [.disConnect (.close sock) i]⟩
  | .close sock => ⟨.server (.closesocket i sock), fun _ => [.disConnect .clearSock i]⟩
  | .clearSock => ⟨.session i (.storeSock none), fun _ => [.disConnect .check i]⟩
  | .check => ⟨.session i .ioIsZero, fun
      | true => [.releaseSession .loadID i]
      | false => []⟩

@[simp] def ReleaseSession.act (i : Fin n) : ReleaseSession → Act (Op n) (Frame n)
  | .loadID => ⟨.session i .loadID, fun id => [.releaseSession (.leave id) i]⟩
  | .leave id => ⟨.server (.onClientLeave i id), fun _ => [.releaseSession .drainSend i]⟩
  | .drainSend => ⟨.session i .popSend, fun
      | some p => [.subRef p, .releaseSession .drainSend i]
      | none => [.releaseSession .drainComplete i]⟩
  | .drainComplete => ⟨.session i .popComplete, fun
      | some p => [.subRef p, .releaseSession .drainComplete i]
      | none => [.releaseSession .loadIndex i]⟩
  | .loadIndex => ⟨.session i .loadIndex, fun index => [.releaseSession (.initSock index) i]⟩
  | .initSock index => ⟨.session i (.storeSock none), fun _ => [.releaseSession (.initID index) i]⟩
  | .initID index => ⟨.session i (.storeID (-1)), fun _ => [.releaseSession (.initIndex index) i]⟩
  | .initIndex index => ⟨.session i (.storeIndex 0), fun _ =>
      [.releaseSession (.initSendFlag index) i]⟩
  | .initSendFlag index => ⟨.session i .clearSendFlag, fun _ =>
      [.releaseSession (.initSendCount index) i]⟩
  | .initSendCount index => ⟨.session i (.storeSendCount 0), fun _ =>
      [.releaseSession (.initDrainSend index) i]⟩
  | .initDrainSend index => ⟨.session i .popSend, fun
      | some p => [.subRef p, .releaseSession (.initDrainSend index) i]
      | none => [.releaseSession (.initDrainComplete index) i]⟩
  | .initDrainComplete index => ⟨.session i .popComplete, fun
      | some p => [.subRef p, .releaseSession (.initDrainComplete index) i]
      | none => [.releaseSession (.initReleased index) i]⟩
  | .initReleased index => ⟨.session i .clearReleased, fun _ => [.releaseSession (.initIo index) i]⟩
  | .initIo index => ⟨.session i .clearIo, fun _ => [.releaseSession (.push index) i]⟩
  | .push index => ⟨.server (.pushIndex i index), fun _ => [.releaseSession .count i]⟩
  | .count => ⟨.server .decSessions, fun _ => []⟩

/-- What follows a `SessionLock` that succeeds. -/
@[simp] def LockUse.frames (i : Fin n) : LockUse → List (Frame n)
  | .send p => [.sendPacket .addRef i p, .sessionUnLock i]
  | .disconnect => [.disConnect .cas i, .sessionUnLock i]

@[simp] def SessionLock.act (i : Fin n) (id : UINT64) (use : LockUse) :
    SessionLock → Act (Op n) (Frame n)
  | .id => ⟨.session i (.idIs id), fun
      | true => [.sessionLock .released i id use]
      | false => [.sessionLock .fail i id use]⟩
  | .released => ⟨.session i .isReleased, fun
      | true => [.sessionLock .fail i id use]
      | false => [.sessionLock .idAgain i id use]⟩
  | .idAgain => ⟨.session i (.idIs id), fun
      | true => [.sessionLock .releasedAgain i id use]
      | false => [.sessionLock .failAgain i id use]⟩
  | .releasedAgain => ⟨.session i .isReleased, fun
      | true => [.sessionLock .fail i id use]
      | false => use.frames i⟩
  | .fail => ⟨.session i .decIo, fun
      | true => [.releaseSession .loadID i]
      | false => []⟩
  | .failAgain => ⟨.session i .decIo, fun _ => []⟩

@[simp] def SendPacket.act (i : Fin n) (p : PacketPtr) : SendPacket → Act (Op n) (Frame n)
  | .addRef => ⟨.packet (.addRef p), fun _ => [.sendPacket .push i p]⟩
  | .push => ⟨.session i (.pushSend p), fun _ => [.sendPacket .check i p]⟩
  | .check => ⟨.session i .isReleased, fun
      | true => []
      | false => [.postSend .cas i]⟩

/-- The test of the `while` of `PostSend`: 100 packets fill the 200 buffers. -/
def PostSend.loop (i : Fin n) (pktCount : Nat) : List (Frame n) :=
  if pktCount < 100 then [.postSend (.pop pktCount) i] else [.postSend (.count pktCount) i]

@[simp] def PostSend.act (i : Fin n) : PostSend → Act (Op n) (Frame n)
  | .cas => ⟨.session i .casSendFlag, fun
      | true => PostSend.loop i 0
      | false => []⟩
  | .pop pktCount => ⟨.session i .popSend, fun
      | some p => [.postSend (.move p pktCount) i]
      | none => if pktCount = 0 then [.postSend .clear i] else [.postSend (.count pktCount) i]⟩
  | .move p pktCount => ⟨.session i (.pushComplete p), fun _ => PostSend.loop i (pktCount + 1)⟩
  | .clear => ⟨.session i .clearSendFlag, fun _ => []⟩
  | .count pktCount => ⟨.session i (.storeSendCount pktCount), fun _ => [.postSend .inc i]⟩
  | .inc => ⟨.session i .incIo, fun _ => [.postSend .issue i]⟩
  | .issue => ⟨.wsaSend i, fun
      | true => []
      | false => [.postSend .undo i]⟩
  | .undo => ⟨.session i .decIo, fun
      | true => [.releaseSession .loadID i]
      | false => []⟩

/-- The test of the `for` of `SendComplete`, with `k` rounds to go. -/
@[simp] def SendComplete.loop (i : Fin n) : Nat → List (Frame n)
  | 0 => [.sendComplete .clear i]
  | k + 1 => [.sendComplete (.pop k) i]

@[simp] def SendComplete.act (i : Fin n) : SendComplete → Act (Op n) (Frame n)
  | .count => ⟨.session i .loadSendCount, fun cnt => [.sendComplete (.zero cnt) i]⟩
  | .zero cnt => ⟨.session i (.storeSendCount 0), fun _ => SendComplete.loop i cnt⟩
  | .pop k => ⟨.session i .popComplete, fun
      | some p => .subRef p :: SendComplete.loop i k
      | none => [.disConnect .cas i, .sendComplete .clear i]⟩
  | .clear => ⟨.session i .clearSendFlag, fun _ => [.sendComplete .check i]⟩
  | .check => ⟨.session i .isReleased, fun
      | true => []
      | false => [.postSend .cas i]⟩

@[simp] def RecvComplete.act (i : Fin n) : RecvComplete → Act (Op n) (Frame n)
  | .ring => ⟨.outside .ring, fun
      | .stop => [.recvComplete .check i]
      | .bad => [.disConnect .cas i]
      | .frame => [.alloc (.frame i)]⟩
  -- whether `Dequeue` found the whole payload
  | .dequeue p => ⟨.outside .outcome, fun
      | true => [.recvComplete (.decode p) i]
      | false => [.disConnect .cas i]⟩
  | .decode p => ⟨.outside .outcome, fun
      | true => [.recvComplete (.handle p) i]
      | false => [.subRef p, .disConnect .cas i]⟩
  | .handle p => ⟨.session i .loadID, fun id => [.onRecv id p, .subRef p, .recvComplete .ring i]⟩
  | .check => ⟨.session i .isReleased, fun
      | true => []
      | false => [.postRecv .check i .worker]⟩

/-- `RecvComplete` and `SendComplete` with the bytes transferred; both
disconnect when there are none. -/
def Completion.frames (c : Completion n) : List (Frame n) :=
  match c.isSend, c.transferred with
  | false, 0 => [.disConnect .cas c.slot]
  | false, _ + 1 => [.recvComplete .ring c.slot]
  | true, 0 => [.disConnect .cas c.slot, .sendComplete .count c.slot]
  | true, _ + 1 => [.sendComplete .count c.slot]

@[simp] def WorkerThread.act : WorkerThread n → Act (Op n) (Frame n)
  | .idle => ⟨.completion, fun c => c.frames ++ [.workerThread (.dec c.slot)]⟩
  | .dec i => ⟨.session i .decIo, fun
      | true => [.workerThread (.check i)]
      | false => [.workerThread .idle]⟩
  | .check i => ⟨.session i .isReleased, fun
      | true => [.releaseSession .loadID i, .workerThread .idle]
      | false => [.workerThread .idle]⟩

/-- What an allocated packet is used for.  A response is sent to its targets
and dropped. -/
@[simp] def AllocUse.frames (p : PacketPtr) : AllocUse n → List (Frame n)
  | .frame i => [.recvComplete (.dequeue p) i]
  | .response targets => targets.map (fun id => .lock id (.send p)) ++ [.subRef p]
  | .loginResult id job => [.completeLogin id p job]

@[simp] def Request.frames (id : UINT64) (p : PacketPtr) : Request → List (Frame n)
  | .accept => []
  | .reject => [.lock id .disconnect]
  | .login => [.loginAddRef id p]
  | .reply targets => [.alloc (.response targets)]
  | .replyReject => [.alloc (.response []), .lock id .disconnect]

@[simp] def Call.frames : Call → List (Frame n)
  | .disconnect id => [.lock id .disconnect]
  | .broadcast targets => [.alloc (.response targets)]

@[simp] def Frame.act : Frame n → Act (Op n) (Frame n)
  | .acceptThread pc => pc.act
  | .postRecv pc i who => pc.act i who
  | .disConnect pc i => pc.act i
  | .releaseSession pc i => pc.act i
  -- the increment comes before any test, on whatever slot the ID names
  | .lock id use =>
      if h : getSessionIndex id < n then
        ⟨.session ⟨getSessionIndex id, h⟩ .incIo, fun _ =>
          [.sessionLock .id ⟨getSessionIndex id, h⟩ id use]⟩
      else
        ⟨.undefined, fun _ => []⟩
  | .sessionLock pc i id use => pc.act i id use
  | .sessionUnLock i => ⟨.session i .decIo, fun
      | true => [.releaseSession .loadID i]
      | false => []⟩
  | .sendPacket pc i p => pc.act i p
  | .postSend pc i => pc.act i
  | .sendComplete pc i => pc.act i
  | .recvComplete pc i => pc.act i
  | .workerThread pc => pc.act
  | .alloc use => ⟨.packet .takeBlock, fun p => [.setRef p use]⟩
  | .setRef p use => ⟨.packet (.setRef p), fun _ => use.frames p⟩
  | .subRef p => ⟨.packet (.subRef p), fun
      | true => [.free p]
      | false => []⟩
  | .free p => ⟨.packet (.freeBlock p), fun _ => []⟩
  | .onRecv id p => ⟨.outside .request, fun r => r.frames id p⟩
  | .loginAddRef id p => ⟨.packet (.addRef p), fun _ => [.loginPush id p]⟩
  | .loginPush id p => ⟨.packet (.pushRedis id p), fun _ => []⟩
  | .redisThread => ⟨.packet .popRedis, fun
      | some (id, p) => [.alloc (.loginResult id p)]
      | none => [.redisThread]⟩
  -- whether the session still has a player to answer
  | .completeLogin id result job => ⟨.outside .outcome, fun
      | true => [.alloc (.response [id]), .subRef result, .subRef job, .redisThread]
      | false => [.subRef result, .subRef job, .redisThread]⟩
  | .caller => ⟨.outside .call, fun c => c.frames ++ [.caller]⟩
  | .undefined => ⟨.undefined, fun _ => []⟩

theorem Frame.act_lock_of_lt {id : UINT64} (use : LockUse) {i : Fin n}
    (named : getSessionIndex id = i) :
    (Frame.lock id use : Frame n).act =
      ⟨.session i .incIo, fun _ => [.sessionLock .id i id use]⟩ := by
  have h : getSessionIndex id < n := named ▸ i.isLt
  obtain rfl : (⟨getSessionIndex id, h⟩ : Fin n) = i := Fin.ext named
  exact dif_pos h

theorem Frame.act_lock_of_le {id : UINT64} (use : LockUse) (outside : n ≤ getSessionIndex id) :
    (Frame.lock id use : Frame n).act = ⟨.undefined, fun _ => []⟩ :=
  dif_neg (Nat.not_lt.mpr outside)

theorem Frame.act_lock_cases (id : UINT64) (use : LockUse) :
    (∃ i : Fin n, getSessionIndex id = i ∧ (Frame.lock id use : Frame n).act =
        ⟨.session i .incIo, fun _ => [.sessionLock .id i id use]⟩) ∨
      (Frame.lock id use : Frame n).act = ⟨.undefined, fun _ => []⟩ := by
  rcases Nat.lt_or_ge (getSessionIndex id) n with inside | outside
  · exact Or.inl ⟨⟨_, inside⟩, rfl, act_lock_of_lt use rfl⟩
  · exact Or.inr (act_lock_of_le use outside)

/-- Where a thread goes on: with the result `r` of its operation the place `f` makes
way for the frames `fs`.  There is a case for each branch of the functions above. -/
inductive Frame.Goes : (f : Frame n) → f.act.α → List (Frame n) → Prop
  | accepted (sock : Nat) : Goes (.acceptThread .accept) (some sock) [.acceptThread (.full sock)]
  | closed : Goes (.acceptThread .accept) none []
  | full (sock : Nat) : Goes (.acceptThread (.full sock)) true [.acceptThread .accept]
  | admitted (sock : Nat) : Goes (.acceptThread (.full sock)) false [.acceptThread (.pop sock)]
  | popped (sock : Nat) (i : Fin n) :
      Goes (.acceptThread (.pop sock)) i.val [.acceptThread (.nextID i sock)]
  | poppedStray (sock index : Nat) (outside : n ≤ index) :
      Goes (.acceptThread (.pop sock)) index [.undefined]
  | numbered (i : Fin n) (sock : Nat) (id : UINT64) : Goes (.acceptThread (.nextID i sock)) id
      [.acceptThread (.setID i sock (combineIdIndex id (BitVec.ofNat 64 i)))]
  | setID (i : Fin n) (sock : Nat) (id : UINT64) :
      Goes (.acceptThread (.setID i sock id)) () [.acceptThread (.setIndex i sock)]
  | setIndex (i : Fin n) (sock : Nat) :
      Goes (.acceptThread (.setIndex i sock)) () [.acceptThread (.setSock i sock)]
  | setSock (i : Fin n) (sock : Nat) :
      Goes (.acceptThread (.setSock i sock)) () [.acceptThread (.count i)]
  | counted (i : Fin n) : Goes (.acceptThread (.count i)) () [.acceptThread (.loadID i)]
  | loadedID (i : Fin n) (id : UINT64) :
      Goes (.acceptThread (.loadID i)) id [.acceptThread (.join i id)]
  | joined (i : Fin n) (id : UINT64) : Goes (.acceptThread (.join i id)) ()
      [.postRecv .check i .accept, .acceptThread .accept]
  | recvReleased (i : Fin n) (who : Caller) : Goes (.postRecv .check i who) true []
  | recvLive (i : Fin n) (who : Caller) :
      Goes (.postRecv .check i who) false [.postRecv .inc i who]
  | recvInc (i : Fin n) (who : Caller) : Goes (.postRecv .inc i who) () [.postRecv .issue i who]
  | recvPosted (i : Fin n) (who : Caller) : Goes (.postRecv .issue i who) true []
  | recvRefused (i : Fin n) (who : Caller) :
      Goes (.postRecv .issue i who) false [.postRecv .undo i who]
  | recvUndoneLast (i : Fin n) (who : Caller) : Goes (.postRecv .undo i who) true
      [.releaseSession .loadID i, .disConnect .cas i]
  | recvUndone (i : Fin n) (who : Caller) :
      Goes (.postRecv .undo i who) false [.disConnect .cas i]
  | casLost (i : Fin n) : Goes (.disConnect .cas i) true []
  | casWon (i : Fin n) : Goes (.disConnect .cas i) false [.disConnect .loadSock i]
  | loadSock (i : Fin n) (sock : Option Nat) :
      Goes (.disConnect .loadSock i) sock [.disConnect (.close sock) i]
  | closeSock (i : Fin n) (sock : Option Nat) :
      Goes (.disConnect (.close sock) i) () [.disConnect .clearSock i]
  | clearSock (i : Fin n) : Goes (.disConnect .clearSock i) () [.disConnect .check i]
  | disConnectLast (i : Fin n) : Goes (.disConnect .check i) true [.releaseSession .loadID i]
  | disConnected (i : Fin n) : Goes (.disConnect .check i) false []
  | releaseID (i : Fin n) (id : UINT64) :
      Goes (.releaseSession .loadID i) id [.releaseSession (.leave id) i]
  | left (i : Fin n) (id : UINT64) :
      Goes (.releaseSession (.leave id) i) () [.releaseSession .drainSend i]
  | drainSend (i : Fin n) (p : PacketPtr) :
      Goes (.releaseSession .drainSend i) (some p) [.subRef p, .releaseSession .drainSend i]
  | drainedSend (i : Fin n) :
      Goes (.releaseSession .drainSend i) none [.releaseSession .drainComplete i]
  | drainComplete (i : Fin n) (p : PacketPtr) : Goes (.releaseSession .drainComplete i) (some p)
      [.subRef p, .releaseSession .drainComplete i]
  | drainedComplete (i : Fin n) :
      Goes (.releaseSession .drainComplete i) none [.releaseSession .loadIndex i]
  | loadIndex (i : Fin n) (index : Nat) :
      Goes (.releaseSession .loadIndex i) index [.releaseSession (.initSock index) i]
  | initSock (i : Fin n) (index : Nat) :
      Goes (.releaseSession (.initSock index) i) () [.releaseSession (.initID index) i]
  | initID (i : Fin n) (index : Nat) :
      Goes (.releaseSession (.initID index) i) () [.releaseSession (.initIndex index) i]
  | initIndex (i : Fin n) (index : Nat) :
      Goes (.releaseSession (.initIndex index) i) () [.releaseSession (.initSendFlag index) i]
  | initSendFlag (i : Fin n) (index : Nat) :
      Goes (.releaseSession (.initSendFlag index) i) () [.releaseSession (.initSendCount index) i]
  | initSendCount (i : Fin n) (index : Nat) :
      Goes (.releaseSession (.initSendCount index) i) () [.releaseSession (.initDrainSend index) i]
  | initDrainSend (i : Fin n) (index : Nat) (p : PacketPtr) :
      Goes (.releaseSession (.initDrainSend index) i) (some p)
        [.subRef p, .releaseSession (.initDrainSend index) i]
  | initDrainedSend (i : Fin n) (index : Nat) :
      Goes (.releaseSession (.initDrainSend index) i) none
        [.releaseSession (.initDrainComplete index) i]
  | initDrainComplete (i : Fin n) (index : Nat) (p : PacketPtr) :
      Goes (.releaseSession (.initDrainComplete index) i) (some p)
        [.subRef p, .releaseSession (.initDrainComplete index) i]
  | initDrainedComplete (i : Fin n) (index : Nat) :
      Goes (.releaseSession (.initDrainComplete index) i) none
        [.releaseSession (.initReleased index) i]
  | initReleased (i : Fin n) (index : Nat) :
      Goes (.releaseSession (.initReleased index) i) () [.releaseSession (.initIo index) i]
  | initIo (i : Fin n) (index : Nat) :
      Goes (.releaseSession (.initIo index) i) () [.releaseSession (.push index) i]
  | pushed (i : Fin n) (index : Nat) :
      Goes (.releaseSession (.push index) i) () [.releaseSession .count i]
  | released (i : Fin n) : Goes (.releaseSession .count i) () []
  | lock (id : UINT64) (use : LockUse) (r : (Frame.lock id use : Frame n).act.α) (i : Fin n)
      (named : getSessionIndex id = i) : Goes (.lock id use) r [.sessionLock .id i id use]
  | lockStray (id : UINT64) (use : LockUse) (r : (Frame.lock id use : Frame n).act.α)
      (outside : n ≤ getSessionIndex id) : Goes (.lock id use) r []
  | idSame (i : Fin n) (id : UINT64) (use : LockUse) :
      Goes (.sessionLock .id i id use) true [.sessionLock .released i id use]
  | idOther (i : Fin n) (id : UINT64) (use : LockUse) :
      Goes (.sessionLock .id i id use) false [.sessionLock .fail i id use]
  | lockReleased (i : Fin n) (id : UINT64) (use : LockUse) :
      Goes (.sessionLock .released i id use) true [.sessionLock .fail i id use]
  | lockLive (i : Fin n) (id : UINT64) (use : LockUse) :
      Goes (.sessionLock .released i id use) false [.sessionLock .idAgain i id use]
  | idSameAgain (i : Fin n) (id : UINT64) (use : LockUse) :
      Goes (.sessionLock .idAgain i id use) true [.sessionLock .releasedAgain i id use]
  | idOtherAgain (i : Fin n) (id : UINT64) (use : LockUse) :
      Goes (.sessionLock .idAgain i id use) false [.sessionLock .failAgain i id use]
  | lockReleasedAgain (i : Fin n) (id : UINT64) (use : LockUse) :
      Goes (.sessionLock .releasedAgain i id use) true [.sessionLock .fail i id use]
  | lockedSend (i : Fin n) (id : UINT64) (p : PacketPtr) :
      Goes (.sessionLock .releasedAgain i id (.send p)) false
        [.sendPacket .addRef i p, .sessionUnLock i]
  | lockedDisconnect (i : Fin n) (id : UINT64) :
      Goes (.sessionLock .releasedAgain i id .disconnect) false
        [.disConnect .cas i, .sessionUnLock i]
  | failLast (i : Fin n) (id : UINT64) (use : LockUse) :
      Goes (.sessionLock .fail i id use) true [.releaseSession .loadID i]
  | fail (i : Fin n) (id : UINT64) (use : LockUse) : Goes (.sessionLock .fail i id use) false []
  | failAgain (i : Fin n) (id : UINT64) (use : LockUse) (last : Bool) :
      Goes (.sessionLock .failAgain i id use) last []
  | unLockLast (i : Fin n) : Goes (.sessionUnLock i) true [.releaseSession .loadID i]
  | unLock (i : Fin n) : Goes (.sessionUnLock i) false []
  | sendAddRef (i : Fin n) (p : PacketPtr) :
      Goes (.sendPacket .addRef i p) () [.sendPacket .push i p]
  | sendPush (i : Fin n) (p : PacketPtr) : Goes (.sendPacket .push i p) () [.sendPacket .check i p]
  | sendReleased (i : Fin n) (p : PacketPtr) : Goes (.sendPacket .check i p) true []
  | sendLive (i : Fin n) (p : PacketPtr) : Goes (.sendPacket .check i p) false [.postSend .cas i]
  | flagWon (i : Fin n) : Goes (.postSend .cas i) true [.postSend (.pop 0) i]
  | flagLost (i : Fin n) : Goes (.postSend .cas i) false []
  | popSend (i : Fin n) (k : Nat) (p : PacketPtr) :
      Goes (.postSend (.pop k) i) (some p) [.postSend (.move p k) i]
  | popSendNone (i : Fin n) : Goes (.postSend (.pop 0) i) none [.postSend .clear i]
  | popSendLast (i : Fin n) (k : Nat) (any : 0 < k) :
      Goes (.postSend (.pop k) i) none [.postSend (.count k) i]
  | moved (i : Fin n) (p : PacketPtr) (k : Nat) (more : k + 1 < 100) :
      Goes (.postSend (.move p k) i) () [.postSend (.pop (k + 1)) i]
  | movedLast (i : Fin n) (p : PacketPtr) (k : Nat) (enough : 100 ≤ k + 1) :
      Goes (.postSend (.move p k) i) () [.postSend (.count (k + 1)) i]
  | flagCleared (i : Fin n) : Goes (.postSend .clear i) () []
  | sendCount (i : Fin n) (k : Nat) : Goes (.postSend (.count k) i) () [.postSend .inc i]
  | sendInc (i : Fin n) : Goes (.postSend .inc i) () [.postSend .issue i]
  | sendPosted (i : Fin n) : Goes (.postSend .issue i) true []
  | sendRefused (i : Fin n) : Goes (.postSend .issue i) false [.postSend .undo i]
  | sendUndoneLast (i : Fin n) : Goes (.postSend .undo i) true [.releaseSession .loadID i]
  | sendUndone (i : Fin n) : Goes (.postSend .undo i) false []
  | loadCount (i : Fin n) (cnt : Nat) :
      Goes (.sendComplete .count i) cnt [.sendComplete (.zero cnt) i]
  | zeroNone (i : Fin n) : Goes (.sendComplete (.zero 0) i) () [.sendComplete .clear i]
  | zeroSome (i : Fin n) (k : Nat) :
      Goes (.sendComplete (.zero (k + 1)) i) () [.sendComplete (.pop k) i]
  | popLast (i : Fin n) (p : PacketPtr) :
      Goes (.sendComplete (.pop 0) i) (some p) [.subRef p, .sendComplete .clear i]
  | popNext (i : Fin n) (k : Nat) (p : PacketPtr) :
      Goes (.sendComplete (.pop (k + 1)) i) (some p) [.subRef p, .sendComplete (.pop k) i]
  | popNone (i : Fin n) (k : Nat) : Goes (.sendComplete (.pop k) i) none
      [.disConnect .cas i, .sendComplete .clear i]
  | clear (i : Fin n) : Goes (.sendComplete .clear i) () [.sendComplete .check i]
  | sentReleased (i : Fin n) : Goes (.sendComplete .check i) true []
  | sentLive (i : Fin n) : Goes (.sendComplete .check i) false [.postSend .cas i]
  | ringStop (i : Fin n) : Goes (.recvComplete .ring i) RingResult.stop [.recvComplete .check i]
  | ringBad (i : Fin n) : Goes (.recvComplete .ring i) RingResult.bad [.disConnect .cas i]
  | ringFrame (i : Fin n) : Goes (.recvComplete .ring i) RingResult.frame [.alloc (.frame i)]
  | dequeued (i : Fin n) (p : PacketPtr) :
      Goes (.recvComplete (.dequeue p) i) true [.recvComplete (.decode p) i]
  | dequeuedShort (i : Fin n) (p : PacketPtr) :
      Goes (.recvComplete (.dequeue p) i) false [.disConnect .cas i]
  | decoded (i : Fin n) (p : PacketPtr) :
      Goes (.recvComplete (.decode p) i) true [.recvComplete (.handle p) i]
  | decodedBad (i : Fin n) (p : PacketPtr) :
      Goes (.recvComplete (.decode p) i) false [.subRef p, .disConnect .cas i]
  | handle (i : Fin n) (p : PacketPtr) (id : UINT64) : Goes (.recvComplete (.handle p) i) id
      [.onRecv id p, .subRef p, .recvComplete .ring i]
  | receivedReleased (i : Fin n) : Goes (.recvComplete .check i) true []
  | receivedLive (i : Fin n) :
      Goes (.recvComplete .check i) false [.postRecv .check i .worker]
  | received (i : Fin n) (k : Nat) :
      Goes (.workerThread .idle) (Completion.mk i false (k + 1))
        [.recvComplete .ring i, .workerThread (.dec i)]
  | receivedNone (i : Fin n) : Goes (.workerThread .idle) (Completion.mk i false 0)
      [.disConnect .cas i, .workerThread (.dec i)]
  | sent (i : Fin n) (k : Nat) :
      Goes (.workerThread .idle) (Completion.mk i true (k + 1))
        [.sendComplete .count i, .workerThread (.dec i)]
  | sentNone (i : Fin n) : Goes (.workerThread .idle) (Completion.mk i true 0)
      [.disConnect .cas i, .sendComplete .count i, .workerThread (.dec i)]
  | decLast (i : Fin n) : Goes (.workerThread (.dec i)) true [.workerThread (.check i)]
  | dec (i : Fin n) : Goes (.workerThread (.dec i)) false [.workerThread .idle]
  | workerReleases (i : Fin n) : Goes (.workerThread (.check i)) true
      [.releaseSession .loadID i, .workerThread .idle]
  | workerSpares (i : Fin n) : Goes (.workerThread (.check i)) false [.workerThread .idle]
  | alloc (use : AllocUse n) (p : PacketPtr) : Goes (.alloc use) p [.setRef p use]
  | setRefFrame (p : PacketPtr) (i : Fin n) :
      Goes (.setRef p (.frame i)) () [.recvComplete (.dequeue p) i]
  | setRefResponse (p : PacketPtr) (targets : List UINT64) :
      Goes (.setRef p (.response targets)) ()
        (targets.map (fun id => .lock id (.send p)) ++ [.subRef p])
  | setRefResult (p : PacketPtr) (id : UINT64) (job : PacketPtr) :
      Goes (.setRef p (.loginResult id job)) () [.completeLogin id p job]
  | subRefLast (p : PacketPtr) : Goes (.subRef p) true [.free p]
  | subRef (p : PacketPtr) : Goes (.subRef p) false []
  | free (p : PacketPtr) : Goes (.free p) () []
  | requestAccept (id : UINT64) (p : PacketPtr) : Goes (.onRecv id p) Request.accept []
  | requestReject (id : UINT64) (p : PacketPtr) :
      Goes (.onRecv id p) Request.reject [.lock id .disconnect]
  | requestLogin (id : UINT64) (p : PacketPtr) :
      Goes (.onRecv id p) Request.login [.loginAddRef id p]
  | requestReply (id : UINT64) (p : PacketPtr) (targets : List UINT64) :
      Goes (.onRecv id p) (Request.reply targets) [.alloc (.response targets)]
  | requestReplyReject (id : UINT64) (p : PacketPtr) :
      Goes (.onRecv id p) Request.replyReject [.alloc (.response []), .lock id .disconnect]
  | loginAddRef (id : UINT64) (p : PacketPtr) : Goes (.loginAddRef id p) () [.loginPush id p]
  | loginPush (id : UINT64) (p : PacketPtr) : Goes (.loginPush id p) () []
  | popJob (id : UINT64) (p : PacketPtr) :
      Goes .redisThread (some (id, p)) [.alloc (.loginResult id p)]
  | popJobNone : Goes .redisThread none [.redisThread]
  | loginAnswered (id : UINT64) (result job : PacketPtr) : Goes (.completeLogin id result job) true
      [.alloc (.response [id]), .subRef result, .subRef job, .redisThread]
  | loginDropped (id : UINT64) (result job : PacketPtr) :
      Goes (.completeLogin id result job) false [.subRef result, .subRef job, .redisThread]
  | callDisconnect (id : UINT64) :
      Goes .caller (Call.disconnect id) [.lock id .disconnect, .caller]
  | callBroadcast (targets : List UINT64) :
      Goes .caller (Call.broadcast targets) [.alloc (.response targets), .caller]
  | undefined : Goes .undefined () []

/-- The frames that `next` gives are those of `Frame.Goes`, so that a step of a thread
can be taken apart by its branches. -/
theorem Frame.goes (f : Frame n) (r : f.act.α) : f.Goes r (f.act.next r) := by
  cases f with
  | acceptThread pc =>
      cases pc with
      | accept => cases r <;> constructor
      | full sock => cases r <;> constructor
      | pop sock =>
          rcases Nat.lt_or_ge r n with inside | outside
          · have next : (AcceptThread.pop sock : AcceptThread n).act.next r =
                [.acceptThread (.nextID ⟨r, inside⟩ sock)] := dif_pos inside
            exact next ▸ .popped sock ⟨r, inside⟩
          · have next : (AcceptThread.pop sock : AcceptThread n).act.next r = [.undefined] :=
              dif_neg (Nat.not_lt.mpr outside)
            exact next ▸ .poppedStray sock r outside
      | _ => constructor
  | postRecv pc i who => cases pc <;> cases r <;> constructor
  | disConnect pc i => cases pc <;> cases r <;> constructor
  | releaseSession pc i => cases pc <;> cases r <;> constructor
  | lock id use =>
      rcases Nat.lt_or_ge (getSessionIndex id) n with inside | outside
      · have next : ∀ r, (Frame.lock id use : Frame n).act.next r =
            [.sessionLock .id ⟨_, inside⟩ id use] := by
          rw [Frame.act_lock_of_lt use (i := ⟨_, inside⟩) rfl]
          exact fun _ => rfl
        exact next r ▸ .lock id use r ⟨_, inside⟩ rfl
      · have next : ∀ r, (Frame.lock id use : Frame n).act.next r = [] := by
          rw [Frame.act_lock_of_le use outside]
          exact fun _ => rfl
        exact next r ▸ .lockStray id use r outside
  | sessionLock pc i id use =>
      cases pc with
      | releasedAgain => cases r <;> cases use <;> constructor
      | _ => cases r <;> constructor
  | sessionUnLock i => cases r <;> constructor
  | sendPacket pc i p => cases pc <;> cases r <;> constructor
  | postSend pc i =>
      cases pc with
      | pop k =>
          cases r with
          | none =>
              cases k with
              | zero => exact .popSendNone i
              | succ k => exact .popSendLast i (k + 1) k.succ_pos
          | some p => exact .popSend i k p
      | move p k =>
          rcases Nat.lt_or_ge (k + 1) 100 with more | enough
          · have next : (Frame.postSend (.move p k) i).act.next r = [.postSend (.pop (k + 1)) i] :=
              if_pos more
            exact next ▸ .moved i p k more
          · have next : (Frame.postSend (.move p k) i).act.next r =
                [.postSend (.count (k + 1)) i] := if_neg (Nat.not_lt.mpr enough)
            exact next ▸ .movedLast i p k enough
      | _ => cases r <;> constructor
  | sendComplete pc i =>
      cases pc with
      | zero cnt => cases cnt <;> constructor
      | pop k => cases r <;> cases k <;> constructor
      | _ => cases r <;> constructor
  | recvComplete pc i => cases pc <;> cases r <;> constructor
  | workerThread pc =>
      cases pc with
      | idle =>
          obtain ⟨i, isSend, transferred⟩ := r
          cases isSend <;> cases transferred <;> constructor
      | _ => cases r <;> constructor
  | setRef p use => cases use <;> constructor
  | _ => first | constructor | cases r <;> constructor

/-- The operation is neither one on what the server keeps nor one that changes
what a session is. -/
@[simp] def Op.aside : {α : Type} → Op n α → Bool
  | _, .server _ => false
  | _, .session _ (.storeID _) => false
  | _, .session _ (.storeIndex _) => false
  | _, .session _ (.storeSock _) => false
  | _, .session _ .casReleased => false
  | _, .session _ .clearReleased => false
  | _, _ => true

/-- A place of neither the accept thread nor `DisConnect` or `ReleaseSession`. -/
@[simp] def Frame.outside : Frame n → Bool
  | .acceptThread _ => false
  | .disConnect _ _ => false
  | .releaseSession _ _ => false
  | .undefined => false
  | _ => true

/-- A place outside the accept thread, `DisConnect` and `ReleaseSession`, or the first one
of the latter two. -/
@[simp] def Frame.enters : Frame n → Bool
  | .disConnect .cas _ => true
  | .releaseSession .loadID _ => true
  | f => f.outside

theorem Frame.aside_of_outside {f : Frame n} (outside : f.outside = true) :
    f.act.op.aside = true := by
  cases f with
  | lock id use =>
      rcases Frame.act_lock_cases id use with ⟨j, -, act⟩ | act
      · rw [act]
        rfl
      · rw [act]
        rfl
  | acceptThread pc => cases outside
  | disConnect pc j => cases outside
  | releaseSession pc j => cases outside
  | undefined => cases outside
  | postRecv pc j who => cases pc <;> rfl
  | sessionLock pc j id use => cases pc <;> rfl
  | sendPacket pc j q => cases pc <;> rfl
  | postSend pc j => cases pc <;> rfl
  | sendComplete pc j => cases pc <;> rfl
  | recvComplete pc j => cases pc <;> rfl
  | workerThread pc => cases pc <;> rfl
  | _ => rfl

/-- From outside a thread comes to the accept thread never, and to `DisConnect`
and `ReleaseSession` at their start. -/
theorem Frame.enters_next {f : Frame n} (outside : f.outside = true) (r : f.act.α) :
    ∀ g ∈ f.act.next r, g.enters = true := by
  have goes := f.goes r
  generalize f.act.next r = fs at goes ⊢
  cases goes with
  | setRefResponse p targets => simp [or_imp, forall_and]
  | _ => simp at outside ⊢

theorem Frame.enters_of_outside {f : Frame n} (outside : f.outside = true) : f.enters = true := by
  cases f with
  | disConnect pc j => cases outside
  | releaseSession pc j => cases outside
  | _ => exact outside

theorem sum_of_enters {w : Frame n → Nat} (light : ∀ g : Frame n, g.enters = true → w g = 0)
    {fs : List (Frame n)} (enters : ∀ g ∈ fs, g.enters = true) : (fs.map w).sum = 0 := by
  apply List.sum_eq_zero
  intro x member
  obtain ⟨g, inside, rfl⟩ := List.mem_map.mp member
  exact light g (enters g inside)

/-- The session layer as a machine. -/
def iocp (n : Nat) : Machine (Op n) (Frame n) (Choice n) (Shared n) where
  act := Frame.act
  exec := exec

/-- What a step of the session layer is. -/
theorem iocp_step_cases {s s' : Conf (Frame n) (Shared n)} {t : Nat} {c : Choice n}
    (step : (iocp n).step s t c = some s') :
    ∃ (f : Frame n) (rest : List (Frame n)) (r : f.act.α) (m : Shared n),
      s.threads[t]? = some (f :: rest) ∧ exec f.act.op c s.mem = some (r, m) ∧
        s' = ⟨m, s.threads.set t (f.act.next r ++ rest)⟩ :=
  Machine.step_cases step

/-- The threads that run beside the accept thread. -/
inductive ThreadKind where
  | worker
  | redis
  | caller

def ThreadKind.frame : ThreadKind → Frame n
  | .worker => .workerThread .idle
  | .redis => .redisThread
  | .caller => .caller

/-- A server after `Start`, with its threads. -/
def Shared.boot (n : Nat) (sessionID : UINT64) (kinds : List ThreadKind) :
    Conf (Frame n) (Shared n) where
  mem := Shared.start n sessionID
  threads := [.acceptThread .accept] :: kinds.map fun kind => [kind.frame]

theorem Shared.boot_frames (n : Nat) (sessionID : UINT64) (kinds : List ThreadKind) :
    ∀ stack ∈ (Shared.boot n sessionID kinds).threads, ∀ f ∈ stack,
      f = .acceptThread .accept ∨ ∃ kind : ThreadKind, f = kind.frame := by
  intro stack member f inside
  rcases List.mem_cons.mp member with rfl | other
  · exact Or.inl (List.mem_singleton.mp inside)
  · obtain ⟨kind, -, rfl⟩ := List.mem_map.mp other
    exact Or.inr ⟨kind, List.mem_singleton.mp inside⟩

end ChattingServer
