import ChattingServer.Foundation.Linked
import ChattingServer.Foundation.Threads

/-!
# The lock-free free list

`CLFFreeList` without placement construction, and any number of threads that
call `Alloc` and call `Free` on blocks they hold.  Every read of the list and
every interlocked operation is a step of its own.  The 64-bit tags do not wrap
here; blocks are the addresses `malloc` returns, and only the destructor returns
them to it.

A caller may give a block it holds to another: the block then lies in `handed`
until somebody takes it.
-/

namespace ChattingServer

namespace CLFFreeList

abbrev Block : Type := Nat

/-- `st_TOP_NODE`. -/
structure TopNode where
  pTopNode : Option Block
  lCount : Nat
  deriving DecidableEq

structure FreeList where
  pTop : TopNode
  /-- `stpNextBlock` of each block. -/
  stpNextBlock : Block → Option Block
  m_lMaxCount : Int
  m_lUseCount : Int
  m_lCount : Nat
  /-- How many blocks `malloc` has returned. -/
  blocks : Nat
  handed : List Block

/-- The `while` of the constructor. -/
def FreeList.fill : Nat → FreeList → FreeList
  | 0, m => m
  | count + 1, m =>
      fill count { m with
        stpNextBlock := Function.update m.stpNextBlock m.blocks m.pTop.pTopNode
        pTop := { m.pTop with pTopNode := some m.blocks }
        blocks := m.blocks + 1 }

/-- `CLFFreeList(int iBlockNum, bool bPlacementNew)`. -/
def FreeList.new (iBlockNum : Nat) : FreeList :=
  fill iBlockNum
    { pTop := ⟨none, 0⟩
      stpNextBlock := fun _ => none
      m_lMaxCount := iBlockNum
      m_lUseCount := 0
      m_lCount := 0
      blocks := 0
      handed := [] }

/-! ## Operations -/

/-- What a caller does next: with `free` and `give` the block it means among
those it holds, with `take` among those handed on. -/
inductive Call where
  | alloc
  | free (k : Nat)
  | give (k : Nat)
  | take (k : Nat)
  deriving DecidableEq

inductive Op : Type → Type 1
  | maxCount : Op Int
  | incMaxCount : Op Unit
  /-- `InterlockedIncrement64(&m_lUseCount)`. -/
  | incUseCount : Op Int
  | decUseCount : Op Unit
  /-- `InterlockedIncrement64(&m_lCount)`. -/
  | incCount : Op Nat
  | topNode : Op (Option Block)
  | topCount : Op Nat
  | next (b : Block) : Op (Option Block)
  | storeNext (b : Block) (next : Option Block) : Op Unit
  /-- `InterlockedCompareExchange128(_pTop, exchange, &cloneTop)`. -/
  | cas (exchange cloneTop : TopNode) : Op Bool
  | malloc : Op Block
  | call : Op Call
  | give (b : Block) : Op Unit
  | take (k : Nat) : Op (Option Block)
  /-- What the language leaves undefined. -/
  | undefined : Op Unit

def exec {α : Type} (op : Op α) (c : Call) (m : FreeList) : Option (α × FreeList) :=
  match op with
  | .maxCount => some (m.m_lMaxCount, m)
  | .incMaxCount => some ((), { m with m_lMaxCount := m.m_lMaxCount + 1 })
  | .incUseCount => some (m.m_lUseCount + 1, { m with m_lUseCount := m.m_lUseCount + 1 })
  | .decUseCount => some ((), { m with m_lUseCount := m.m_lUseCount - 1 })
  | .incCount => some (m.m_lCount + 1, { m with m_lCount := m.m_lCount + 1 })
  | .topNode => some (m.pTop.pTopNode, m)
  | .topCount => some (m.pTop.lCount, m)
  | .next b => some (m.stpNextBlock b, m)
  | .storeNext b next =>
      some ((), { m with stpNextBlock := Function.update m.stpNextBlock b next })
  | .cas exchange cloneTop =>
      if m.pTop = cloneTop then some (true, { m with pTop := exchange }) else some (false, m)
  | .malloc => some (m.blocks, { m with blocks := m.blocks + 1 })
  | .call => some (c, m)
  | .give b => some ((), { m with handed := b :: m.handed })
  | .take k => some (m.handed[k]?, { m with handed := m.handed.eraseIdx k })
  | .undefined => none

/-! ## Places in the functions -/

/-- `Alloc`, with its locals: `MaxCount`, `newNode`, `lUniqueNum`, `CloneTop`, and
what it has read of the live top. -/
inductive Alloc where
  | loadMax
  | useCount (maxCount : Int)
  | malloc
  | incMaxCount (newNode : Block)
  | count
  | cloneNode (uniqueNum : Nat)
  | cloneCount (uniqueNum : Nat) (pTopNode : Option Block)
  | liveTop (uniqueNum : Nat) (cloneTop : TopNode)
  | next (uniqueNum : Nat) (cloneTop : TopNode) (top : Block)
  | cas (uniqueNum : Nat) (cloneTop : TopNode) (newTop : Option Block)

/-- `Free`. -/
inductive Free where
  | count
  | cloneNode (newCount : Nat)
  | cloneCount (newCount : Nat) (pTopNode : Option Block)
  | liveTop (newCount : Nat) (cloneTop : TopNode)
  | storeNext (newCount : Nat) (cloneTop : TopNode) (top : Option Block)
  | cas (newCount : Nat) (cloneTop : TopNode)
  | useCount

/-- A thread, with the other blocks it holds. -/
inductive Frame where
  | caller (held : List Block)
  | alloc (pc : Alloc) (held : List Block)
  | free (pc : Free) (returnedBlock : Block) (held : List Block)
  | give (b : Block) (held : List Block)
  | take (k : Nat) (held : List Block)
  | undefined (held : List Block)

@[simp] def Alloc.act (held : List Block) : Alloc → Act Op Frame
  | .loadMax => ⟨.maxCount, fun maxCount => [.alloc (.useCount maxCount) held]⟩
  | .useCount maxCount => ⟨.incUseCount, fun useCount =>
      if maxCount < useCount then [.alloc .malloc held] else [.alloc .count held]⟩
  | .malloc => ⟨.malloc, fun newNode => [.alloc (.incMaxCount newNode) held]⟩
  | .incMaxCount newNode => ⟨.incMaxCount, fun _ => [.caller (newNode :: held)]⟩
  | .count => ⟨.incCount, fun uniqueNum => [.alloc (.cloneNode uniqueNum) held]⟩
  | .cloneNode uniqueNum => ⟨.topNode, fun node => [.alloc (.cloneCount uniqueNum node) held]⟩
  | .cloneCount uniqueNum node => ⟨.topCount, fun count =>
      [.alloc (.liveTop uniqueNum ⟨node, count⟩) held]⟩
  -- the new top is read from `_pTop` again, not from the clone
  | .liveTop uniqueNum cloneTop => ⟨.topNode, fun
      | some top => [.alloc (.next uniqueNum cloneTop top) held]
      | none => [.undefined held]⟩
  | .next uniqueNum cloneTop top => ⟨.next top, fun newTop =>
      [.alloc (.cas uniqueNum cloneTop newTop) held]⟩
  | .cas uniqueNum cloneTop newTop => ⟨.cas ⟨newTop, uniqueNum⟩ cloneTop, fun
      | true => cloneTop.pTopNode.elim [.undefined held] fun newNode => [.caller (newNode :: held)]
      | false => [.alloc (.cloneNode uniqueNum) held]⟩

@[simp] def Free.act (returnedBlock : Block) (held : List Block) : Free → Act Op Frame
  | .count => ⟨.incCount, fun newCount => [.free (.cloneNode newCount) returnedBlock held]⟩
  | .cloneNode newCount => ⟨.topNode, fun node =>
      [.free (.cloneCount newCount node) returnedBlock held]⟩
  | .cloneCount newCount node => ⟨.topCount, fun count =>
      [.free (.liveTop newCount ⟨node, count⟩) returnedBlock held]⟩
  | .liveTop newCount cloneTop => ⟨.topNode, fun top =>
      [.free (.storeNext newCount cloneTop top) returnedBlock held]⟩
  | .storeNext newCount cloneTop top => ⟨.storeNext returnedBlock top, fun _ =>
      [.free (.cas newCount cloneTop) returnedBlock held]⟩
  | .cas newCount cloneTop => ⟨.cas ⟨some returnedBlock, newCount⟩ cloneTop, fun
      | true => [.free .useCount returnedBlock held]
      | false => [.free (.cloneNode newCount) returnedBlock held]⟩
  | .useCount => ⟨.decUseCount, fun _ => [.caller held]⟩

/-- The frame for a call; a block that is not held is not freed or given. -/
@[simp] def Call.frame (held : List Block) : Call → Frame
  | .alloc => .alloc .loadMax held
  | .free k => held[k]?.elim (.caller held) fun b => .free .count b (held.eraseIdx k)
  | .give k => held[k]?.elim (.caller held) fun b => .give b (held.eraseIdx k)
  | .take k => .take k held

@[simp] def Frame.act : Frame → Act Op Frame
  | .caller held => ⟨.call, fun c => [c.frame held]⟩
  | .alloc pc held => pc.act held
  | .free pc returnedBlock held => pc.act returnedBlock held
  | .give b held => ⟨.give b, fun _ => [.caller held]⟩
  | .take k held => ⟨.take k, fun taken =>
      [.caller (taken.elim held fun b => b :: held)]⟩
  | .undefined held => ⟨.undefined, fun _ => [.undefined held]⟩

/-- The free list as a machine. -/
def freeList : Machine Op Frame Call FreeList where
  act := Frame.act
  exec := exec

/-- A fresh free list and its threads. -/
def boot (iBlockNum threads : Nat) : Conf Frame FreeList where
  mem := FreeList.new iBlockNum
  threads := List.replicate threads [.caller []]

/-- What a step of the free list is. -/
theorem freeList_step_cases {s s' : Conf Frame FreeList} {t : Nat} {c : Call}
    (step : freeList.step s t c = some s') :
    ∃ (f : Frame) (rest : List Frame) (r : f.act.α) (m : FreeList),
      s.threads[t]? = some (f :: rest) ∧ exec f.act.op c s.mem = some (r, m) ∧
        s' = ⟨m, s.threads.set t (f.act.next r ++ rest)⟩ :=
  Machine.step_cases step

/-! ## Destruction -/

/-- What `~CLFFreeList` has left in the list, and the blocks it has freed. -/
structure Teardown where
  pTopNode : Option Block
  freed : List Block
  deriving DecidableEq

/-- One round of its `for`.  To read a block that is freed, or to free it again,
is undefined. -/
def Teardown.round (m : FreeList) (d : Teardown) : Option Teardown :=
  match d.pTopNode with
  | some temp =>
      if temp ∈ d.freed then none else some ⟨m.stpNextBlock temp, temp :: d.freed⟩
  | none => some d

def Teardown.rounds (m : FreeList) : Nat → Teardown → Option Teardown
  | 0, d => some d
  | count + 1, d => (round m d).bind (rounds m count)

/-- `~CLFFreeList()`, when no thread uses the list any more.  The `int` that
counts the rounds must not overflow. -/
def FreeList.destroy (m : FreeList) : Option Teardown :=
  if m.m_lMaxCount ≤ 2147483647 then
    Teardown.rounds m m.m_lMaxCount.toNat ⟨m.pTop.pTopNode, []⟩
  else
    none

end CLFFreeList

end ChattingServer
