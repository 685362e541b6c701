import ChattingServer.FreeListExclusive
import ChattingServer.Foundation.Erasure

/-!
# Objects in the blocks of the free list

`CLFFreeList` as it constructs and destroys the objects in its blocks.  Apart
from these calls it is the free list without them (`placed_erases`), so a block
is still in one place.

`Alloc` constructs an object in every block it returns when placement
construction is on; but the constructor of the list has left objects in the
blocks it made, and `Free` destroys the object only after the block is back in
the list, where another `Alloc` may have taken it.  `Settled` leaves both out.
-/

namespace ChattingServer

namespace CLFFreeList

/-! ## The places -/

/-- A place of the free list, or one of a constructor, a destructor or the end
of `Alloc`. -/
inductive Placed where
  | base (f : Frame)
  /-- `new (newObject)DATA`. -/
  | construct (b : Block) (held : List Block)
  /-- `return newObject`. -/
  | returnObject (b : Block) (held : List Block)
  /-- `pData->~DATA()`. -/
  | destruct (b : Block) (held : List Block)

inductive PlacedOp : Type → Type 1
  | base {α : Type} (op : Op α) : PlacedOp α
  | construct (b : Block) : PlacedOp Unit
  | returnObject (b : Block) : PlacedOp Unit
  | destruct (b : Block) : PlacedOp Unit

/-- What comes after an operation of the free list.  A block from `malloc` gets
its object in either mode. -/
@[simp] def Frame.goesOn (m_bUsingPlacementNew : Bool) : (f : Frame) → f.act.α → List Placed
  | .alloc (.incMaxCount newNode) held, _ => [.construct newNode held]
  | .alloc (.cas _ cloneTop _) held, true =>
      cloneTop.pTopNode.elim [.base (.undefined held)] fun newNode =>
        if m_bUsingPlacementNew then [.construct newNode held] else [.returnObject newNode held]
  | .free (.cas _ _) returnedBlock held, true =>
      if m_bUsingPlacementNew then [.destruct returnedBlock held]
      else [.base (.free .useCount returnedBlock held)]
  | f, r => (f.act.next r).map .base

@[simp] def Placed.act (m_bUsingPlacementNew : Bool) : Placed → Act PlacedOp Placed
  | .base f => ⟨.base f.act.op, f.goesOn m_bUsingPlacementNew⟩
  | .construct b held => ⟨.construct b, fun _ => [.returnObject b held]⟩
  | .returnObject b held => ⟨.returnObject b, fun _ => [.base (.caller (b :: held))]⟩
  | .destruct b held => ⟨.destruct b, fun _ => [.base (.free .useCount b held)]⟩

/-- The bytes of the objects are not part of the memory. -/
def placedExec {α : Type} (op : PlacedOp α) (c : Call) (m : FreeList) : Option (α × FreeList) :=
  match op with
  | .base op => exec op c m
  | .construct _ => some ((), m)
  | .returnObject _ => some ((), m)
  | .destruct _ => some ((), m)

/-- The free list with its objects. -/
def placed (m_bUsingPlacementNew : Bool) : Machine PlacedOp Placed Call FreeList where
  act := Placed.act m_bUsingPlacementNew
  exec := placedExec

def bootPlaced (iBlockNum threads : Nat) : Conf Placed FreeList where
  mem := FreeList.new iBlockNum
  threads := List.replicate threads [.base (.caller [])]

/-- The place in the free list without objects. -/
@[simp] def Placed.erased : Placed → Frame
  | .base f => f
  | .construct b held => .caller (b :: held)
  | .returnObject b held => .caller (b :: held)
  | .destruct b held => .free .useCount b held

@[simp] theorem map_erased_base (fs : List Frame) :
    (fs.map Placed.base).map Placed.erased = fs := by
  rw [List.map_map]
  exact List.map_id fs

theorem map_erased_goesOn (m_bUsingPlacementNew : Bool) (f : Frame) (r : f.act.α) :
    (f.goesOn m_bUsingPlacementNew r).map Placed.erased = f.act.next r := by
  cases f with
  | alloc pc held =>
      cases pc with
      | incMaxCount newNode => rfl
      | cas uniqueNum cloneTop newTop =>
          obtain ⟨node, count⟩ := cloneTop
          cases r with
          | true => cases node <;> cases m_bUsingPlacementNew <;> rfl
          | false => rfl
      | _ => exact map_erased_base _
  | free pc b held =>
      cases pc with
      | cas newCount cloneTop => cases r <;> cases m_bUsingPlacementNew <;> rfl
      | _ => exact map_erased_base _
  | _ => exact map_erased_base _

/-- **Without the objects it is the free list.** -/
theorem placed_erases (m_bUsingPlacementNew : Bool) :
    (placed m_bUsingPlacementNew).Erases freeList Placed.erased where
  act := by
    intro f c m m' r done
    cases f with
    | base f => exact Or.inl ⟨r, done, map_erased_goesOn m_bUsingPlacementNew f r⟩
    | _ =>
        cases done
        exact Or.inr ⟨rfl, rfl⟩

theorem erase_bootPlaced (iBlockNum threads : Nat) :
    (bootPlaced iBlockNum threads).erase Placed.erased = boot iBlockNum threads := by
  unfold bootPlaced boot Conf.erase
  rw [List.map_replicate]
  rfl

/-! ## What happens to a block -/

inductive Life where
  | constructed
  /-- `Alloc` has returned the block. -/
  | returned
  | destroyed
  deriving DecidableEq

/-- What has happened to each block, newest first. -/
abbrev History : Type := Block → List Life

def Placed.life : Placed → Option (Block × Life)
  | .base _ => none
  | .construct b _ => some (b, .constructed)
  | .returnObject b _ => some (b, .returned)
  | .destruct b _ => some (b, .destroyed)

def History.note (m_bUsingPlacementNew : Bool) (_ : Nat) (f : Placed) (_ : List Placed)
    (_ : (f.act m_bUsingPlacementNew).α) (h : History) : History :=
  match f.life with
  | some (b, event) => Function.update h b (event :: h b)
  | none => h

/-- The constructor of the list constructs an object in each block it makes. -/
def History.new (iBlockNum : Nat) : History := fun b => if b < iBlockNum then [.constructed] else []

/-- Constructors and destructors in turn, a constructor first. -/
def Alternates : List Life → Prop
  | [] => True
  | [event] => event = .constructed
  | event :: before :: earlier => event ≠ before ∧ Alternates (before :: earlier)

/-- The calls of constructors and destructors. -/
def calls (events : List Life) : List Life := events.filter (· ≠ .returned)

/-- What the event has to come after. -/
def Life.After : Life → Option Life → Prop
  | .constructed, before => before = none ∨ before = some .destroyed
  | .returned, before => before = some .constructed
  | .destroyed, before => before = some .returned

/-- An object is constructed, returned and destroyed before there is another. -/
def Cyclic : List Life → Prop
  | [] => True
  | event :: earlier => event.After earlier.head? ∧ Cyclic earlier

theorem Cyclic.head_calls {events : List Life} (cyclic : Cyclic events) :
    (calls events).head? =
      if events.head? = some .returned then some .constructed else events.head? := by
  cases events with
  | nil => rfl
  | cons event earlier =>
      cases event with
      | returned =>
          obtain ⟨after, -⟩ := cyclic
          obtain ⟨rest, rfl⟩ := List.head?_eq_some_iff.mp after
          rfl
      | _ => rfl

theorem alternates_cons {event : Life} {earlier : List Life}
    (first : earlier.head? = none → event = .constructed)
    (other : ∀ before, earlier.head? = some before → event ≠ before)
    (alternates : Alternates earlier) : Alternates (event :: earlier) := by
  cases earlier with
  | nil => exact first rfl
  | cons before earlier => exact ⟨other before rfl, alternates⟩

theorem Cyclic.alternates {events : List Life} (cyclic : Cyclic events) :
    Alternates (calls events) := by
  induction events with
  | nil => trivial
  | cons event earlier ih =>
      obtain ⟨after, cyclic⟩ := cyclic
      have head := cyclic.head_calls
      cases event with
      | constructed =>
          apply alternates_cons (fun _ => rfl) _ (ih cyclic)
          intro before found
          change (calls earlier).head? = _ at found
          rw [head] at found
          rcases after with none | destroyed
          · rw [none] at found
            cases found
          · rw [destroyed] at found
            cases found
            exact Life.noConfusion
      | returned => exact ih cyclic
      | destroyed =>
          have returned : earlier.head? = some .returned := after
          rw [returned, if_pos rfl] at head
          apply alternates_cons _ _ (ih cyclic)
          · intro none
            cases head.symm.trans none
          · intro before found
            cases head.symm.trans found
            exact Life.noConfusion

/-- A block is returned right after its object has been constructed. -/
theorem Cyclic.fresh {later earlier : List Life} (cyclic : Cyclic (later ++ .returned :: earlier)) :
    earlier.head? = some .constructed := by
  induction later with
  | nil => exact cyclic.1
  | cons event later ih => exact ih cyclic.2

/-! ## Which objects there are -/

/-- The blocks a thread holds as a caller. -/
@[simp] def Placed.held : Placed → List Block
  | .base f => f.held
  | .construct _ held => held
  | .returnObject _ held => held
  | .destruct _ held => held

/-- The block a `Free` has not swapped in. -/
@[simp] def Frame.freeing : Frame → List Block
  | .free .useCount _ _ => []
  | .free _ returnedBlock _ => [returnedBlock]
  | _ => []

@[simp] def Placed.freeing : Placed → List Block
  | .base f => f.freeing
  | _ => []

/-- A `Free` that has still to destroy the object. -/
@[simp] def Placed.destructs (b : Block) : Placed → Nat
  | .destruct b' _ => share b' b
  | _ => 0

/-- An `Alloc` that has still to construct the object. -/
@[simp] def Placed.bare (b : Block) : Placed → Nat
  | .base (.alloc (.incMaxCount newNode) _) => share newNode b
  | .construct b' _ => share b' b
  | _ => 0

/-- An `Alloc` that has constructed it. -/
@[simp] def Placed.ready (b : Block) : Placed → Nat
  | .returnObject b' _ => share b' b
  | _ => 0

/-- The thread has the block with its object, that `Alloc` has returned. -/
def Placed.out (b : Block) (f : Placed) : Nat :=
  f.held.count b + f.freeing.count b + f.destructs b

/-- With its object, without it yet, or with the object to be destroyed. -/
theorem Placed.has_erased (b : Block) (f : Placed) :
    f.out b + f.ready b + f.bare b = f.erased.has b + f.destructs b := by
  unfold out Frame.has Frame.blocks
  rw [List.count_append]
  cases f with
  | base f =>
      cases f with
      | alloc pc held =>
          cases pc with
          | incMaxCount newNode => simp [count_singleton_share]
          | _ => simp
      | free pc b' held => cases pc <;> simp
      | _ => simp
  | destruct b' held => simp
  | _ =>
      simp only [held, freeing, destructs, ready, bare, erased, Frame.held, Frame.inHand,
        List.count_cons, List.count_nil, beq_iff_eq, share]
      omega

theorem Call.freeing_frame (held : List Block) (c : Call) :
    (c.frame held).freeing = (c.frame held).inHand := by
  cases c with
  | free k => cases found : held[k]? <;> simp [found]
  | give k => cases found : held[k]? <;> simp [found]
  | _ => rfl

/-- The operations of the free list move objects with their blocks, and make and
destroy none. -/
theorem out_next (b : Block) {f : Frame} {r : f.act.α} {c : Call} {m m' : FreeList}
    (done : exec f.act.op c m = some (r, m')) :
    ((f.goesOn true r).map (Placed.out b)).sum + m'.handed.count b =
        (Placed.base f).out b + m.handed.count b ∧
      ((f.goesOn true r).map (Placed.ready b)).sum = 0 := by
  cases f with
  | caller held =>
      cases done
      have same := (Call.blocks_frame held c).count_eq b
      rw [Frame.blocks, List.count_append, ← Call.freeing_frame] at same
      have next : Frame.goesOn true (.caller held) c = [.base (c.frame held)] := rfl
      rw [next, List.map_singleton, List.sum_singleton, List.map_singleton, List.sum_singleton]
      refine ⟨?_, rfl⟩
      show (c.frame held).held.count b + (c.frame held).freeing.count b + 0 + m.handed.count b =
        held.count b + 0 + 0 + m.handed.count b
      omega
  | alloc pc held =>
      cases pc with
      | useCount maxCount =>
          cases done
          simp only [Frame.goesOn, Frame.act, Alloc.act]
          split <;> simp [Placed.out]
      | liveTop uniqueNum cloneTop =>
          obtain ⟨-, rfl⟩ := Prod.mk.inj (Option.some.inj done)
          cases r <;> simp [Placed.out]
      | cas uniqueNum cloneTop newTop =>
          obtain ⟨node, count⟩ := cloneTop
          rcases cas_cases done with ⟨rfl, -, rfl⟩ | ⟨rfl, rfl⟩
          · cases node <;> simp [Placed.out]
          · simp [Placed.out]
      | _ =>
          cases done
          simp [Placed.out]
  | free pc b' held =>
      cases pc with
      | cas newCount cloneTop =>
          rcases cas_cases done with ⟨rfl, -, rfl⟩ | ⟨rfl, rfl⟩
          · simp [Placed.out, count_singleton_share]
          · simp [Placed.out]
      | _ =>
          cases done
          simp [Placed.out]
  | give b' held =>
      cases done
      simp [Placed.out, List.count_cons]
      omega
  | take k held =>
      cases done
      cases found : m.handed[k]? with
      | none =>
          rw [List.eraseIdx_of_length_le (List.getElem?_eq_none_iff.mp found)]
          simp [Placed.out]
      | some b' =>
          obtain ⟨bound, rfl⟩ := List.getElem?_eq_some_iff.mp found
          have same := (List.getElem_cons_eraseIdx_perm bound).count_eq b
          rw [List.count_cons] at same
          simp only [beq_iff_eq] at same
          simp [Placed.out, List.count_cons]
          omega
  | undefined held => cases done

/-- The event is the last one. -/
def Life.isLast (event : Life) (events : List Life) : Nat :=
  if events.head? = some event then 1 else 0

theorem Life.head_of_isLast {event : Life} {events : List Life}
    (last : 0 < event.isLast events) : events.head? = some event := by
  by_contra other
  rw [isLast, if_neg other] at last
  cases last

/-- The objects there are: in the blocks the list was made with, and in those
that an `Alloc` is about to return, that callers have or that a `Free` has still
to destroy. -/
structure Alive (iBlockNum : Nat) (s : Conf Placed FreeList) (h : History) : Prop where
  made : ∀ b, s.tally (Placed.ready b) + (if b < iBlockNum then 1 else 0) =
    Life.constructed.isLast (h b)
  out : ∀ b, s.tally (Placed.out b) + s.mem.handed.count b = Life.returned.isLast (h b)
  cyclic : ∀ b, Cyclic (h b)

/-- An `Alloc` constructs no object in a block that the list was made with, and
none in a block whose `Free` has still to run the destructor. -/
def Settled (iBlockNum : Nat) (s : Conf Placed FreeList) (t : Nat) (_ : Call) : Prop :=
  match s.top t with
  | some (.construct b _) => iBlockNum ≤ b ∧ s.tally (Placed.destructs b) = 0
  | _ => True

/-- A settled `Alloc` finds no object in the block. -/
theorem bare_of_construct {iBlockNum : Nat} {s : Conf Placed FreeList}
    (excl : Exclusive (s.erase Placed.erased)) {t : Nat} {c : Call} {b : Block}
    {held : List Block} {rest : List Placed}
    (here : s.threads[t]? = some (.construct b held :: rest)) (settled : Settled iBlockNum s t c) :
    s.tally (Placed.out b) = 0 ∧ s.tally (Placed.ready b) = 0 ∧ s.mem.handed.count b = 0 ∧
      iBlockNum ≤ b := by
  unfold Settled at settled
  rw [Conf.top_of_here here] at settled
  obtain ⟨fresh, none⟩ := settled
  obtain ⟨l, -, whole⟩ := excl.list
  have place := whole b
  rw [Conf.tally_erase] at place
  have parts : s.tally (fun f => f.out b + f.ready b + f.bare b) =
      s.tally (fun f => f.erased.has b + f.destructs b) := by
    congr 1
    funext f
    exact f.has_erased b
  rw [Conf.tally_add, Conf.tally_add, Conf.tally_add, none] at parts
  have own : 1 ≤ s.tally (Placed.bare b) := by
    have part := Conf.le_tally (w := Placed.bare b) (List.mem_of_getElem? here) List.mem_cons_self
    rw [Placed.bare, share_self] at part
    exact part
  have handed : (s.erase Placed.erased).mem.handed = s.mem.handed := rfl
  rw [handed] at place
  split_ifs at place <;> omega

namespace Alive

variable {iBlockNum : Nat} {s s' : Conf Placed FreeList} {h : History}

/-- An event on block `b'` at its time. -/
theorem record (inv : Alive iBlockNum s h) {b' : Block} {event : Life}
    (after : event.After (h b').head?) (handed : s'.mem.handed = s.mem.handed)
    (ready : ∀ b, s'.tally (Placed.ready b) + (if event = .returned then share b' b else 0) =
      s.tally (Placed.ready b) + if event = .constructed then share b' b else 0)
    (out : ∀ b, s'.tally (Placed.out b) + (if event = .destroyed then share b' b else 0) =
      s.tally (Placed.out b) + if event = .returned then share b' b else 0) :
    Alive iBlockNum s' (Function.update h b' (event :: h b')) := by
  have last (e : Life) : e.isLast (event :: h b') = if event = e then 1 else 0 := by
    simp only [Life.isLast, List.head?_cons, Option.some.injEq]
  refine ⟨?_, ?_, ?_⟩
  · intro b
    have before := inv.made b
    have change := ready b
    rcases eq_or_ne b' b with rfl | other
    · rw [share_self] at change
      rw [Function.update_self, last]
      cases event with
      | constructed =>
          have none : Life.constructed.isLast (h b') = 0 := by
            rcases after with none | destroyed <;> simp [Life.isLast, *]
          simp only [if_true, reduceCtorEq, if_false] at change ⊢
          omega
      | returned =>
          have one : Life.constructed.isLast (h b') = 1 := if_pos after
          simp only [if_true, reduceCtorEq, if_false] at change ⊢
          omega
      | destroyed =>
          have returned : (h b').head? = some .returned := after
          have none : Life.constructed.isLast (h b') = 0 := by simp [Life.isLast, returned]
          simp only [reduceCtorEq, if_false] at change ⊢
          omega
    · rw [share_of_ne other] at change
      rw [Function.update_of_ne other.symm]
      simp only [ite_self] at change
      omega
  · intro b
    have before := inv.out b
    have change := out b
    rw [handed]
    rcases eq_or_ne b' b with rfl | other
    · rw [share_self] at change
      rw [Function.update_self, last]
      cases event with
      | constructed =>
          have none : Life.returned.isLast (h b') = 0 := by
            rcases after with none | destroyed <;> simp [Life.isLast, *]
          simp only [reduceCtorEq, if_false] at change ⊢
          omega
      | returned =>
          have constructed : (h b').head? = some .constructed := after
          have none : Life.returned.isLast (h b') = 0 := by simp [Life.isLast, constructed]
          simp only [if_true, reduceCtorEq, if_false] at change ⊢
          omega
      | destroyed =>
          have one : Life.returned.isLast (h b') = 1 := if_pos after
          simp only [if_true, reduceCtorEq, if_false] at change ⊢
          omega
    · rw [share_of_ne other] at change
      rw [Function.update_of_ne other.symm]
      simp only [ite_self] at change
      omega
  · intro b
    rcases eq_or_ne b' b with rfl | other
    · rw [Function.update_self]
      exact ⟨after, inv.cyclic b'⟩
    · rw [Function.update_of_ne other.symm]
      exact inv.cyclic b

section Next

variable (inv : Alive iBlockNum s h) {t : Nat} {c : Call} {rest : List Placed} {b : Block}
  {held : List Block} {m : FreeList}

include inv

theorem next_base {f : Frame} {r : ((Placed.base f).act true).α}
    (here : s.threads[t]? = some (.base f :: rest))
    (done : placedExec ((Placed.base f).act true).op c s.mem = some (r, m)) :
    Alive iBlockNum ⟨m, s.threads.set t (((Placed.base f).act true).next r ++ rest)⟩
      (History.note true t (.base f) rest r h) := by
  have readies (x : Block) := Machine.tally_step (Placed.ready x) here
    (((Placed.base f).act true).next r) m
  have outs (x : Block) := Machine.tally_step (Placed.out x) here
    (((Placed.base f).act true).next r) m
  have next : ((Placed.base f).act true).next r = f.goesOn true r := rfl
  rw [next] at readies outs ⊢
  refine ⟨?_, ?_, inv.cyclic⟩
  · intro b
    have before := inv.made b
    have change := readies b
    rw [(out_next b done).2] at change
    exact (congrArg (· + _) change).trans before
  · intro b
    have before := inv.out b
    have change := outs b
    have moved := (out_next b done).1
    show _ = Life.returned.isLast (h b)
    dsimp only
    omega

/-- A constructor runs on a block that has no object, or had its last one destroyed. -/
theorem next_construct (excl : Exclusive (s.erase Placed.erased))
    {r : ((Placed.construct b held).act true).α}
    (here : s.threads[t]? = some (.construct b held :: rest))
    (done : placedExec ((Placed.construct b held).act true).op c s.mem = some (r, m))
    (settled : Settled iBlockNum s t c) :
    Alive iBlockNum ⟨m, s.threads.set t (((Placed.construct b held).act true).next r ++ rest)⟩
      (History.note true t (.construct b held) rest r h) := by
  have readies (x : Block) := Machine.tally_step (Placed.ready x) here
    (((Placed.construct b held).act true).next r) m
  have outs (x : Block) := Machine.tally_step (Placed.out x) here
    (((Placed.construct b held).act true).next r) m
  cases done
  obtain ⟨out, ready, handed, fresh⟩ := bare_of_construct excl here settled
  have made := inv.made b
  have returned := inv.out b
  rw [ready, if_neg (Nat.not_lt.mpr fresh)] at made
  rw [out, handed] at returned
  have after : Life.constructed.After (h b).head? := by
    cases last : (h b).head? with
    | none => exact Or.inl rfl
    | some event =>
        right
        cases event with
        | constructed =>
            rw [Life.isLast, if_pos last] at made
            cases made
        | returned =>
            rw [Life.isLast, if_pos last] at returned
            cases returned
        | destroyed => rfl
  show Alive iBlockNum _ (Function.update h b (.constructed :: h b))
  refine inv.record after ?_ ?_ ?_
  · rfl
  · intro b'
    simpa using readies b'
  · intro b'
    simpa [Placed.out] using outs b'

/-- The object that is handed out has been constructed since. -/
theorem next_returnObject {r : ((Placed.returnObject b held).act true).α}
    (here : s.threads[t]? = some (.returnObject b held :: rest))
    (done : placedExec ((Placed.returnObject b held).act true).op c s.mem = some (r, m)) :
    Alive iBlockNum ⟨m, s.threads.set t (((Placed.returnObject b held).act true).next r ++ rest)⟩
      (History.note true t (.returnObject b held) rest r h) := by
  have readies (x : Block) := Machine.tally_step (Placed.ready x) here
    (((Placed.returnObject b held).act true).next r) m
  have outs (x : Block) := Machine.tally_step (Placed.out x) here
    (((Placed.returnObject b held).act true).next r) m
  cases done
  have own : 1 ≤ s.tally (Placed.ready b) := by
    have part := Conf.le_tally (w := Placed.ready b) (List.mem_of_getElem? here)
      List.mem_cons_self
    rw [Placed.ready, share_self] at part
    exact part
  have after : Life.returned.After (h b).head? := by
    have made := inv.made b
    exact Life.head_of_isLast (by omega)
  show Alive iBlockNum _ (Function.update h b (.returned :: h b))
  refine inv.record after ?_ ?_ ?_
  · rfl
  · intro b'
    simpa using readies b'
  · intro b'
    have change := outs b'
    have more : (b :: held).count b' = held.count b' + share b b' := count_cons_share ..
    simp [Placed.out, more] at change ⊢
    omega

/-- The object that is destroyed has been handed out since. -/
theorem next_destruct {r : ((Placed.destruct b held).act true).α}
    (here : s.threads[t]? = some (.destruct b held :: rest))
    (done : placedExec ((Placed.destruct b held).act true).op c s.mem = some (r, m)) :
    Alive iBlockNum ⟨m, s.threads.set t (((Placed.destruct b held).act true).next r ++ rest)⟩
      (History.note true t (.destruct b held) rest r h) := by
  have readies (x : Block) := Machine.tally_step (Placed.ready x) here
    (((Placed.destruct b held).act true).next r) m
  have outs (x : Block) := Machine.tally_step (Placed.out x) here
    (((Placed.destruct b held).act true).next r) m
  cases done
  have own : 1 ≤ s.tally (Placed.out b) := by
    have part := Conf.le_tally (w := Placed.out b) (List.mem_of_getElem? here)
      List.mem_cons_self
    simp only [Placed.out, Placed.destructs, share_self] at part
    omega
  have after : Life.destroyed.After (h b).head? := by
    have out := inv.out b
    exact Life.head_of_isLast (by omega)
  show Alive iBlockNum _ (Function.update h b (.destroyed :: h b))
  refine inv.record after ?_ ?_ ?_
  · rfl
  · intro b'
    simpa using readies b'
  · intro b'
    have change := outs b'
    simp [Placed.out] at change ⊢
    omega

end Next

theorem next (inv : Alive iBlockNum s h) (excl : Exclusive (s.erase Placed.erased)) {t : Nat}
    {c : Call} {f : Placed} {rest : List Placed} {r : (f.act true).α} {m : FreeList}
    (here : s.threads[t]? = some (f :: rest))
    (done : placedExec (f.act true).op c s.mem = some (r, m)) (settled : Settled iBlockNum s t c) :
    Alive iBlockNum ⟨m, s.threads.set t ((f.act true).next r ++ rest)⟩
      (History.note true t f rest r h) := by
  cases f with
  | base f => exact inv.next_base here done
  | construct b held => exact inv.next_construct excl here done settled
  | returnObject b held => exact inv.next_returnObject here done
  | destruct b held => exact inv.next_destruct here done

theorem boot (iBlockNum threads : Nat) :
    Alive iBlockNum (bootPlaced iBlockNum threads) (History.new iBlockNum) := by
  have none {w : Placed → Nat} (light : w (.base (.caller [])) = 0) :
      (bootPlaced iBlockNum threads).tally w = 0 := by
    apply Conf.tally_eq_zero
    intro stack member f inside
    rw [List.eq_of_mem_replicate member] at inside
    rw [List.mem_singleton.mp inside]
    exact light
  obtain ⟨l, filled, -, -⟩ := FreeList.new_filled iBlockNum
  have handed : (bootPlaced iBlockNum threads).mem.handed = [] := filled.handed
  refine ⟨?_, ?_, ?_⟩
  · intro b
    rw [none rfl, History.new]
    split <;> rfl
  · intro b
    rw [none rfl, handed, History.new]
    split <;> rfl
  · intro b
    rw [History.new]
    split
    · exact ⟨Or.inl rfl, trivial⟩
    · trivial

end Alive

/-- The callers that have the block. -/
def owners (s : Conf Placed FreeList) (b : Block) : Nat :=
  s.tally (fun f => f.held.count b) + s.mem.handed.count b

/-- Constructors and destructors run in turn on each block, a constructor first;
a block is returned right after its constructor; and while a `Free` has its
destructor to run nobody has the block. -/
structure Lifecycle (s : Conf Placed FreeList) (h : History) : Prop where
  alternates : ∀ b, Alternates (calls (h b))
  fresh : ∀ b later earlier, h b = later ++ .returned :: earlier →
    earlier.head? = some .constructed
  mine : ∀ b held, ∀ stack ∈ s.threads, .destruct b held ∈ stack → owners s b = 0

theorem Alive.lifecycle {iBlockNum : Nat} {s : Conf Placed FreeList} {h : History}
    (inv : Alive iBlockNum s h) : Lifecycle s h := by
  refine ⟨fun b => (inv.cyclic b).alternates, ?_, ?_⟩
  · intro b later earlier same
    exact (same ▸ inv.cyclic b).fresh
  · intro b held stack member inside
    have out := inv.out b
    have one : Life.returned.isLast (h b) ≤ 1 := by
      unfold Life.isLast
      split <;> omega
    have parts : s.tally (fun f => f.held.count b) + s.tally (Placed.destructs b) ≤
        s.tally (Placed.out b) := by
      rw [← Conf.tally_add]
      apply Conf.tally_le
      intro f
      unfold Placed.out
      omega
    have own := Conf.le_tally (w := Placed.destructs b) member inside
    rw [Placed.destructs, share_self] at own
    unfold owners
    omega

/-- A constructor on a block that is not settled is the second in a row. -/
theorem Alive.not_alternates {iBlockNum : Nat} {s s' : Conf Placed FreeList} {h h' : History}
    (inv : Alive iBlockNum s h) {t : Nat} {c : Call} (unsettled : ¬ Settled iBlockNum s t c)
    (taken : (placed true).noted (History.note true) (s, h) t c = some (s', h')) :
    ∃ b, ¬ Alternates (calls (h' b)) := by
  obtain ⟨f, rest, r, m, here, -, same⟩ := Machine.noted_cases taken
  obtain ⟨-, rfl⟩ := Prod.mk.inj same
  have top : s.top t = some f := Conf.top_of_here here
  unfold Settled at unsettled
  rw [top] at unsettled
  cases f with
  | construct b held =>
      refine ⟨b, ?_⟩
      have after : History.note true t (.construct b held) rest r h b = .constructed :: h b :=
        Function.update_self ..
      have object : (calls (h b)).head? = some .constructed := by
        rw [(inv.cyclic b).head_calls]
        have made := inv.made b
        have out := inv.out b
        rcases Nat.lt_or_ge b iBlockNum with initial | fresh
        · rw [if_pos initial] at made
          have last : (h b).head? = some .constructed := Life.head_of_isLast (by omega)
          rw [last]
          rfl
        · have pending : 0 < s.tally (Placed.destructs b) :=
            Nat.pos_of_ne_zero fun none => unsettled ⟨fresh, none⟩
          have part : s.tally (Placed.destructs b) ≤ s.tally (Placed.out b) :=
            Conf.tally_le fun f => Nat.le_add_left _ _
          have last : (h b).head? = some .returned := Life.head_of_isLast (by omega)
          rw [last]
          rfl
      obtain ⟨before, calls_eq⟩ := List.head?_eq_some_iff.mp object
      intro alternates
      change Alternates (calls (History.note true t (.construct b held) rest r h b)) at alternates
      have cons : calls (.constructed :: h b) = .constructed :: calls (h b) := rfl
      rw [after, cons, calls_eq] at alternates
      exact alternates.1 rfl
  | _ => exact absurd trivial unsettled

/-- **Objects and blocks**, for runs whose steps are settled: constructors and
destructors alternate on each block, each block returned has a fresh object, and
no destructor runs on a block that somebody has.  The first step that is not
settled breaks that. -/
theorem object_lifecycle (iBlockNum threads : Nat) {s : Conf Placed FreeList} {h : History}
    (run : (placed true).NotedSteps (History.note true) (Settled iBlockNum)
      (bootPlaced iBlockNum threads, History.new iBlockNum) (s, h)) :
    Lifecycle s h ∧ ∀ t c s' h',
      (placed true).noted (History.note true) (s, h) t c = some (s', h') →
        (Lifecycle s' h' ↔ Settled iBlockNum s t c) := by
  have keeps : ∀ (p : Conf Placed FreeList × History) (t : Nat) (c : Call) (q),
      freeList.Steps (fun _ _ _ => True) (boot iBlockNum threads) (p.1.erase Placed.erased) ∧
          Alive iBlockNum p.1 p.2 →
        Settled iBlockNum p.1 t c → (placed true).noted (History.note true) p t c = some q →
        freeList.Steps (fun _ _ _ => True) (boot iBlockNum threads) (q.1.erase Placed.erased) ∧
          Alive iBlockNum q.1 q.2 := by
    rintro p t c q ⟨below, inv⟩ settled taken
    have one : (placed true).Steps (fun _ _ _ => True) p.1 q.1 :=
      .single ⟨t, c, trivial, Machine.step_of_noted taken⟩
    refine ⟨below.trans ((placed_erases true).steps one), ?_⟩
    obtain ⟨f, rest, r, m, here, done, rfl⟩ := Machine.noted_cases taken
    exact inv.next (Exclusive.of_run below) here done settled
  have first : freeList.Steps (fun _ _ _ => True) (boot iBlockNum threads)
      ((bootPlaced iBlockNum threads).erase Placed.erased) := by
    rw [erase_bootPlaced]
    exact .refl
  have inv := run.invariant
    (I := fun s h => freeList.Steps (fun _ _ _ => True) (boot iBlockNum threads)
      (s.erase Placed.erased) ∧ Alive iBlockNum s h)
    ⟨first, Alive.boot iBlockNum threads⟩ keeps
  refine ⟨inv.2.lifecycle, ?_⟩
  intro t c s' h' taken
  constructor
  · intro life
    by_contra unsettled
    obtain ⟨b, broken⟩ := inv.2.not_alternates unsettled taken
    exact broken (life.alternates b)
  · intro settled
    exact (keeps (s, h) t c (s', h') inv settled taken).2.lifecycle

instance (iBlockNum : Nat) (s : Conf Placed FreeList) (t : Nat) (c : Call) :
    Decidable (Settled iBlockNum s t c) := by
  unfold Settled
  split <;> infer_instance

/-- A thread takes a block, brings it back and takes it again. -/
def takeTwice : List (Nat × Call) :=
  List.replicate 7 (0, .alloc) ++ List.replicate 9 (0, .free 0) ++ List.replicate 11 (0, .alloc)

/-- A block that has been taken, brought back and taken again holds its second object. -/
theorem object_lifecycle_twice :
    ∃ s h, (placed true).NotedSteps (History.note true) (Settled 0)
        (bootPlaced 0 1, History.new 0) (s, h) ∧
      h 0 = [.returned, .constructed, .destroyed, .returned, .constructed] ∧
      Lifecycle s h := by
  have reached : ((placed true).runNoted (History.note true) (Settled 0) takeTwice
      (bootPlaced 0 1, History.new 0)).map (fun p => p.2 0) =
        some [.returned, .constructed, .destroyed, .returned, .constructed] := by
    decide +kernel
  obtain ⟨⟨s, h⟩, run, events⟩ := Option.map_eq_some_iff.mp reached
  have steps := Machine.NotedSteps.of_run run
  exact ⟨s, h, steps, events, (object_lifecycle 0 1 steps).1⟩

/-- Of two blocks it has, a thread frees both; another takes the second before
its destructor runs. -/
def takeEarly : List (Nat × Call) :=
  List.replicate 14 (0, .alloc) ++ List.replicate 16 (0, .free 0) ++ List.replicate 11 (1, .alloc)

/-- A block of the constructor gets a second object over its first, with one
thread; and a destructor is still to run on a block that another caller has. -/
theorem object_lifecycle_broken :
    (∃ s h, (placed true).NotedSteps (History.note true) (fun _ _ _ => True)
        (bootPlaced 1 1, History.new 1) (s, h) ∧
      h 0 = [.returned, .constructed, .constructed] ∧ ¬ Lifecycle s h) ∧
    ∃ s h, (placed true).NotedSteps (History.note true) (fun _ _ _ => True)
        (bootPlaced 0 2, History.new 0) (s, h) ∧
      s.tally (Placed.destructs 0) = 1 ∧ owners s 0 = 1 ∧
        h 0 = [.returned, .constructed, .returned, .constructed] ∧ ¬ Lifecycle s h := by
  constructor
  · have reached : ((placed true).runNoted (History.note true) (fun _ _ _ => True)
        (List.replicate 11 (0, .alloc)) (bootPlaced 1 1, History.new 1)).map (fun p => p.2 0) =
          some [.returned, .constructed, .constructed] := by
      decide +kernel
    obtain ⟨⟨s, h⟩, run, events⟩ := Option.map_eq_some_iff.mp reached
    refine ⟨s, h, .of_run run, events, fun life => ?_⟩
    have twice := life.alternates 0
    change h 0 = _ at events
    rw [events] at twice
    exact twice.1 rfl
  · have reached : ((placed true).runNoted (History.note true) (fun _ _ _ => True) takeEarly
        (bootPlaced 0 2, History.new 0)).map
          (fun p => (p.1.tally (Placed.destructs 0), owners p.1 0, p.2 0)) =
        some (1, 1, [.returned, .constructed, .returned, .constructed]) := by
      decide +kernel
    obtain ⟨⟨s, h⟩, run, found⟩ := Option.map_eq_some_iff.mp reached
    simp only [Prod.mk.injEq] at found
    obtain ⟨pending, owned, events⟩ := found
    refine ⟨s, h, .of_run run, pending, owned, events, fun life => ?_⟩
    have twice := life.alternates 0
    rw [events] at twice
    exact twice.1 rfl

end CLFFreeList

end ChattingServer
