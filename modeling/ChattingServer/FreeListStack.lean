import ChattingServer.Foundation.LinearPoints
import ChattingServer.FreeListExclusive

/-!
# The free list is a lock-free stack

Seen from outside, `CLFFreeList` is a stack of free blocks that makes a new block
now and then.  `Alloc` takes effect at the swap that succeeds, or at its `malloc`,
and `Free` at its swap.  `Calls` lists their moments; the effects in
it run on a sequential stack, and each call answers with its own effect
(`free_list_linearizable`).

A swap fails only if another thread's has succeeded since the clone was read, and
no success makes a thread fail twice (`free_list_lock_free`).
-/

namespace ChattingServer

namespace CLFFreeList

/-! ## The stack -/

inductive PoolOp where
  | alloc
  | free (b : Block)
  deriving DecidableEq

/-- What a call comes to: a block of the stack, a block from `malloc`, or a block
put on the stack. -/
inductive Outcome where
  | reused (b : Block)
  | made (b : Block)
  | freed
  deriving DecidableEq

/-- A sequential stack of free blocks, and how many blocks there are. -/
structure Pool where
  stack : List Block
  blocks : Nat
  deriving DecidableEq

/-- A pool with all its blocks free, the last one made on top. -/
def Pool.new (iBlockNum : Nat) : Pool := ⟨(List.range iBlockNum).reverse, iBlockNum⟩

/-- What a call may do to a pool. -/
def Pool.apply (p : Pool) : PoolOp → Outcome → Option Pool
  | .alloc, .reused b =>
      if p.stack.head? = some b then some { p with stack := p.stack.tail } else none
  | .alloc, .made b => if b = p.blocks then some { p with blocks := p.blocks + 1 } else none
  | .free b, .freed => if b ∈ p.stack then none else some { p with stack := b :: p.stack }
  | _, _ => none

/-! ## The record -/

/-- What the threads have called and got; and how many steps each has taken, how
many of them to choose a call, and how many swaps of each have failed. -/
structure Calls where
  moments : List (Moment PoolOp Outcome)
  steps : Nat → Nat
  calls : Nat → Nat
  failed : Nat → Nat

def Calls.nothing : Calls := ⟨[], fun _ => 0, fun _ => 0, fun _ => 0⟩

/-- What a step tells. -/
def Frame.moments (t : Nat) : (f : Frame) → f.act.α → List (Moment PoolOp Outcome)
  | .caller _, .alloc => [.invoke t .alloc]
  | .caller held, .free k => held[k]?.elim [] fun b => [.invoke t (.free b)]
  | .alloc .malloc _, newNode => [.effect t .alloc (.made newNode)]
  | .alloc (.incMaxCount newNode) _, _ => [.respond t (.made newNode)]
  | .alloc (.cas _ cloneTop _) _, true =>
      cloneTop.pTopNode.elim [] fun b => [.effect t .alloc (.reused b), .respond t (.reused b)]
  | .free (.cas _ _) returnedBlock _, true => [.effect t (.free returnedBlock) .freed]
  | .free .useCount _ _, _ => [.respond t .freed]
  | _, _ => []

/-- The step is a swap that fails. -/
def Frame.fails : (f : Frame) → f.act.α → Nat
  | .alloc (.cas _ _ _) _, false => 1
  | .free (.cas _ _) _ _, false => 1
  | _, _ => 0

def Frame.calls : Frame → Nat
  | .caller _ => 1
  | _ => 0

def Calls.note (t : Nat) (f : Frame) (_ : List Frame) (r : f.act.α) (h : Calls) : Calls where
  moments := h.moments ++ f.moments t r
  steps := Function.update h.steps t (h.steps t + 1)
  calls := Function.update h.calls t (h.calls t + f.calls)
  failed := Function.update h.failed t (h.failed t + f.fails r)

/-- How far a thread is with its call. -/
def Frame.stage : Frame → Stage PoolOp Outcome
  | .alloc (.incMaxCount newNode) _ => .took .alloc (.made newNode)
  | .alloc _ _ => .called .alloc
  | .free .useCount returnedBlock _ => .took (.free returnedBlock) .freed
  | .free _ returnedBlock _ => .called (.free returnedBlock)
  | .undefined _ => .called .alloc
  | _ => .idle

/-! ## Stages -/

/-- A step leads from the stage of its frame to that of the next. -/
theorem turns_next {t : Nat} {h : List (Moment PoolOp Outcome)} (f : Frame) (r : f.act.α)
    (turns : Turns t h f.stage) :
    ∃ g, f.act.next r = [g] ∧ Turns t (h ++ f.moments t r) g.stage := by
  have still : Turns t (h ++ []) f.stage := by
    rw [List.append_nil]
    exact turns
  cases f with
  | caller held =>
      refine ⟨r.frame held, rfl, ?_⟩
      cases r with
      | alloc => exact turns.snoc (Turn.invoke PoolOp.alloc)
      | free k =>
          simp only [Frame.moments, Call.frame]
          cases held[k]? with
          | none => exact still
          | some b => exact turns.snoc (Turn.invoke (PoolOp.free b))
      | give k =>
          simp only [Frame.moments, Call.frame]
          cases held[k]? <;> exact still
      | take k => exact still
  | alloc pc held =>
      cases pc with
      | useCount maxCount =>
          simp only [Frame.act, Alloc.act]
          split <;> exact ⟨_, rfl, still⟩
      | malloc => exact ⟨_, rfl, turns.snoc (Turn.effect PoolOp.alloc (Outcome.made r))⟩
      | incMaxCount newNode =>
          exact ⟨_, rfl, turns.snoc (Turn.respond PoolOp.alloc (Outcome.made newNode))⟩
      | liveTop uniqueNum cloneTop => cases r <;> exact ⟨_, rfl, still⟩
      | cas uniqueNum cloneTop newTop =>
          obtain ⟨node, count⟩ := cloneTop
          cases r with
          | true =>
              cases node with
              | none => exact ⟨_, rfl, still⟩
              | some b =>
                  refine ⟨_, rfl, ?_⟩
                  have swapped := turns.snoc (Turn.effect PoolOp.alloc (Outcome.reused b))
                  have answered := swapped.snoc (Turn.respond PoolOp.alloc (Outcome.reused b))
                  rwa [List.append_assoc] at answered
          | false => exact ⟨_, rfl, still⟩
      | _ => exact ⟨_, rfl, still⟩
  | free pc b held =>
      cases pc with
      | cas newCount cloneTop =>
          cases r with
          | true => exact ⟨_, rfl, turns.snoc (Turn.effect (PoolOp.free b) Outcome.freed)⟩
          | false => exact ⟨_, rfl, still⟩
      | useCount => exact ⟨_, rfl, turns.snoc (Turn.respond (PoolOp.free b) Outcome.freed)⟩
      | _ => exact ⟨_, rfl, still⟩
  | _ => exact ⟨_, rfl, still⟩

/-- A step tells of its own thread. -/
theorem thread_of_moments {t : Nat} {f : Frame} {r : f.act.α} {m : Moment PoolOp Outcome}
    (member : m ∈ f.moments t r) : m.thread = t := by
  cases f with
  | caller held =>
      cases r with
      | alloc =>
          obtain rfl := List.mem_singleton.mp member
          rfl
      | free k =>
          simp only [Frame.moments] at member
          cases found : held[k]? with
          | none =>
              rw [found] at member
              cases member
          | some b =>
              rw [found] at member
              obtain rfl := List.mem_singleton.mp member
              rfl
      | _ => cases member
  | alloc pc held =>
      cases pc with
      | malloc =>
          obtain rfl := List.mem_singleton.mp member
          rfl
      | incMaxCount newNode =>
          obtain rfl := List.mem_singleton.mp member
          rfl
      | cas uniqueNum cloneTop newTop =>
          obtain ⟨node, count⟩ := cloneTop
          cases r with
          | true =>
              cases node with
              | none => cases member
              | some b =>
                  rcases List.mem_cons.mp member with rfl | answer
                  · rfl
                  · obtain rfl := List.mem_singleton.mp answer
                    rfl
          | false => cases member
      | _ => cases member
  | free pc b held =>
      cases pc with
      | cas newCount cloneTop =>
          cases r with
          | true =>
              obtain rfl := List.mem_singleton.mp member
              rfl
          | false => cases member
      | useCount =>
          obtain rfl := List.mem_singleton.mp member
          rfl
      | _ => cases member
  | _ => cases member

/-! ## Effects -/

section Step

variable {s : Conf Frame FreeList} {t : Nat} {c : Call} {f : Frame} {rest : List Frame}
  {r : f.act.α} {m : FreeList}

/-- A step does to the list in the memory what its effects do to the stack. -/
theorem pool_next {l : List Block} (linked : Linked s.mem.stpNextBlock s.mem.pTop.pTopNode l)
    (current : f.Current s.mem) (unlisted : ∀ b ∈ f.inHand, b ∉ l)
    (done : exec f.act.op c s.mem = some (r, m)) :
    ∃ l', Linked m.stpNextBlock m.pTop.pTopNode l' ∧
      replay Pool.apply ⟨l, s.mem.blocks⟩ (f.moments t r) = some ⟨l', m.blocks⟩ := by
  cases f with
  | caller held =>
      cases done
      refine ⟨l, linked, ?_⟩
      cases c with
      | free k =>
          simp only [Frame.moments]
          cases held[k]? <;> rfl
      | _ => rfl
  | alloc pc held =>
      cases pc with
      | malloc =>
          cases done
          exact ⟨l, linked, by simp [Frame.moments, replay, Pool.apply]⟩
      | cas uniqueNum cloneTop newTop =>
          rcases cas_cases done with ⟨rfl, rfl, rfl⟩ | ⟨rfl, rfl⟩
          · -- the clone was the top, and what was read behind it is still true
            obtain ⟨top, first, link⟩ := current rfl
            rw [first] at linked
            obtain ⟨below, rfl, linked'⟩ := linked.pop
            refine ⟨below, link ▸ linked', ?_⟩
            simp [Frame.moments, first, replay, Pool.apply]
          · exact ⟨l, linked, rfl⟩
      | _ =>
          cases done
          exact ⟨l, linked, rfl⟩
  | free pc b held =>
      cases pc with
      | storeNext newCount cloneTop top =>
          cases done
          exact ⟨l, linked.update (unlisted b List.mem_cons_self) top, rfl⟩
      | cas newCount cloneTop =>
          rcases cas_cases done with ⟨rfl, rfl, rfl⟩ | ⟨rfl, rfl⟩
          · refine ⟨b :: l, linked.push (current rfl), ?_⟩
            simp [Frame.moments, replay, Pool.apply, unlisted b List.mem_cons_self]
          · exact ⟨l, linked, rfl⟩
      | _ =>
          cases done
          exact ⟨l, linked, rfl⟩
  | undefined held => cases done
  | _ =>
      cases done
      exact ⟨l, linked, rfl⟩

end Step

/-- The calls so far, run on a stack, leave it with the blocks of the list. -/
structure Linear (iBlockNum : Nat) (s : Conf Frame FreeList) (h : Calls) : Prop where
  list : ∃ l, Linked s.mem.stpNextBlock s.mem.pTop.pTopNode l ∧
    replay Pool.apply (.new iBlockNum) h.moments = some ⟨l, s.mem.blocks⟩
  turns : ∀ t, Turns t h.moments ((s.top t).elim .idle Frame.stage)

theorem Linear.next {iBlockNum : Nat} {s : Conf Frame FreeList} {h : Calls} {t : Nat} {c : Call}
    {f : Frame} {rest : List Frame} {r : f.act.α} {m : FreeList} (linear : Linear iBlockNum s h)
    (excl : Exclusive s) (here : s.threads[t]? = some (f :: rest))
    (done : exec f.act.op c s.mem = some (r, m)) :
    Linear iBlockNum ⟨m, s.threads.set t (f.act.next r ++ rest)⟩ (Calls.note t f rest r h) := by
  have current := excl.current _ (List.mem_of_getElem? here) f List.mem_cons_self
  refine ⟨?_, ?_⟩
  · obtain ⟨l, linked, replayed⟩ := linear.list
    obtain ⟨l₀, linked₀, whole⟩ := excl.list
    obtain rfl := linked.unique linked₀
    have unlisted (b : Block) (inHand : b ∈ f.inHand) : b ∉ l :=
      (Exclusive.apart (whole b) here inHand).1
    obtain ⟨l', linked', told⟩ := pool_next (t := t) linked current unlisted done
    refine ⟨l', linked', ?_⟩
    rw [Calls.note, replay_append, replayed]
    exact told
  · intro k
    have before := linear.turns k
    rcases eq_or_ne k t with rfl | other
    · rw [Conf.top_of_here here, Option.elim_some] at before
      obtain ⟨g, next, turns⟩ := turns_next f r before
      have top : (Conf.mk m (s.threads.set k (f.act.next r ++ rest))).top k = some g := by
        rw [next]
        exact Conf.top_of_here (List.getElem?_set_self (List.getElem?_eq_some_iff.mp here).1)
      rw [top]
      exact turns
    · rw [Conf.top_set_of_ne other.symm]
      refine before.of_others ?_
      intro moment member
      rw [thread_of_moments member]
      exact other.symm

theorem FreeList.linked_fill {m : FreeList} {l : List Block} {k : Nat}
    (linked : Linked m.stpNextBlock m.pTop.pTopNode l) (blocks : m.blocks = k)
    (old : ∀ b ∈ l, b < k) (count : Nat) :
    Linked (m.fill count).stpNextBlock (m.fill count).pTop.pTopNode
      ((List.range' k count).reverse ++ l) := by
  induction count generalizing m l k with
  | zero => exact linked
  | succ count ih =>
      have unlisted : k ∉ l := fun inside => Nat.lt_irrefl k (old k inside)
      subst blocks
      have pushed := (linked.update unlisted m.pTop.pTopNode).push (Function.update_self ..)
      rw [List.range'_succ, List.reverse_cons, List.append_assoc]
      refine ih pushed rfl ?_
      intro b member
      rcases List.mem_cons.mp member with rfl | inside
      · exact Nat.lt_succ_self _
      · exact Nat.lt_succ_of_lt (old b inside)

/-- The blocks of a fresh list, the last one made first. -/
theorem FreeList.linked_new (iBlockNum : Nat) :
    Linked (FreeList.new iBlockNum).stpNextBlock (FreeList.new iBlockNum).pTop.pTopNode
      (List.range iBlockNum).reverse := by
  have empty : Linked (fun _ : Block => none) none [] := rfl
  rw [← List.append_nil (List.range iBlockNum).reverse, List.range_eq_range']
  refine linked_fill empty rfl ?_ iBlockNum
  intro b member
  cases member

theorem top_boot {iBlockNum threads t : Nat} {f : Frame}
    (top : (boot iBlockNum threads).top t = some f) : f = .caller [] := by
  obtain ⟨rest, there⟩ := Conf.top_cases top
  have same := List.eq_of_mem_replicate (List.mem_of_getElem? there)
  cases same
  rfl

theorem Linear.boot (iBlockNum threads : Nat) :
    Linear iBlockNum (boot iBlockNum threads) .nothing := by
  refine ⟨⟨(List.range iBlockNum).reverse, ?_, ?_⟩, ?_⟩
  · exact FreeList.linked_new iBlockNum
  · obtain ⟨l, -, blocks, -⟩ := FreeList.new_filled iBlockNum
    show some (Pool.new iBlockNum) = some ⟨_, (FreeList.new iBlockNum).blocks⟩
    rw [blocks]
    rfl
  · intro t
    have idle : ((CLFFreeList.boot iBlockNum threads).top t).elim .idle Frame.stage =
        (.idle : Stage PoolOp Outcome) := by
      cases top : (CLFFreeList.boot iBlockNum threads).top t with
      | none => rfl
      | some f =>
          obtain rfl := top_boot top
          rfl
    rw [idle]
    exact .start

theorem Linear.of_run {iBlockNum threads : Nat} {s : Conf Frame FreeList} {h : Calls}
    (run : freeList.NotedSteps Calls.note (fun _ _ _ => True)
      (CLFFreeList.boot iBlockNum threads, .nothing) (s, h)) : Linear iBlockNum s h := by
  have both : Exclusive s ∧ Linear iBlockNum s h := by
    refine run.invariant (I := fun s h => Exclusive s ∧ Linear iBlockNum s h)
      ⟨.boot iBlockNum threads, .boot iBlockNum threads⟩ ?_
    intro p t c q both _ noted
    obtain ⟨f, rest, r, m, here, done, rfl⟩ := Machine.noted_cases noted
    exact ⟨both.1.next here done, both.2.next both.1 here done⟩
  exact both.2

/-- **The free list is a stack**, for any number of threads and any run, with 64-bit
tags taken not to wrap.  Its effects, in their order, are those of a sequential stack
that starts with the initial blocks; and each call takes effect once between its call
and its answer, and answers with its effect. -/
theorem free_list_linearizable {iBlockNum threads : Nat} {s : Conf Frame FreeList} {h : Calls}
    (run : freeList.NotedSteps Calls.note (fun _ _ _ => True)
      (boot iBlockNum threads, .nothing) (s, h)) :
    (∃ l, Linked s.mem.stpNextBlock s.mem.pTop.pTopNode l ∧
      replay Pool.apply (.new iBlockNum) h.moments = some ⟨l, s.mem.blocks⟩) ∧
    (∀ t a b op outcome, h.moments = a ++ .effect t op outcome :: b →
      ∃ c d, a = c ++ .invoke t op :: d ∧ ∀ m ∈ d, m.thread ≠ t) ∧
    ∀ t a b outcome, h.moments = a ++ .respond t outcome :: b →
      ∃ c d e op, a = c ++ .invoke t op :: d ++ .effect t op outcome :: e ∧
        ∀ m ∈ d ++ e, m.thread ≠ t := by
  have linear := Linear.of_run run
  refine ⟨linear.list, ?_, ?_⟩
  · intro t a b op outcome parts
    have turns := linear.turns t
    rw [parts] at turns
    exact turns.exists_invoke
  · intro t a b outcome parts
    have turns := linear.turns t
    rw [parts] at turns
    exact turns.exists_effect

/-- While the first thread has read its clone, the second takes a block; the first
fails once and takes the other. -/
def overtake : List (Nat × Call) :=
  List.replicate 6 (0, .alloc) ++ List.replicate 9 (1, .alloc) ++ List.replicate 8 (0, .alloc)

/-- Of two threads whose calls of `Alloc` overlap each has one of the two blocks of the
list, and the stack that the calls are replayed on gives them the same ones. -/
theorem free_list_linearizable_two :
    ∃ s h, freeList.NotedSteps Calls.note (fun _ _ _ => True) (boot 2 2, .nothing) (s, h) ∧
      h.moments = [.invoke 0 .alloc, .invoke 1 .alloc, .effect 1 .alloc (.reused 1),
        .respond 1 (.reused 1), .effect 0 .alloc (.reused 0), .respond 0 (.reused 0)] ∧
      ∃ l, Linked s.mem.stpNextBlock s.mem.pTop.pTopNode l ∧
        replay Pool.apply (.new 2) h.moments = some ⟨l, s.mem.blocks⟩ := by
  have reached : (freeList.runNoted Calls.note (fun _ _ _ => True) overtake
      (boot 2 2, .nothing)).map (fun p => p.2.moments) =
        some [.invoke 0 .alloc, .invoke 1 .alloc, .effect 1 .alloc (.reused 1),
          .respond 1 (.reused 1), .effect 0 .alloc (.reused 0), .respond 0 (.reused 0)] := by
    decide +kernel
  obtain ⟨⟨s, h⟩, taken, moments⟩ := Option.map_eq_some_iff.mp reached
  have run := Machine.NotedSteps.of_run taken
  exact ⟨s, h, run, moments, (free_list_linearizable run).1⟩

/-! ## Progress -/

/-- The clone a thread has read, or the half of it, is no longer the top. -/
def Frame.outdated (top : TopNode) : Frame → Nat
  | .alloc (.cloneCount _ node) _ => if node = top.pTopNode then 0 else 1
  | .free (.cloneCount _ node) _ _ => if node = top.pTopNode then 0 else 1
  | f => f.clone.elim 0 fun cloneTop => if cloneTop = top then 0 else 1

theorem outdated_le (top : TopNode) (f : Frame) : f.outdated top ≤ 1 := by
  unfold Frame.outdated
  split
  · split <;> decide
  · split <;> decide
  · cases f.clone with
    | none => exact Nat.zero_le 1
    | some cloneTop =>
        simp only [Option.elim_some]
        split <;> decide

/-- A block comes from the stack or goes to it. -/
def Moment.swaps : Moment PoolOp Outcome → Bool
  | .effect _ _ (.reused _) => true
  | .effect _ _ .freed => true
  | _ => false

/-- The swaps of the other threads. -/
def Calls.overtakes (h : Calls) (t : Nat) : Nat :=
  h.moments.countP fun m => Moment.swaps m && decide (m.thread ≠ t)

/-- The steps a thread has left of its call if its next swap succeeds. -/
def Alloc.left : Alloc → Nat
  | .loadMax => 8
  | .useCount _ => 7
  | .malloc => 2
  | .incMaxCount _ => 1
  | .count => 6
  | .cloneNode _ => 5
  | .cloneCount _ _ => 4
  | .liveTop _ _ => 3
  | .next _ _ _ => 2
  | .cas _ _ _ => 1

def Free.left : Free → Nat
  | .count => 7
  | .cloneNode _ => 6
  | .cloneCount _ _ => 5
  | .liveTop _ _ => 4
  | .storeNext _ _ _ => 3
  | .cas _ _ => 2
  | .useCount => 1

def Frame.left : Frame → Nat
  | .caller _ => 0
  | .alloc pc _ => pc.left
  | .free pc _ _ => pc.left
  | .give _ _ => 1
  | .take _ _ => 1
  | .undefined _ => 0

/-- A call that succeeds at once takes eight steps. -/
theorem left_call_le (held : List Block) (c : Call) : (c.frame held).left ≤ 8 := by
  cases c with
  | alloc => exact Nat.le_refl 8
  | free k =>
      rw [Call.frame]
      cases held[k]? with
      | none => exact Nat.zero_le 8
      | some b => exact Nat.le_succ 7
  | give k =>
      rw [Call.frame]
      cases held[k]? with
      | none => exact Nat.zero_le 8
      | some b => exact Nat.le_add_left 1 7
  | take k => exact Nat.le_add_left 1 7

/-- A step takes one from what is left, unless it starts a call or its swap fails. -/
theorem left_next {f g : Frame} {r : f.act.α} {c : Call} {m m' : FreeList}
    (done : exec f.act.op c m = some (r, m')) (member : g ∈ f.act.next r) :
    g.left + 1 ≤ f.left + 9 * f.calls + 5 * f.fails r := by
  cases f with
  | caller held =>
      obtain rfl := List.mem_singleton.mp member
      exact Nat.succ_le_succ (left_call_le held r)
  | alloc pc held =>
      cases pc with
      | useCount maxCount =>
          simp only [Frame.act, Alloc.act] at member
          split at member
          · obtain rfl := List.mem_singleton.mp member
            exact Nat.le_add_left 3 4
          · obtain rfl := List.mem_singleton.mp member
            exact Nat.le_refl 7
      | liveTop uniqueNum cloneTop =>
          cases r with
          | none =>
              obtain rfl := List.mem_singleton.mp member
              exact Nat.le_add_left 1 2
          | some top =>
              obtain rfl := List.mem_singleton.mp member
              exact Nat.le_refl 3
      | cas uniqueNum cloneTop newTop =>
          obtain ⟨node, count⟩ := cloneTop
          cases r with
          | true =>
              cases node with
              | none =>
                  obtain rfl := List.mem_singleton.mp member
                  exact Nat.le_refl 1
              | some b =>
                  obtain rfl := List.mem_singleton.mp member
                  exact Nat.le_refl 1
          | false =>
              obtain rfl := List.mem_singleton.mp member
              exact Nat.le_refl 6
      | _ =>
          obtain rfl := List.mem_singleton.mp member
          exact Nat.le_refl _
  | free pc b held =>
      cases pc with
      | cas newCount cloneTop =>
          cases r with
          | true =>
              obtain rfl := List.mem_singleton.mp member
              exact Nat.le_refl 2
          | false =>
              obtain rfl := List.mem_singleton.mp member
              exact Nat.le_refl 7
      | _ =>
          obtain rfl := List.mem_singleton.mp member
          exact Nat.le_refl _
  | undefined held => cases done
  | _ =>
      obtain rfl := List.mem_singleton.mp member
      exact Nat.le_refl 1

/-- The half read first outdates the clone, or else the whole is fresh. -/
theorem outdated_read (node : Option Block) (top : TopNode) :
    (if TopNode.mk node top.lCount = top then 0 else 1) ≤ if node = top.pTopNode then 0 else 1 := by
  split
  · exact Nat.zero_le _
  · rename_i outdated
    rw [if_neg]
    rintro rfl
    exact outdated rfl

section Swaps

variable {f : Frame} {r : f.act.α} {c : Call} {m m' : FreeList}

theorem cas_false {exchange cloneTop : TopNode}
    (done : exec (.cas exchange cloneTop) c m = some (false, m')) : cloneTop ≠ m.pTop := by
  rintro rfl
  unfold exec at done
  simp only [if_pos, Option.some.injEq, Prod.mk.injEq, Bool.true_eq_false, false_and] at done

theorem Alloc.outdated_next {pc : Alloc} {held : List Block}
    {r : (Frame.alloc pc held).act.α} {m' : FreeList}
    (done : exec (Frame.alloc pc held).act.op c m = some (r, m')) {g : Frame}
    (member : g ∈ (Frame.alloc pc held).act.next r) :
    (Frame.alloc pc held).fails r + g.outdated m'.pTop ≤ (Frame.alloc pc held).outdated m.pTop := by
  cases pc with
  | useCount maxCount =>
      simp only [Frame.act, Alloc.act] at member
      split at member
      · obtain rfl := List.mem_singleton.mp member
        exact Nat.le_refl 0
      · obtain rfl := List.mem_singleton.mp member
        exact Nat.le_refl 0
  | cloneNode uniqueNum =>
      cases done
      obtain rfl := List.mem_singleton.mp member
      simp [Frame.fails, Frame.outdated]
  | cloneCount uniqueNum node =>
      cases done
      obtain rfl := List.mem_singleton.mp member
      exact (Nat.zero_add _).trans_le (outdated_read node m.pTop)
  | liveTop uniqueNum cloneTop =>
      have same : m'.pTop = m.pTop := by
        cases done
        rfl
      rw [same]
      cases r with
      | none =>
          obtain rfl := List.mem_singleton.mp member
          exact Nat.zero_le _
      | some top =>
          obtain rfl := List.mem_singleton.mp member
          exact Nat.le_of_eq (Nat.zero_add _)
  | next uniqueNum cloneTop top =>
      cases done
      obtain rfl := List.mem_singleton.mp member
      simp [Frame.fails, Frame.outdated]
  | cas uniqueNum cloneTop newTop =>
      rcases cas_cases done with ⟨rfl, -, rfl⟩ | ⟨rfl, rfl⟩
      · obtain ⟨node, count⟩ := cloneTop
        cases node with
        | none =>
            obtain rfl := List.mem_singleton.mp member
            exact Nat.zero_le _
        | some b =>
            obtain rfl := List.mem_singleton.mp member
            exact Nat.zero_le _
      · obtain rfl := List.mem_singleton.mp member
        exact Nat.le_of_eq (if_neg (cas_false done)).symm
  | _ =>
      cases done
      obtain rfl := List.mem_singleton.mp member
      exact Nat.le_refl 0

theorem Free.outdated_next {pc : Free} {b : Block} {held : List Block}
    {r : (Frame.free pc b held).act.α} {m' : FreeList}
    (done : exec (Frame.free pc b held).act.op c m = some (r, m')) {g : Frame}
    (member : g ∈ (Frame.free pc b held).act.next r) :
    (Frame.free pc b held).fails r + g.outdated m'.pTop ≤
      (Frame.free pc b held).outdated m.pTop := by
  cases pc with
  | cloneNode newCount =>
      cases done
      obtain rfl := List.mem_singleton.mp member
      simp [Frame.fails, Frame.outdated]
  | cloneCount newCount node =>
      cases done
      obtain rfl := List.mem_singleton.mp member
      exact (Nat.zero_add _).trans_le (outdated_read node m.pTop)
  | liveTop newCount cloneTop =>
      cases done
      obtain rfl := List.mem_singleton.mp member
      simp [Frame.fails, Frame.outdated]
  | storeNext newCount cloneTop top =>
      cases done
      obtain rfl := List.mem_singleton.mp member
      simp [Frame.fails, Frame.outdated]
  | cas newCount cloneTop =>
      rcases cas_cases done with ⟨rfl, -, rfl⟩ | ⟨rfl, rfl⟩
      · obtain rfl := List.mem_singleton.mp member
        exact Nat.zero_le _
      · obtain rfl := List.mem_singleton.mp member
        exact Nat.le_of_eq (if_neg (cas_false done)).symm
  | _ =>
      cases done
      obtain rfl := List.mem_singleton.mp member
      exact Nat.le_refl 0

/-- A swap that fails uses up an outdated clone, and only a swap outdates one. -/
theorem outdated_next (done : exec f.act.op c m = some (r, m')) {g : Frame}
    (member : g ∈ f.act.next r) :
    f.fails r + g.outdated m'.pTop ≤ f.outdated m.pTop := by
  cases f with
  | caller held =>
      obtain rfl := List.mem_singleton.mp member
      have fresh : (r.frame held).outdated m'.pTop = 0 := by
        cases r with
        | free k =>
            rw [Call.frame]
            cases held[k]? <;> rfl
        | give k =>
            rw [Call.frame]
            cases held[k]? <;> rfl
        | _ => rfl
      exact Nat.le_of_eq ((Nat.zero_add _).trans fresh)
  | alloc pc held => exact Alloc.outdated_next done member
  | free pc b held => exact Free.outdated_next done member
  | undefined held => cases done
  | _ =>
      obtain rfl := List.mem_singleton.mp member
      exact Nat.le_refl 0

/-- A swap is told. -/
theorem swap_told {t : Nat} (current : f.Current m) (done : exec f.act.op c m = some (r, m'))
    (swaps : f.swaps r = true) : ∃ moment ∈ f.moments t r, Moment.swaps moment = true := by
  cases f with
  | alloc pc held =>
      cases pc with
      | cas uniqueNum cloneTop newTop =>
          rcases cas_cases done with ⟨rfl, rfl, rfl⟩ | ⟨rfl, rfl⟩
          · obtain ⟨top, first, -⟩ := current rfl
            simp only [Frame.moments, first]
            exact ⟨_, List.mem_cons_self, rfl⟩
          · cases swaps
      | _ => cases swaps
  | free pc b held =>
      cases pc with
      | cas newCount cloneTop =>
          cases r with
          | true => exact ⟨_, List.mem_cons_self, rfl⟩
          | false => cases swaps
      | _ => cases swaps
  | _ => cases swaps

end Swaps

/-- A thread's swaps fail less often than others succeed, its clone counted as a failure
to come; and its steps are paid for by its calls and its failures. -/
structure Progress (s : Conf Frame FreeList) (h : Calls) (t : Nat) : Prop where
  failed : h.failed t + (s.top t).elim 0 (Frame.outdated s.mem.pTop) ≤ h.overtakes t
  steps : h.steps t + (s.top t).elim 0 Frame.left ≤ 9 * h.calls t + 5 * h.failed t

theorem Calls.overtakes_note (t k : Nat) (f : Frame) (rest : List Frame) (r : f.act.α)
    (h : Calls) : (Calls.note t f rest r h).overtakes k = h.overtakes k +
      (f.moments t r).countP fun m => Moment.swaps m && decide (m.thread ≠ k) :=
  List.countP_append

theorem Progress.next {s : Conf Frame FreeList} {h : Calls} {t : Nat} {c : Call} {f : Frame}
    {rest : List Frame} {r : f.act.α} {m : FreeList} {k : Nat} (progress : Progress s h k)
    (current : f.Current s.mem) (here : s.threads[t]? = some (f :: rest))
    (done : exec f.act.op c s.mem = some (r, m)) (single : ∃ g, f.act.next r = [g]) :
    Progress ⟨m, s.threads.set t (f.act.next r ++ rest)⟩ (Calls.note t f rest r h) k := by
  obtain ⟨failed, steps⟩ := progress
  obtain ⟨g, next⟩ := single
  have told := Calls.overtakes_note t k f rest r h
  rcases eq_or_ne k t with rfl | other
  · rw [Conf.top_of_here here, Option.elim_some] at failed steps
    have top : (Conf.mk m (s.threads.set k (f.act.next r ++ rest))).top k = some g := by
      rw [next]
      exact Conf.top_of_here (List.getElem?_set_self (List.getElem?_eq_some_iff.mp here).1)
    have member : g ∈ f.act.next r := next ▸ List.mem_singleton_self g
    have spent := outdated_next done member
    have left := left_next done member
    constructor
    · rw [top, told]
      simp only [Calls.note, Function.update_self, Option.elim_some]
      omega
    · rw [top]
      simp only [Calls.note, Function.update_self, Option.elim_some]
      omega
  · have kept : (Conf.mk m (s.threads.set t (f.act.next r ++ rest))).top k = s.top k :=
      Conf.top_set_of_ne other.symm
    constructor
    · rw [kept, told]
      simp only [Calls.note, Function.update_of_ne other]
      rcases exec_swaps done with ⟨-, same⟩ | ⟨swaps, -, -⟩
      · rw [same]
        omega
      · -- whatever the clone of the thread was, it may be outdated now
        obtain ⟨moment, member, counts⟩ := swap_told (t := t) current done swaps
        have counted : 0 < (f.moments t r).countP
            fun m => Moment.swaps m && decide (m.thread ≠ k) := by
          refine List.countP_pos_iff.mpr ⟨moment, member, ?_⟩
          rw [counts, thread_of_moments member, decide_eq_true other.symm]
          rfl
        have one : (s.top k).elim 0 (Frame.outdated m.pTop) ≤ 1 := by
          cases s.top k with
          | none => exact Nat.zero_le 1
          | some g => exact outdated_le m.pTop g
        omega
    · rw [kept]
      simp only [Calls.note, Function.update_of_ne other]
      exact steps

theorem Progress.boot (iBlockNum threads t : Nat) :
    Progress (boot iBlockNum threads) .nothing t := by
  cases top : (CLFFreeList.boot iBlockNum threads).top t with
  | none => constructor <;> rw [top] <;> exact Nat.le_refl 0
  | some f =>
      obtain rfl := top_boot top
      constructor <;> rw [top] <;> exact Nat.le_refl 0

/-- **The free list is lock-free**, with 64-bit tags taken not to wrap.  A thread's
swaps have failed at most as often as the swaps of the others have succeeded, and so
many failures apart it takes at most nine steps a call: it is held up only by calls
that get on. -/
theorem free_list_lock_free {iBlockNum threads : Nat} {s : Conf Frame FreeList} {h : Calls}
    (run : freeList.NotedSteps Calls.note (fun _ _ _ => True)
      (boot iBlockNum threads, .nothing) (s, h)) (t : Nat) :
    h.failed t ≤ h.overtakes t ∧ h.steps t ≤ 9 * h.calls t + 5 * h.failed t := by
  have all : Exclusive s ∧ Linear iBlockNum s h ∧ Progress s h t := by
    refine run.invariant (I := fun s h => Exclusive s ∧ Linear iBlockNum s h ∧ Progress s h t)
      ⟨.boot iBlockNum threads, .boot iBlockNum threads, .boot iBlockNum threads t⟩ ?_
    intro p t' c q inv _ noted
    obtain ⟨excl, linear, progress⟩ := inv
    obtain ⟨f, rest, r, m, here, done, rfl⟩ := Machine.noted_cases noted
    have current := excl.current _ (List.mem_of_getElem? here) f List.mem_cons_self
    have turns := linear.turns t'
    rw [Conf.top_of_here here] at turns
    obtain ⟨g, next, -⟩ := turns_next f r turns
    exact ⟨excl.next here done, linear.next excl here done,
      progress.next current here done ⟨g, next⟩⟩
  obtain ⟨-, -, failed, steps⟩ := all
  exact ⟨(Nat.le_add_right _ _).trans failed, (Nat.le_add_right _ _).trans steps⟩

/-- A thread is overtaken between its clone and its swap: it fails once, and takes five
steps more than the one that overtook it. -/
theorem free_list_lock_free_two :
    ∃ s h, freeList.NotedSteps Calls.note (fun _ _ _ => True) (boot 2 2, .nothing) (s, h) ∧
      (h.failed 0, h.overtakes 0, h.steps 0, h.calls 0) = (1, 1, 14, 1) ∧
      h.failed 0 ≤ h.overtakes 0 ∧ h.steps 0 ≤ 9 * h.calls 0 + 5 * h.failed 0 := by
  have reached : (freeList.runNoted Calls.note (fun _ _ _ => True) overtake
      (boot 2 2, .nothing)).map
        (fun p => (p.2.failed 0, p.2.overtakes 0, p.2.steps 0, p.2.calls 0)) =
          some (1, 1, 14, 1) := by
    decide +kernel
  obtain ⟨⟨s, h⟩, taken, counts⟩ := Option.map_eq_some_iff.mp reached
  have run := Machine.NotedSteps.of_run taken
  exact ⟨s, h, run, counts, free_list_lock_free run 0⟩

end CLFFreeList

end ChattingServer
