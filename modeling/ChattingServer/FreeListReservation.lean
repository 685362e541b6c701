import ChattingServer.FreeListExclusive

/-!
# The blocks an `Alloc` counts on

An `Alloc` that found `m_lUseCount` within `m_lMaxCount` goes on to pop without
another test.  `Reserved` keeps the two counters in step with the operations in
progress, and with that the list as long as there are such `Alloc`s.
-/

namespace ChattingServer

namespace CLFFreeList

/-! ## What the counters count -/

/-- An `Alloc` that makes a block. -/
@[simp] def Frame.making : Frame → Nat
  | .alloc .malloc _ => 1
  | .alloc (.incMaxCount _) _ => 1
  | _ => 0

/-- A block made and not counted in `m_lMaxCount`. -/
@[simp] def Frame.uncounted : Frame → Nat
  | .alloc (.incMaxCount _) _ => 1
  | _ => 0

/-- An `Alloc` that has taken the other branch and has not popped. -/
@[simp] def Frame.reserves : Frame → Nat
  | .alloc .loadMax _ => 0
  | .alloc (.useCount _) _ => 0
  | .alloc .malloc _ => 0
  | .alloc (.incMaxCount _) _ => 0
  | .alloc _ _ => 1
  | _ => 0

/-- A `Free` that has not pushed. -/
@[simp] def Frame.returns : Frame → Nat
  | .free .useCount _ _ => 0
  | .free _ _ _ => 1
  | _ => 0

/-- A `Free`, pushed or not. -/
@[simp] def Frame.frees : Frame → Nat
  | .free _ _ _ => 1
  | _ => 0

/-- What `m_lUseCount` counts. -/
def Frame.uses (f : Frame) : Nat := f.held.length + f.making + f.reserves + f.frees

/-- The blocks that are, or are to be, taken from those of `m_lMaxCount`. -/
def Frame.taken (f : Frame) : Nat := f.held.length + f.returns + f.reserves

theorem Frame.length_blocks (f : Frame) :
    f.blocks.length = f.held.length + f.returns + f.uncounted := by
  cases f with
  | alloc pc held => cases pc <;> simp [blocks]
  | free pc b held => cases pc <;> simp [blocks]
  | _ => simp [blocks]

/-- The step did not do what the language leaves undefined. -/
def Defined (f : Frame) (r : f.act.α) : Prop := ∀ held, Frame.undefined held ∉ f.act.next r

section Exec

variable {f : Frame} {r : f.act.α} {c : Call} {m m' : FreeList}

theorem uses_frame (held : List Block) (c : Call) : (c.frame held).uses = held.length := by
  cases c with
  | free k =>
      cases found : held[k]? with
      | none => simp [found, Frame.uses]
      | some b =>
          have bound : k < held.length := (List.getElem?_eq_some_iff.mp found).1
          simp only [Call.frame, found, Option.elim_some, Frame.uses, Frame.held, Frame.making,
            Frame.reserves, Frame.frees, List.length_eraseIdx_of_lt bound]
          omega
  | give k =>
      cases found : held[k]? with
      | none => simp [found, Frame.uses]
      | some b =>
          have bound : k < held.length := (List.getElem?_eq_some_iff.mp found).1
          simp only [Call.frame, found, Option.elim_some, Frame.uses, Frame.held, Frame.making,
            Frame.reserves, Frame.frees, List.length_cons, List.length_eraseIdx_of_lt bound]
          omega
  | _ => simp [Frame.uses]

theorem use_next (done : exec f.act.op c m = some (r, m')) (defined : Defined f r) :
    m'.m_lUseCount + f.uses + m.handed.length =
      m.m_lUseCount + ((f.act.next r).map Frame.uses).sum + m'.handed.length := by
  cases f with
  | caller held =>
      cases done
      show _ = _ + (([c.frame held].map Frame.uses).sum : Int) + _
      rw [List.map_singleton, List.sum_singleton, uses_frame]
      simp [Frame.uses]
  | alloc pc held =>
      cases pc with
      | useCount maxCount =>
          cases done
          simp only [Frame.act, Alloc.act]
          split <;> simp [Frame.uses] <;> omega
      | liveTop uniqueNum cloneTop =>
          cases r with
          | none => exact absurd List.mem_cons_self (defined held)
          | some top =>
              obtain ⟨-, rfl⟩ := Prod.mk.inj (Option.some.inj done)
              simp [Frame.uses]
      | cas uniqueNum cloneTop newTop =>
          obtain ⟨node, count⟩ := cloneTop
          rcases cas_cases done with ⟨rfl, -, rfl⟩ | ⟨rfl, rfl⟩
          · cases node with
            | none => exact absurd List.mem_cons_self (defined held)
            | some b => simp [Frame.uses]
          · simp [Frame.uses]
      | _ =>
          cases done
          simp [Frame.uses]
  | free pc b held =>
      cases pc with
      | cas newCount cloneTop =>
          rcases cas_cases done with ⟨rfl, -, rfl⟩ | ⟨rfl, rfl⟩ <;> simp [Frame.uses]
      | _ =>
          cases done
          simp [Frame.uses]
  | give b held =>
      cases done
      simp [Frame.uses]
      omega
  | take k held =>
      cases done
      cases found : m.handed[k]? with
      | none =>
          rw [List.eraseIdx_of_length_le (List.getElem?_eq_none_iff.mp found)]
          simp [Frame.uses]
      | some b =>
          have bound : k < m.handed.length := (List.getElem?_eq_some_iff.mp found).1
          have length := List.length_eraseIdx_of_lt bound
          simp [Frame.uses]
          omega
  | undefined held => cases done

theorem max_next (done : exec f.act.op c m = some (r, m')) :
    m'.m_lMaxCount + ((f.act.next r).map Frame.uncounted).sum + m.blocks =
      m.m_lMaxCount + f.uncounted + m'.blocks := by
  cases f with
  | caller held =>
      cases done
      have none : (c.frame held).uncounted = 0 := by
        cases c with
        | free k => cases found : held[k]? <;> simp [found]
        | give k => cases found : held[k]? <;> simp [found]
        | _ => rfl
      show _ + (([c.frame held].map Frame.uncounted).sum : Int) + _ = _
      rw [List.map_singleton, List.sum_singleton, none]
      simp
  | alloc pc held =>
      cases pc with
      | useCount maxCount =>
          cases done
          simp only [Frame.act, Alloc.act]
          split <;> simp
      | liveTop uniqueNum cloneTop =>
          obtain ⟨-, rfl⟩ := Prod.mk.inj (Option.some.inj done)
          cases r <;> simp
      | cas uniqueNum cloneTop newTop =>
          obtain ⟨node, count⟩ := cloneTop
          rcases cas_cases done with ⟨rfl, -, rfl⟩ | ⟨rfl, rfl⟩
          · cases node <;> simp
          · simp
      | _ =>
          cases done
          simp <;> omega
  | free pc b held =>
      cases pc with
      | cas newCount cloneTop =>
          rcases cas_cases done with ⟨rfl, -, rfl⟩ | ⟨rfl, rfl⟩ <;> simp
      | _ =>
          cases done
          simp
  | undefined held => cases done
  | _ =>
      cases done
      simp

theorem taken_frame (held : List Block) (c : Call) : (c.frame held).taken = held.length := by
  cases c with
  | free k =>
      cases found : held[k]? with
      | none => simp [found, Frame.taken]
      | some b =>
          have bound : k < held.length := (List.getElem?_eq_some_iff.mp found).1
          simp only [Call.frame, found, Option.elim_some, Frame.taken, Frame.held, Frame.returns,
            Frame.reserves, List.length_eraseIdx_of_lt bound]
          omega
  | give k =>
      cases found : held[k]? with
      | none => simp [found, Frame.taken]
      | some b =>
          have bound : k < held.length := (List.getElem?_eq_some_iff.mp found).1
          simp only [Call.frame, found, Option.elim_some, Frame.taken, Frame.held, Frame.returns,
            Frame.reserves, List.length_cons, List.length_eraseIdx_of_lt bound]
          omega
  | _ => simp [Frame.taken]

/-- What an `Alloc` has read of `m_lMaxCount`. -/
@[simp] def Frame.readMax : Frame → Option Int
  | .alloc (.useCount maxCount) _ => some maxCount
  | _ => none

/-- Only the choice to pop takes a block that `m_lMaxCount` may not have, and it
is made when the new `m_lUseCount` is within what was read of `m_lMaxCount`. -/
theorem taken_next (done : exec f.act.op c m = some (r, m')) :
    ((f.act.next r).map Frame.taken).sum + m'.handed.length + m.m_lMaxCount ≤
        f.taken + m.handed.length + m'.m_lMaxCount ∨
      ∃ maxCount, f.readMax = some maxCount ∧ m.m_lUseCount + 1 ≤ maxCount ∧
        m'.m_lMaxCount = m.m_lMaxCount ∧ m'.handed = m.handed ∧
        ((f.act.next r).map Frame.taken).sum = f.taken + 1 := by
  cases f with
  | caller held =>
      cases done
      left
      show (([c.frame held].map Frame.taken).sum : Int) + _ + _ ≤ _
      rw [List.map_singleton, List.sum_singleton, taken_frame]
      simp [Frame.taken]
  | alloc pc held =>
      cases pc with
      | useCount maxCount =>
          cases done
          simp only [Frame.act, Alloc.act]
          split
          · left
            simp [Frame.taken]
          · right
            exact ⟨maxCount, rfl, by omega, trivial, trivial, by simp [Frame.taken]⟩
      | liveTop uniqueNum cloneTop =>
          obtain ⟨-, rfl⟩ := Prod.mk.inj (Option.some.inj done)
          left
          cases r <;> simp [Frame.taken]
      | cas uniqueNum cloneTop newTop =>
          obtain ⟨node, count⟩ := cloneTop
          left
          rcases cas_cases done with ⟨rfl, -, rfl⟩ | ⟨rfl, rfl⟩
          · cases node <;> simp [Frame.taken]
          · simp [Frame.taken]
      | _ =>
          cases done
          left
          simp [Frame.taken] <;> omega
  | free pc b held =>
      left
      cases pc with
      | cas newCount cloneTop =>
          rcases cas_cases done with ⟨rfl, -, rfl⟩ | ⟨rfl, rfl⟩ <;> simp [Frame.taken]
      | _ =>
          cases done
          simp [Frame.taken]
  | give b held =>
      cases done
      left
      simp [Frame.taken]
      omega
  | take k held =>
      cases done
      left
      cases found : m.handed[k]? with
      | none =>
          rw [List.eraseIdx_of_length_le (List.getElem?_eq_none_iff.mp found)]
          simp [Frame.taken]
      | some b =>
          have bound : k < m.handed.length := (List.getElem?_eq_some_iff.mp found).1
          have length := List.length_eraseIdx_of_lt bound
          simp [Frame.taken]
          omega
  | undefined held => cases done

theorem exec_maxCount_le (done : exec f.act.op c m = some (r, m')) :
    m.m_lMaxCount ≤ m'.m_lMaxCount := by
  cases f with
  | alloc pc held =>
      cases pc with
      | incMaxCount newNode =>
          cases done
          show m.m_lMaxCount ≤ m.m_lMaxCount + 1
          omega
      | cas uniqueNum cloneTop newTop =>
          rcases cas_cases done with ⟨rfl, -, rfl⟩ | ⟨rfl, rfl⟩ <;> exact Int.le_refl _
      | _ =>
          cases done
          exact Int.le_refl _
  | free pc b held =>
      cases pc with
      | cas newCount cloneTop =>
          rcases cas_cases done with ⟨rfl, -, rfl⟩ | ⟨rfl, rfl⟩ <;> exact Int.le_refl _
      | _ =>
          cases done
          exact Int.le_refl _
  | undefined held => cases done
  | _ =>
      cases done
      exact Int.le_refl _

theorem readMax_next (done : exec f.act.op c m = some (r, m')) {g : Frame}
    (member : g ∈ f.act.next r) {maxCount : Int} (read : g.readMax = some maxCount) :
    maxCount ≤ m'.m_lMaxCount := by
  cases f with
  | alloc pc held =>
      cases pc with
      | loadMax =>
          cases done
          obtain rfl := List.mem_singleton.mp member
          cases read
          exact Int.le_refl _
      | useCount known =>
          simp only [Frame.act, Alloc.act] at member
          split at member <;> obtain rfl := List.mem_singleton.mp member <;> cases read
      | liveTop uniqueNum cloneTop =>
          cases r <;> obtain rfl := List.mem_singleton.mp member <;> cases read
      | cas uniqueNum cloneTop newTop =>
          obtain ⟨node, count⟩ := cloneTop
          cases r <;> cases node <;> obtain rfl := List.mem_singleton.mp member <;> cases read
      | _ =>
          obtain rfl := List.mem_singleton.mp member
          cases read
  | free pc b held =>
      cases pc with
      | cas newCount cloneTop =>
          cases r <;> obtain rfl := List.mem_singleton.mp member <;> cases read
      | _ =>
          obtain rfl := List.mem_singleton.mp member
          cases read
  | caller held =>
      obtain rfl := List.mem_singleton.mp member
      cases r with
      | free k => cases found : held[k]? <;> simp [found] at read
      | give k => cases found : held[k]? <;> simp [found] at read
      | _ => cases read
  | _ =>
      obtain rfl := List.mem_singleton.mp member
      cases read

end Exec

/-! ## The reservation -/

/-- The counters agree with the operations in progress, and those that are to
pop find the blocks for it. -/
structure Reserved (s : Conf Frame FreeList) : Prop where
  use : s.mem.m_lUseCount = s.tally Frame.uses + s.mem.handed.length
  max : s.mem.m_lMaxCount + s.tally Frame.uncounted = s.mem.blocks
  length : ∃ l, Linked s.mem.stpNextBlock s.mem.pTop.pTopNode l ∧
    l.length + s.tally (fun f => f.blocks.length) + s.mem.handed.length = s.mem.blocks
  taken : s.tally Frame.taken + s.mem.handed.length ≤ s.mem.m_lMaxCount
  read : ∀ stack ∈ s.threads, ∀ f ∈ stack, ∀ maxCount, f.readMax = some maxCount →
    maxCount ≤ s.mem.m_lMaxCount
  defined : ∀ stack ∈ s.threads, ∀ f ∈ stack, ∀ held, f ≠ .undefined held

section Step

variable {s : Conf Frame FreeList} {t : Nat} {c : Call} {f : Frame} {rest : List Frame}
  {r : f.act.α} {m : FreeList}

/-- There are as many blocks in the list as there are pops to come. -/
theorem Reserved.reserves_le {l : List Block} (inv : Reserved s)
    (linked : Linked s.mem.stpNextBlock s.mem.pTop.pTopNode l) :
    s.tally Frame.reserves ≤ l.length := by
  obtain ⟨l', linked', length⟩ := inv.length
  obtain rfl := linked.unique linked'
  have max := inv.max
  have taken := inv.taken
  have blocks : s.tally (fun f => f.blocks.length) =
      s.tally (fun f => f.held.length + f.returns) + s.tally Frame.uncounted := by
    rw [← Conf.tally_add]
    congr 1
    funext f
    exact f.length_blocks
  have parts : s.tally Frame.taken =
      s.tally (fun f => f.held.length + f.returns) + s.tally Frame.reserves :=
    Conf.tally_add
  omega

/-- An `Alloc` that is to pop finds a block. -/
theorem Reserved.top_ne_none (inv : Reserved s) {stack : List Frame} (member : stack ∈ s.threads)
    {f : Frame} (inside : f ∈ stack) (reserves : f.reserves = 1) :
    s.mem.pTop.pTopNode ≠ none := by
  obtain ⟨l, linked, -⟩ := inv.length
  have le := inv.reserves_le linked
  have own := Conf.le_tally (w := Frame.reserves) member inside
  intro empty
  have top := linked.top_eq
  rw [empty] at top
  have none : l = [] := List.head?_eq_none_iff.mp top.symm
  rw [none, List.length_nil] at le
  omega

theorem Reserved.defined_next (inv : Reserved s) (excl : Exclusive s)
    (here : s.threads[t]? = some (f :: rest)) (done : exec f.act.op c s.mem = some (r, m)) :
    Defined f r := by
  have member := List.mem_of_getElem? here
  intro held undefined
  cases f with
  | caller held' =>
      obtain same := List.mem_singleton.mp undefined
      cases r with
      | free k => cases found : held'[k]? <;> simp [found] at same
      | give k => cases found : held'[k]? <;> simp [found] at same
      | _ => cases same
  | alloc pc held' =>
      cases pc with
      | useCount maxCount =>
          simp only [Frame.act, Alloc.act] at undefined
          split at undefined <;> cases List.mem_singleton.mp undefined
      | liveTop uniqueNum cloneTop =>
          cases r with
          | none =>
              have empty : s.mem.pTop.pTopNode = none := (Prod.mk.inj (Option.some.inj done)).1
              exact inv.top_ne_none member List.mem_cons_self rfl empty
          | some top => cases List.mem_singleton.mp undefined
      | cas uniqueNum cloneTop newTop =>
          rcases cas_cases done with ⟨rfl, rfl, rfl⟩ | ⟨rfl, rfl⟩
          · obtain ⟨top, first, -⟩ := excl.current _ member _ List.mem_cons_self rfl
            simp only [Frame.act, Alloc.act, first, Option.elim_some] at undefined
            cases List.mem_singleton.mp undefined
          · cases List.mem_singleton.mp undefined
      | _ => cases List.mem_singleton.mp undefined
  | free pc b held' =>
      cases pc with
      | cas newCount cloneTop => cases r <;> cases List.mem_singleton.mp undefined
      | _ => cases List.mem_singleton.mp undefined
  | undefined held' => cases done
  | _ => cases List.mem_singleton.mp undefined

theorem Reserved.next (inv : Reserved s) (excl : Exclusive s)
    (here : s.threads[t]? = some (f :: rest)) (done : exec f.act.op c s.mem = some (r, m)) :
    Reserved ⟨m, s.threads.set t (f.act.next r ++ rest)⟩ := by
  have defined := inv.defined_next excl here done
  refine ⟨?_, ?_, ?_, ?_, ?_, ?_⟩
  · have frames := use_next done defined
    have tally := Machine.tally_step Frame.uses here (f.act.next r) m
    have before := inv.use
    dsimp only
    omega
  · have frames := max_next done
    have tally := Machine.tally_step Frame.uncounted here (f.act.next r) m
    have before := inv.max
    dsimp only
    omega
  · obtain ⟨l, linked, length⟩ := inv.length
    obtain ⟨l₁, linked₁, whole⟩ := excl.list
    obtain rfl := linked.unique linked₁
    obtain ⟨l', linked', moved⟩ := list_next linked
      (excl.current _ (List.mem_of_getElem? here) f List.mem_cons_self)
      (fun b links => (Exclusive.apart (whole b) here (inHand_of_links links)).1) done
    refine ⟨l', linked', ?_⟩
    have lengths := moved.length_eq
    have frames := (blocks_next f r).length_eq
    have tally := Machine.tally_step (fun f => f.blocks.length) here (f.act.next r) m
    simp only [List.length_append, List.length_flatMap] at lengths frames
    dsimp only at tally ⊢
    rcases exec_made done with ⟨none, same⟩ | ⟨new, same⟩
    · rw [none, List.length_nil] at lengths
      omega
    · rw [new, List.length_singleton] at lengths
      omega
  · have tally := Machine.tally_step Frame.taken here (f.act.next r) m
    have before := inv.taken
    dsimp only
    rcases taken_next done with kept | ⟨maxCount, read, within, same, handed, more⟩
    · omega
    · have known := inv.read _ (List.mem_of_getElem? here) f List.mem_cons_self maxCount read
      have use := inv.use
      have le : s.tally Frame.taken ≤ s.tally Frame.uses := by
        apply Conf.tally_le
        intro f
        have : f.returns ≤ f.frees := by
          cases f with
          | free pc b held => cases pc <;> simp
          | _ => simp
        unfold Frame.taken Frame.uses
        omega
      rw [same, handed]
      omega
  · refine Machine.forall_frames_step (P := fun g => ∀ maxCount, g.readMax = some maxCount →
      maxCount ≤ m.m_lMaxCount) here ?_ ?_
    · intro g member maxCount read
      exact readMax_next done member read
    · intro stack member g inside maxCount read
      refine Int.le_trans ?_ (exec_maxCount_le done)
      obtain ⟨stack', old, inside'⟩ := Machine.exists_of_stayed here member inside
      exact inv.read stack' old g inside' maxCount read
  · refine Machine.forall_frames_step (P := fun g => ∀ held, g ≠ .undefined held) here ?_ ?_
    · rintro g member held rfl
      exact defined held member
    · intro stack member g inside
      obtain ⟨stack', old, inside'⟩ := Machine.exists_of_stayed here member inside
      exact inv.defined stack' old g inside'

end Step

theorem Reserved.boot (iBlockNum threads : Nat) : Reserved (boot iBlockNum threads) := by
  obtain ⟨l, filled, blocks, maxCount⟩ := FreeList.new_filled iBlockNum
  have handed : (CLFFreeList.boot iBlockNum threads).mem.handed = [] := filled.handed
  have none {w : Frame → Nat} (light : w (.caller []) = 0) :
      (CLFFreeList.boot iBlockNum threads).tally w = 0 := boot_tally_eq_zero light
  have idle : ∀ stack ∈ (CLFFreeList.boot iBlockNum threads).threads, ∀ f ∈ stack,
      f = .caller [] := by
    intro stack member f inside
    rw [List.eq_of_mem_replicate member] at inside
    exact List.mem_singleton.mp inside
  refine ⟨?_, ?_, ⟨l, filled.linked, ?_⟩, ?_, ?_, ?_⟩
  · rw [none rfl, handed]
    exact filled.useCount
  · rw [none rfl]
    show (FreeList.new iBlockNum).m_lMaxCount + 0 = ((FreeList.new iBlockNum).blocks : Int)
    rw [blocks, maxCount, Int.add_zero]
  · rw [none rfl, handed]
    exact filled.length
  · rw [none rfl, handed]
    show (0 : Int) ≤ (FreeList.new iBlockNum).m_lMaxCount
    rw [maxCount]
    exact Int.natCast_nonneg iBlockNum
  · intro stack member f inside maxCount read
    rw [idle stack member f inside] at read
    cases read
  · rintro stack member f inside held rfl
    cases idle stack member _ inside

theorem Reserved.of_run {iBlockNum threads : Nat} {s : Conf Frame FreeList}
    (run : freeList.Steps (fun _ _ _ => True) (CLFFreeList.boot iBlockNum threads) s) :
    Exclusive s ∧ Reserved s := by
  refine run.invariant (I := fun s => Exclusive s ∧ Reserved s)
    ⟨.boot iBlockNum threads, .boot iBlockNum threads⟩ ?_
  intro s t c s' inv _ step
  obtain ⟨f, rest, r, m, here, done, rfl⟩ := freeList_step_cases step
  exact ⟨inv.1.next here done, inv.2.next inv.1 here done⟩

/-- An `Alloc` or a `Free` is in progress. -/
@[simp] def Frame.busy : Frame → Bool
  | .alloc _ _ => true
  | .free _ _ _ => true
  | _ => false

/-- How many blocks callers hold. -/
def heldCount (s : Conf Frame FreeList) : Nat :=
  s.tally (fun f => f.held.length) + s.mem.handed.length

/-- **An `Alloc` that pops finds a block**: the top is never null where it is
dereferenced.  With no operation in progress the counters say how many blocks
are held and how many there are, and the list has the others.  The 64-bit tags
are taken not to wrap. -/
theorem free_list_reserved (iBlockNum threads : Nat) {s : Conf Frame FreeList}
    (run : freeList.Steps (fun _ _ _ => True) (boot iBlockNum threads) s) :
    (∀ stack ∈ s.threads, ∀ f ∈ stack, f.reserves = 1 → s.mem.pTop.pTopNode ≠ none) ∧
      (∀ stack ∈ s.threads, ∀ f ∈ stack, ∀ held, f ≠ .undefined held) ∧
      ((∀ stack ∈ s.threads, ∀ f ∈ stack, f.busy = false) →
        s.mem.m_lUseCount = heldCount s ∧ s.mem.m_lMaxCount = s.mem.blocks ∧
          ∃ l, Linked s.mem.stpNextBlock s.mem.pTop.pTopNode l ∧
            l.length + heldCount s = s.mem.blocks) := by
  obtain ⟨-, inv⟩ := Reserved.of_run run
  refine ⟨fun stack member f inside => inv.top_ne_none member inside, inv.defined, ?_⟩
  intro idle
  have quiet {w : Frame → Nat} (light : ∀ f, f.busy = false → w f = 0) : s.tally w = 0 :=
    Conf.tally_eq_zero fun stack member f inside => light f (idle stack member f inside)
  have others : s.tally (fun f => f.making + f.reserves + f.frees) = 0 := by
    apply quiet
    intro f calm
    cases f <;> first | rfl | cases calm
  have uncounted : s.tally Frame.uncounted = 0 := by
    apply quiet
    intro f calm
    cases f <;> first | rfl | cases calm
  have returns : s.tally (fun f => f.returns + f.uncounted) = 0 := by
    apply quiet
    intro f calm
    cases f <;> first | rfl | cases calm
  have uses : s.tally Frame.uses =
      s.tally (fun f => f.held.length) + s.tally (fun f => f.making + f.reserves + f.frees) := by
    rw [← Conf.tally_add]
    congr 1
    funext f
    unfold Frame.uses
    omega
  have blocks : s.tally (fun f => f.blocks.length) =
      s.tally (fun f => f.held.length) + s.tally (fun f => f.returns + f.uncounted) := by
    rw [← Conf.tally_add]
    congr 1
    funext f
    rw [f.length_blocks, Nat.add_assoc]
  have use := inv.use
  have max := inv.max
  obtain ⟨l, linked, length⟩ := inv.length
  unfold heldCount
  refine ⟨by omega, by omega, l, linked, by omega⟩

/-- Two threads have taken a block each and one has brought it back: one block is held,
the use count is 1 and two have been made. -/
theorem free_list_reserved_two :
    ∃ s, freeList.Steps (fun _ _ _ => True) (boot 1 2) s ∧ heldCount s = 1 ∧
      s.mem.m_lUseCount = 1 ∧ s.mem.m_lMaxCount = 2 ∧
      ∀ stack ∈ s.threads, ∀ f ∈ stack, f.reserves = 1 → s.mem.pTop.pTopNode ≠ none := by
  have reached : (freeList.run allocAndFree (boot 1 2)).map (fun s =>
      (heldCount s, s.mem.m_lUseCount, s.mem.m_lMaxCount)) = some (1, 1, 2) := by
    decide +kernel
  obtain ⟨s, run, found⟩ := Option.map_eq_some_iff.mp reached
  simp only [Prod.mk.injEq] at found
  obtain ⟨held, use, max⟩ := found
  have steps := Machine.Steps.of_run run
  exact ⟨s, steps, held, use, max, (free_list_reserved 1 2 steps).1⟩

end CLFFreeList

end ChattingServer
