import ChattingServer.CLFFreeList
import Mathlib.Data.List.Perm.Basic

/-!
# Who has a block of the free list

Every block `malloc` has returned is in one place: in the list, with a caller,
or in the hands of one operation (`Exclusive.list`).

The compare-and-swap sees whether `_pTop` still is the clone, and a tag is used
for one swap only.  So a swap that succeeds finds the list as it was when its
clone was read, and what was read after the clone is still true
(`Frame.Current`).
-/

namespace ChattingServer

namespace CLFFreeList

/-! ## Blocks of a frame -/

/-- The blocks a thread holds as a caller. -/
@[simp] def Frame.held : Frame → List Block
  | .caller held => held
  | .alloc _ held => held
  | .free _ _ held => held
  | .give b held => b :: held
  | .take _ held => held
  | .undefined held => held

/-- The block an operation in progress has in hand. -/
@[simp] def Frame.inHand : Frame → List Block
  | .alloc (.incMaxCount newNode) _ => [newNode]
  | .free .useCount _ _ => []
  | .free _ returnedBlock _ => [returnedBlock]
  | _ => []

def Frame.blocks (f : Frame) : List Block := f.held ++ f.inHand

/-- The blocks a step gets from the memory. -/
@[simp] def Frame.gained : (f : Frame) → f.act.α → List Block
  | .alloc .malloc _, newNode => [newNode]
  | .alloc (.cas _ cloneTop _) _, true => cloneTop.pTopNode.toList
  | .take _ _, taken => taken.toList
  | _, _ => []

/-- The blocks a step puts into the memory. -/
@[simp] def Frame.given : (f : Frame) → f.act.α → List Block
  | .free (.cas _ _) returnedBlock _, true => [returnedBlock]
  | .give b _, _ => [b]
  | _, _ => []

/-- The block a step makes. -/
@[simp] def Frame.made : (f : Frame) → f.act.α → List Block
  | .alloc .malloc _, newNode => [newNode]
  | _, _ => []

theorem Call.blocks_frame (held : List Block) (c : Call) :
    (c.frame held).blocks.Perm held := by
  cases c with
  | alloc => simp [Frame.blocks]
  | free k =>
      cases found : held[k]? with
      | none => simp [frame, found, Frame.blocks]
      | some b =>
          obtain ⟨bound, rfl⟩ := List.getElem?_eq_some_iff.mp found
          simp only [frame, found, Option.elim_some, Frame.blocks, Frame.held, Frame.inHand]
          exact List.perm_append_comm.trans (List.getElem_cons_eraseIdx_perm bound)
  | give k =>
      cases found : held[k]? with
      | none => simp [frame, found, Frame.blocks]
      | some b =>
          obtain ⟨bound, rfl⟩ := List.getElem?_eq_some_iff.mp found
          simp only [frame, found, Option.elim_some, Frame.blocks, Frame.held, Frame.inHand,
            List.append_nil]
          exact List.getElem_cons_eraseIdx_perm bound
  | take k => simp [Frame.blocks]

/-- Threads pass on the blocks they have. -/
theorem blocks_next (f : Frame) (r : f.act.α) :
    ((f.act.next r).flatMap Frame.blocks ++ f.given r).Perm (f.blocks ++ f.gained r) := by
  cases f with
  | caller held =>
      simp only [Frame.act, List.flatMap_singleton, Frame.given, Frame.gained, List.append_nil,
        Frame.blocks, Frame.held, Frame.inHand]
      exact Call.blocks_frame held r
  | alloc pc held =>
      cases pc with
      | useCount maxCount =>
          simp only [Frame.act, Alloc.act]
          split <;> simp [Frame.blocks]
      | liveTop uniqueNum cloneTop => cases r <;> simp [Frame.blocks]
      | cas uniqueNum cloneTop newTop =>
          obtain ⟨node, count⟩ := cloneTop
          cases r with
          | true =>
              cases node with
              | none => simp [Frame.blocks]
              | some b =>
                  simp only [Frame.act, Alloc.act, Option.elim_some, List.flatMap_singleton,
                    Frame.blocks, Frame.held, Frame.inHand, Frame.given, Frame.gained,
                    List.append_nil, Option.toList_some]
                  exact (List.perm_append_singleton b held).symm
          | false => simp [Frame.blocks]
      | incMaxCount newNode =>
          simp only [Frame.act, Alloc.act, List.flatMap_singleton, Frame.blocks, Frame.held,
            Frame.inHand, Frame.given, Frame.gained, List.append_nil]
          exact (List.perm_append_singleton newNode held).symm
      | _ => simp [Frame.blocks]
  | free pc b held =>
      cases pc <;> cases r <;> simp [Frame.blocks]
  | give b held =>
      simp only [Frame.act, List.flatMap_singleton, Frame.blocks, Frame.held, Frame.inHand,
        Frame.given, Frame.gained, List.append_nil]
      exact List.perm_append_singleton b held
  | take k held =>
      cases r with
      | none => simp [Frame.blocks]
      | some b =>
          simp only [Frame.act, List.flatMap_singleton, Option.elim_some, Frame.blocks, Frame.held,
            Frame.inHand, Frame.given, Frame.gained, List.append_nil, Option.toList_some]
          exact (List.perm_append_singleton b held).symm
  | undefined held => simp [Frame.blocks]

/-! ## Tags -/

/-- The tag an operation in progress has drawn and not yet used. -/
@[simp] def Frame.tag : Frame → Option Nat
  | .alloc (.cloneNode uniqueNum) _ => some uniqueNum
  | .alloc (.cloneCount uniqueNum _) _ => some uniqueNum
  | .alloc (.liveTop uniqueNum _) _ => some uniqueNum
  | .alloc (.next uniqueNum _ _) _ => some uniqueNum
  | .alloc (.cas uniqueNum _ _) _ => some uniqueNum
  | .free (.cloneNode newCount) _ _ => some newCount
  | .free (.cloneCount newCount _) _ _ => some newCount
  | .free (.liveTop newCount _) _ _ => some newCount
  | .free (.storeNext newCount _ _) _ _ => some newCount
  | .free (.cas newCount _) _ _ => some newCount
  | _ => none

/-- The clone an operation has read in full. -/
@[simp] def Frame.clone : Frame → Option TopNode
  | .alloc (.liveTop _ cloneTop) _ => some cloneTop
  | .alloc (.next _ cloneTop _) _ => some cloneTop
  | .alloc (.cas _ cloneTop _) _ => some cloneTop
  | .free (.liveTop _ cloneTop) _ _ => some cloneTop
  | .free (.storeNext _ cloneTop _) _ _ => some cloneTop
  | .free (.cas _ cloneTop) _ _ => some cloneTop
  | _ => none

@[simp] def Frame.owns (x : Nat) (f : Frame) : Nat := f.tag.elim 0 (share · x)

/-- The tag a step draws. -/
@[simp] def Frame.drawn : (f : Frame) → f.act.α → Option Nat
  | .alloc .count _, uniqueNum => some uniqueNum
  | .free .count _ _, newCount => some newCount
  | _, _ => none

/-- The step swaps `_pTop`. -/
@[simp] def Frame.swaps : (f : Frame) → f.act.α → Bool
  | .alloc (.cas _ _ _) _, true => true
  | .free (.cas _ _) _ _, true => true
  | _, _ => false

/-- The block whose `stpNextBlock` the step writes. -/
@[simp] def Frame.links : Frame → Option Block
  | .free (.storeNext _ _ _) returnedBlock _ => some returnedBlock
  | _ => none

/-- A tag is passed on, or drawn. -/
theorem owns_next (x : Nat) (f : Frame) (r : f.act.α) :
    ((f.act.next r).map (Frame.owns x)).sum ≤ f.owns x + (f.drawn r).elim 0 (share · x) := by
  cases f with
  | caller held =>
      have idle : (r.frame held).owns x = 0 := by
        cases r with
        | free k => cases found : held[k]? <;> simp [found]
        | give k => cases found : held[k]? <;> simp [found]
        | _ => rfl
      show ([r.frame held].map (Frame.owns x)).sum ≤ _
      rw [List.map_singleton, List.sum_singleton, idle]
      exact Nat.zero_le _
  | alloc pc held =>
      cases pc with
      | useCount maxCount =>
          simp only [Frame.act, Alloc.act]
          split <;> simp
      | liveTop uniqueNum cloneTop => cases r <;> simp
      | cas uniqueNum cloneTop newTop =>
          obtain ⟨node, count⟩ := cloneTop
          cases r <;> cases node <;> simp
      | _ => simp
  | free pc b held => cases pc <;> cases r <;> simp
  | _ => simp

theorem owns_next_of_swaps (x : Nat) {f : Frame} {r : f.act.α} (swaps : f.swaps r = true) :
    ((f.act.next r).map (Frame.owns x)).sum = 0 := by
  cases f with
  | alloc pc held =>
      cases pc with
      | cas uniqueNum cloneTop newTop =>
          obtain ⟨node, count⟩ := cloneTop
          cases r with
          | true => cases node <;> rfl
          | false => cases swaps
      | _ => cases swaps
  | free pc b held =>
      cases pc with
      | cas newCount cloneTop =>
          cases r with
          | true => rfl
          | false => cases swaps
      | _ => cases swaps
  | _ => cases swaps

/-- A clone is passed on, or its tag has just been read. -/
theorem clone_next {f : Frame} {r : f.act.α} {c : Call} {m m' : FreeList}
    (done : exec f.act.op c m = some (r, m')) {g : Frame} (member : g ∈ f.act.next r)
    {cloneTop : TopNode} (clone : g.clone = some cloneTop) :
    f.clone = some cloneTop ∨ cloneTop.lCount = m.pTop.lCount := by
  cases f with
  | caller held =>
      have none : (r.frame held).clone = none := by
        cases r with
        | free k => cases found : held[k]? <;> simp [found]
        | give k => cases found : held[k]? <;> simp [found]
        | _ => rfl
      obtain rfl := List.mem_singleton.mp member
      rw [none] at clone
      cases clone
  | alloc pc held =>
      cases pc with
      | useCount maxCount =>
          simp only [Frame.act, Alloc.act] at member
          split at member <;> obtain rfl := List.mem_singleton.mp member <;> cases clone
      | cloneCount uniqueNum node =>
          cases done
          obtain rfl := List.mem_singleton.mp member
          cases clone
          exact Or.inr rfl
      | liveTop uniqueNum cloneTop' =>
          cases r with
          | none =>
              obtain rfl := List.mem_singleton.mp member
              cases clone
          | some top =>
              obtain rfl := List.mem_singleton.mp member
              exact Or.inl clone
      | next uniqueNum cloneTop' top =>
          obtain rfl := List.mem_singleton.mp member
          exact Or.inl clone
      | cas uniqueNum cloneTop' newTop =>
          obtain ⟨node, count⟩ := cloneTop'
          cases r <;> cases node <;> obtain rfl := List.mem_singleton.mp member <;> cases clone
      | _ =>
          obtain rfl := List.mem_singleton.mp member
          cases clone
  | free pc b held =>
      cases pc with
      | cloneCount newCount node =>
          cases done
          obtain rfl := List.mem_singleton.mp member
          cases clone
          exact Or.inr rfl
      | liveTop newCount cloneTop' =>
          obtain rfl := List.mem_singleton.mp member
          exact Or.inl clone
      | storeNext newCount cloneTop' top =>
          obtain rfl := List.mem_singleton.mp member
          exact Or.inl clone
      | cas newCount cloneTop' =>
          cases r <;> obtain rfl := List.mem_singleton.mp member <;> cases clone
      | _ =>
          obtain rfl := List.mem_singleton.mp member
          cases clone
  | _ =>
      obtain rfl := List.mem_singleton.mp member
      cases clone

/-! ## What a step does to the memory -/

section Exec

variable {f : Frame} {r : f.act.α} {c : Call} {m m' : FreeList}

theorem cas_cases {exchange cloneTop : TopNode} {r : Bool}
    (done : exec (.cas exchange cloneTop) c m = some (r, m')) :
    (r = true ∧ m.pTop = cloneTop ∧ m' = { m with pTop := exchange }) ∨ (r = false ∧ m' = m) := by
  unfold exec at done
  dsimp only at done
  split at done
  · rename_i same
    cases done
    exact Or.inl ⟨rfl, same, rfl⟩
  · cases done
    exact Or.inr ⟨rfl, rfl⟩

/-- The next tag is drawn, or none. -/
theorem exec_drawn (done : exec f.act.op c m = some (r, m')) :
    (f.drawn r = none ∧ m'.m_lCount = m.m_lCount) ∨
      (f.drawn r = some (m.m_lCount + 1) ∧ m'.m_lCount = m.m_lCount + 1) := by
  cases f with
  | alloc pc held =>
      cases pc with
      | count =>
          cases done
          exact Or.inr ⟨rfl, rfl⟩
      | cas uniqueNum cloneTop newTop =>
          rcases cas_cases done with ⟨rfl, -, rfl⟩ | ⟨rfl, rfl⟩ <;> exact Or.inl ⟨rfl, rfl⟩
      | _ =>
          cases done
          exact Or.inl ⟨rfl, rfl⟩
  | free pc b held =>
      cases pc with
      | count =>
          cases done
          exact Or.inr ⟨rfl, rfl⟩
      | cas newCount cloneTop =>
          rcases cas_cases done with ⟨rfl, -, rfl⟩ | ⟨rfl, rfl⟩ <;> exact Or.inl ⟨rfl, rfl⟩
      | _ =>
          cases done
          exact Or.inl ⟨rfl, rfl⟩
  | undefined held => cases done
  | _ =>
      cases done
      exact Or.inl ⟨rfl, rfl⟩

/-- `_pTop` changes only from a clone, to the tag of the operation. -/
theorem exec_swaps (done : exec f.act.op c m = some (r, m')) :
    (f.swaps r = false ∧ m'.pTop = m.pTop) ∨
      (f.swaps r = true ∧ f.clone = some m.pTop ∧ f.tag = some m'.pTop.lCount) := by
  cases f with
  | alloc pc held =>
      cases pc with
      | cas uniqueNum cloneTop newTop =>
          rcases cas_cases done with ⟨rfl, rfl, rfl⟩ | ⟨rfl, rfl⟩
          · exact Or.inr ⟨rfl, rfl, rfl⟩
          · exact Or.inl ⟨rfl, rfl⟩
      | _ =>
          cases done
          exact Or.inl ⟨rfl, rfl⟩
  | free pc b held =>
      cases pc with
      | cas newCount cloneTop =>
          rcases cas_cases done with ⟨rfl, rfl, rfl⟩ | ⟨rfl, rfl⟩
          · exact Or.inr ⟨rfl, rfl, rfl⟩
          · exact Or.inl ⟨rfl, rfl⟩
      | _ =>
          cases done
          exact Or.inl ⟨rfl, rfl⟩
  | undefined held => cases done
  | _ =>
      cases done
      exact Or.inl ⟨rfl, rfl⟩

/-- A link is written only in the block that `Free` has in hand. -/
theorem exec_links (done : exec f.act.op c m = some (r, m')) :
    m'.stpNextBlock = m.stpNextBlock ∨
      ∃ b target, f.links = some b ∧
        m'.stpNextBlock = Function.update m.stpNextBlock b target := by
  cases f with
  | alloc pc held =>
      cases pc with
      | cas uniqueNum cloneTop newTop =>
          rcases cas_cases done with ⟨rfl, rfl, rfl⟩ | ⟨rfl, rfl⟩ <;> exact Or.inl rfl
      | _ =>
          cases done
          exact Or.inl rfl
  | free pc b held =>
      cases pc with
      | storeNext newCount cloneTop top =>
          cases done
          exact Or.inr ⟨b, top, rfl, rfl⟩
      | cas newCount cloneTop =>
          rcases cas_cases done with ⟨rfl, rfl, rfl⟩ | ⟨rfl, rfl⟩ <;> exact Or.inl rfl
      | _ =>
          cases done
          exact Or.inl rfl
  | undefined held => cases done
  | _ =>
      cases done
      exact Or.inl rfl

end Exec

/-- What a frame has read of the live list after its clone, as long as the tag
of the clone is that of the list. -/
def Frame.Current (m : FreeList) : Frame → Prop
  | .alloc (.next _ cloneTop top) _ =>
      cloneTop.lCount = m.pTop.lCount → m.pTop.pTopNode = some top
  | .alloc (.cas _ cloneTop newTop) _ =>
      cloneTop.lCount = m.pTop.lCount →
        ∃ top, m.pTop.pTopNode = some top ∧ m.stpNextBlock top = newTop
  | .free (.storeNext _ cloneTop top) _ _ =>
      cloneTop.lCount = m.pTop.lCount → m.pTop.pTopNode = top
  | .free (.cas _ cloneTop) returnedBlock _ =>
      cloneTop.lCount = m.pTop.lCount → m.stpNextBlock returnedBlock = m.pTop.pTopNode
  | _ => True

theorem current_next {f : Frame} {r : f.act.α} {c : Call} {m m' : FreeList}
    (current : f.Current m) (done : exec f.act.op c m = some (r, m')) :
    ∀ g ∈ f.act.next r, g.Current m' := by
  intro g member
  cases f with
  | caller held =>
      obtain rfl := List.mem_singleton.mp member
      cases r with
      | free k => cases found : held[k]? <;> simp [found, Frame.Current]
      | give k => cases found : held[k]? <;> simp [found, Frame.Current]
      | _ => trivial
  | alloc pc held =>
      cases pc with
      | useCount maxCount =>
          simp only [Frame.act, Alloc.act] at member
          split at member <;> obtain rfl := List.mem_singleton.mp member <;> trivial
      | liveTop uniqueNum cloneTop =>
          cases r with
          | none =>
              obtain rfl := List.mem_singleton.mp member
              trivial
          | some top =>
              obtain rfl := List.mem_singleton.mp member
              obtain ⟨read, rfl⟩ := Prod.mk.inj (Option.some.inj done)
              exact fun _ => read
      | next uniqueNum cloneTop top =>
          obtain rfl := List.mem_singleton.mp member
          obtain ⟨read, rfl⟩ := Prod.mk.inj (Option.some.inj done)
          exact fun same => ⟨top, current same, read⟩
      | cas uniqueNum cloneTop newTop =>
          obtain ⟨node, count⟩ := cloneTop
          cases r <;> cases node <;> obtain rfl := List.mem_singleton.mp member <;> trivial
      | _ =>
          obtain rfl := List.mem_singleton.mp member
          trivial
  | free pc b held =>
      cases pc with
      | liveTop newCount cloneTop =>
          obtain rfl := List.mem_singleton.mp member
          obtain ⟨read, rfl⟩ := Prod.mk.inj (Option.some.inj done)
          exact fun _ => read
      | storeNext newCount cloneTop top =>
          obtain rfl := List.mem_singleton.mp member
          cases done
          exact fun same => (Function.update_self ..).trans (current same).symm
      | cas newCount cloneTop =>
          cases r <;> obtain rfl := List.mem_singleton.mp member <;> trivial
      | _ =>
          obtain rfl := List.mem_singleton.mp member
          trivial
  | _ =>
      obtain rfl := List.mem_singleton.mp member
      trivial

/-- Other frames lose nothing of what they have read, unless the link they have
read, or their own, is rewritten. -/
theorem Frame.Current.congr {g : Frame} {m m' : FreeList} (current : g.Current m)
    (top : m'.pTop = m.pTop)
    (links : ∀ b, (m.pTop.pTopNode = some b ∨ b ∈ g.inHand) →
      m'.stpNextBlock b = m.stpNextBlock b) : g.Current m' := by
  cases g with
  | alloc pc held =>
      cases pc with
      | next uniqueNum cloneTop node =>
          unfold Current at current ⊢
          rw [top]
          exact current
      | cas uniqueNum cloneTop newTop =>
          unfold Current at current ⊢
          rw [top]
          intro same
          obtain ⟨node, first, link⟩ := current same
          exact ⟨node, first, (links node (Or.inl first)).trans link⟩
      | _ => trivial
  | free pc b held =>
      cases pc with
      | storeNext newCount cloneTop node =>
          unfold Current at current ⊢
          rw [top]
          exact current
      | cas newCount cloneTop =>
          unfold Current at current ⊢
          rw [top]
          intro same
          exact (links b (Or.inr List.mem_cons_self)).trans (current same)
      | _ => trivial
  | _ => trivial

/-- With a new tag in the list nothing is claimed of an old clone. -/
theorem Frame.Current.of_clone {g : Frame} {m : FreeList}
    (old : ∀ cloneTop, g.clone = some cloneTop → cloneTop.lCount ≠ m.pTop.lCount) :
    g.Current m := by
  cases g with
  | alloc pc held =>
      cases pc with
      | next uniqueNum cloneTop node => exact fun same => absurd same (old _ rfl)
      | cas uniqueNum cloneTop newTop => exact fun same => absurd same (old _ rfl)
      | _ => trivial
  | free pc b held =>
      cases pc with
      | storeNext newCount cloneTop node => exact fun same => absurd same (old _ rfl)
      | cas newCount cloneTop => exact fun same => absurd same (old _ rfl)
      | _ => trivial
  | _ => trivial

/-- The tag is drawn, and no operation in progress has it any more. -/
def Stale (x : Nat) (s : Conf Frame FreeList) : Prop :=
  x ≤ s.mem.m_lCount ∧ s.tally (Frame.owns x) = 0

/-- The places of a block outside the list. -/
def Frame.has (b : Block) (f : Frame) : Nat := f.blocks.count b

/-- The list is linked, its blocks are those nobody has, and the tags tell its
states apart. -/
structure Exclusive (s : Conf Frame FreeList) : Prop where
  list : ∃ l, Linked s.mem.stpNextBlock s.mem.pTop.pTopNode l ∧
    ∀ b : Nat, l.count b + s.tally (Frame.has b) + s.mem.handed.count b =
      if b < s.mem.blocks then 1 else 0
  once : ∀ x, s.tally (Frame.owns x) ≤ 1
  drawn : ∀ x, s.mem.m_lCount < x → s.tally (Frame.owns x) = 0
  top : Stale s.mem.pTop.lCount s
  clones : ∀ stack ∈ s.threads, ∀ f ∈ stack, ∀ cloneTop, f.clone = some cloneTop →
    Stale cloneTop.lCount s
  current : ∀ stack ∈ s.threads, ∀ f ∈ stack, f.Current s.mem

section Step

variable {s : Conf Frame FreeList} {t : Nat} {c : Call} {f : Frame} {rest : List Frame}
  {r : f.act.α} {m : FreeList}

theorem Exclusive.owns_le (inv : Exclusive s) (here : s.threads[t]? = some (f :: rest))
    (done : exec f.act.op c s.mem = some (r, m)) (x : Nat) :
    (Conf.mk m (s.threads.set t (f.act.next r ++ rest))).tally (Frame.owns x) ≤
      if x ≤ s.mem.m_lCount then s.tally (Frame.owns x)
      else if x ≤ m.m_lCount then 1 else 0 := by
  have frames := owns_next x f r
  have tally := Machine.tally_step (Frame.owns x) here (f.act.next r) m
  have undrawn := inv.drawn x
  rcases exec_drawn done with ⟨none, same⟩ | ⟨some, next⟩
  · rw [none, Option.elim_none] at frames
    split_ifs <;> omega
  · rw [some, Option.elim_some, share] at frames
    split_ifs at frames ⊢ <;> omega

theorem Stale.next {x : Nat} (stale : Stale x s) (inv : Exclusive s)
    (here : s.threads[t]? = some (f :: rest)) (done : exec f.act.op c s.mem = some (r, m)) :
    Stale x ⟨m, s.threads.set t (f.act.next r ++ rest)⟩ := by
  have owns := inv.owns_le here done x
  rw [if_pos stale.1] at owns
  refine ⟨?_, Nat.le_zero.mp (stale.2 ▸ owns)⟩
  rcases exec_drawn done with ⟨-, same⟩ | ⟨-, next⟩
  · exact same ▸ stale.1
  · show x ≤ m.m_lCount
    have := stale.1
    omega

/-- A block in the hands of the thread that steps is in nobody else's, and not
in the list. -/
theorem Exclusive.apart {l : List Block} {b : Nat}
    (whole : l.count b + s.tally (Frame.has b) + s.mem.handed.count b =
      if b < s.mem.blocks then 1 else 0)
    (here : s.threads[t]? = some (f :: rest)) (inHand : b ∈ f.inHand) :
    b ∉ l ∧ ∀ stack ∈ s.threads.set t rest, ∀ g ∈ stack, b ∉ g.inHand := by
  have own : 0 < f.has b :=
    List.count_pos_iff.mpr (List.mem_append_right f.held inHand)
  have one : l.count b + s.tally (Frame.has b) ≤ 1 := by
    split_ifs at whole <;> omega
  have mine := Conf.le_tally (w := Frame.has b) (List.mem_of_getElem? here) List.mem_cons_self
  constructor
  · intro listed
    have := List.count_pos_iff.mpr listed
    omega
  · intro stack member g inside inHand'
    have other : 0 < g.has b :=
      List.count_pos_iff.mpr (List.mem_append_right g.held inHand')
    have both := Machine.add_le_tally (Frame.has b) here member inside
    omega

theorem inHand_of_links {b : Block} (links : f.links = some b) : b ∈ f.inHand := by
  cases f with
  | free pc b' held =>
      cases pc with
      | storeNext newCount cloneTop top =>
          cases links
          exact List.mem_cons_self
      | _ => cases links
  | _ => cases links

/-- What the other threads have read stays current. -/
theorem Exclusive.current_stayed (inv : Exclusive s) (here : s.threads[t]? = some (f :: rest))
    (done : exec f.act.op c s.mem = some (r, m)) :
    ∀ stack ∈ s.threads.set t rest, ∀ g ∈ stack, g.Current m := by
  intro stack member g inside
  obtain ⟨stack', member', inside'⟩ := Machine.exists_of_stayed here member inside
  rcases exec_swaps done with ⟨-, same⟩ | ⟨-, -, tag⟩
  · refine (inv.current stack' member' g inside').congr same ?_
    intro b reads
    rcases exec_links done with kept | ⟨b', target, links, written⟩
    · rw [kept]
    · obtain ⟨l, linked, whole⟩ := inv.list
      obtain ⟨unlisted, others⟩ := Exclusive.apart (whole b') here (inHand_of_links links)
      have other : b ≠ b' := by
        rintro rfl
        rcases reads with first | inHand
        · rw [first] at linked
          obtain ⟨below, rfl, -⟩ := linked.pop
          exact unlisted List.mem_cons_self
        · exact others stack member g inside inHand
      rw [written, Function.update_of_ne other]
  · -- the tag of this swap was owned until now, so no clone has it
    apply Frame.Current.of_clone
    intro cloneTop clone same
    have stale := (inv.clones stack' member' g inside' cloneTop clone).2
    have own := Conf.le_tally (w := Frame.owns m.pTop.lCount) (List.mem_of_getElem? here)
      List.mem_cons_self
    rw [same] at stale
    rw [stale, Frame.owns, tag, Option.elim_some, share_self] at own
    exact absurd own (by decide)

/-- A successful swap takes the first block off the list or puts one before it;
nothing else changes the list. -/
theorem list_next {l : List Block} (linked : Linked s.mem.stpNextBlock s.mem.pTop.pTopNode l)
    (current : f.Current s.mem) (unlisted : ∀ b, f.links = some b → b ∉ l)
    (done : exec f.act.op c s.mem = some (r, m)) :
    ∃ l', Linked m.stpNextBlock m.pTop.pTopNode l' ∧
      (l' ++ m.handed ++ f.gained r).Perm (l ++ s.mem.handed ++ f.given r ++ f.made r) := by
  cases f with
  | alloc pc held =>
      cases pc with
      | malloc =>
          cases done
          refine ⟨l, linked, ?_⟩
          simp only [Frame.gained, Frame.given, Frame.made, List.append_nil]
          exact .refl _
      | cas uniqueNum cloneTop newTop =>
          rcases cas_cases done with ⟨rfl, rfl, rfl⟩ | ⟨rfl, rfl⟩
          · obtain ⟨top, first, link⟩ := current rfl
            rw [first] at linked
            obtain ⟨below, rfl, linked'⟩ := linked.pop
            refine ⟨below, link ▸ linked', ?_⟩
            simp only [Frame.gained, Frame.given, Frame.made, first, Option.toList_some,
              List.append_nil]
            exact List.perm_append_singleton top (below ++ s.mem.handed)
          · refine ⟨l, linked, ?_⟩
            simp only [Frame.gained, Frame.given, Frame.made, List.append_nil]
            exact .refl _
      | _ =>
          cases done
          refine ⟨l, linked, ?_⟩
          simp only [Frame.gained, Frame.given, Frame.made, List.append_nil]
          exact .refl _
  | free pc b held =>
      cases pc with
      | storeNext newCount cloneTop top =>
          cases done
          refine ⟨l, linked.update (unlisted b rfl) top, ?_⟩
          simp only [Frame.gained, Frame.given, Frame.made, List.append_nil]
          exact .refl _
      | cas newCount cloneTop =>
          rcases cas_cases done with ⟨rfl, rfl, rfl⟩ | ⟨rfl, rfl⟩
          · refine ⟨b :: l, linked.push (current rfl), ?_⟩
            simp only [Frame.gained, Frame.given, Frame.made, List.append_nil]
            exact (List.perm_append_singleton b (l ++ s.mem.handed)).symm
          · refine ⟨l, linked, ?_⟩
            simp only [Frame.gained, Frame.given, Frame.made, List.append_nil]
            exact .refl _
      | _ =>
          cases done
          refine ⟨l, linked, ?_⟩
          simp only [Frame.gained, Frame.given, Frame.made, List.append_nil]
          exact .refl _
  | give b held =>
      cases done
      refine ⟨l, linked, ?_⟩
      simp only [Frame.gained, Frame.given, Frame.made, List.append_nil, List.append_assoc]
      exact (List.perm_append_singleton b s.mem.handed).symm.append_left l
  | take k held =>
      cases done
      refine ⟨l, linked, ?_⟩
      simp only [Frame.gained, Frame.given, Frame.made, List.append_nil, List.append_assoc]
      apply List.Perm.append_left
      cases found : s.mem.handed[k]? with
      | none =>
          rw [List.eraseIdx_of_length_le (List.getElem?_eq_none_iff.mp found), Option.toList_none,
            List.append_nil]
      | some b =>
          obtain ⟨bound, rfl⟩ := List.getElem?_eq_some_iff.mp found
          rw [Option.toList_some]
          exact (List.perm_append_singleton _ _).trans (List.getElem_cons_eraseIdx_perm bound)
  | caller held =>
      cases done
      refine ⟨l, linked, ?_⟩
      simp only [Frame.gained, Frame.given, Frame.made, List.append_nil]
      exact .refl _
  | undefined held => cases done

theorem exec_made (done : exec f.act.op c s.mem = some (r, m)) :
    (f.made r = [] ∧ m.blocks = s.mem.blocks) ∨
      (f.made r = [s.mem.blocks] ∧ m.blocks = s.mem.blocks + 1) := by
  cases f with
  | alloc pc held =>
      cases pc with
      | malloc =>
          cases done
          exact Or.inr ⟨rfl, rfl⟩
      | cas uniqueNum cloneTop newTop =>
          rcases cas_cases done with ⟨rfl, -, rfl⟩ | ⟨rfl, rfl⟩ <;> exact Or.inl ⟨rfl, rfl⟩
      | _ =>
          cases done
          exact Or.inl ⟨rfl, rfl⟩
  | free pc b held =>
      cases pc with
      | cas newCount cloneTop =>
          rcases cas_cases done with ⟨rfl, -, rfl⟩ | ⟨rfl, rfl⟩ <;> exact Or.inl ⟨rfl, rfl⟩
      | _ =>
          cases done
          exact Or.inl ⟨rfl, rfl⟩
  | undefined held => cases done
  | _ =>
      cases done
      exact Or.inl ⟨rfl, rfl⟩

theorem has_next (b : Block) (f : Frame) (r : f.act.α) :
    ((f.act.next r).map (Frame.has b)).sum + (f.given r).count b =
      f.has b + (f.gained r).count b := by
  have same := (blocks_next f r).count_eq b
  rw [List.count_append, List.count_append, List.count_flatMap] at same
  exact same

/-- Every block stays in one place. -/
theorem whole_next {l l' : List Block} {b : Nat}
    (whole : l.count b + s.tally (Frame.has b) + s.mem.handed.count b =
      if b < s.mem.blocks then 1 else 0)
    (moved : (l' ++ m.handed ++ f.gained r).Perm (l ++ s.mem.handed ++ f.given r ++ f.made r))
    (here : s.threads[t]? = some (f :: rest)) (done : exec f.act.op c s.mem = some (r, m)) :
    l'.count b + (Conf.mk m (s.threads.set t (f.act.next r ++ rest))).tally (Frame.has b) +
      m.handed.count b = if b < m.blocks then 1 else 0 := by
  have counts := moved.count_eq b
  simp only [List.count_append] at counts
  have frames := has_next b f r
  have tally := Machine.tally_step (Frame.has b) here (f.act.next r) m
  rcases exec_made done with ⟨none, same⟩ | ⟨new, same⟩
  · rw [none, List.count_nil] at counts
    rw [same]
    omega
  · have single : [s.mem.blocks].count b = if s.mem.blocks = b then 1 else 0 := by
      simp only [List.count_singleton, beq_iff_eq]
    rw [new, single] at counts
    rw [same]
    by_cases newest : s.mem.blocks = b
    · rw [if_pos newest] at counts
      rw [if_neg (by omega)] at whole
      rw [if_pos (by omega)]
      omega
    · have old : b < s.mem.blocks + 1 ↔ b < s.mem.blocks := by omega
      rw [if_neg newest] at counts
      simp only [old]
      omega

theorem Exclusive.next (inv : Exclusive s) (here : s.threads[t]? = some (f :: rest))
    (done : exec f.act.op c s.mem = some (r, m)) :
    Exclusive ⟨m, s.threads.set t (f.act.next r ++ rest)⟩ := by
  have current := inv.current _ (List.mem_of_getElem? here) f List.mem_cons_self
  refine ⟨?_, ?_, ?_, ?_, ?_, ?_⟩
  · obtain ⟨l, linked, whole⟩ := inv.list
    obtain ⟨l', linked', moved⟩ := list_next linked current
      (fun b links => (Exclusive.apart (whole b) here (inHand_of_links links)).1) done
    exact ⟨l', linked', fun b => whole_next (whole b) moved here done⟩
  · intro x
    have owns := inv.owns_le here done x
    have before := inv.once x
    split_ifs at owns <;> omega
  · intro x undrawn
    have owns := inv.owns_le here done x
    have mono : s.mem.m_lCount ≤ m.m_lCount := by
      rcases exec_drawn done with ⟨-, same⟩ | ⟨-, next⟩ <;> omega
    have before := inv.drawn x
    dsimp only at undrawn
    split_ifs at owns <;> omega
  · show Stale m.pTop.lCount _
    rcases exec_swaps done with ⟨-, same⟩ | ⟨swaps, -, tag⟩
    · exact same ▸ inv.top.next inv here done
    · -- the tag is used up: its only owner was this frame
      have owned := Conf.le_tally (w := Frame.owns m.pTop.lCount) (List.mem_of_getElem? here)
        List.mem_cons_self
      rw [Frame.owns, tag, Option.elim_some, share_self] at owned
      have one := inv.once m.pTop.lCount
      have drawn : m.pTop.lCount ≤ s.mem.m_lCount := by
        by_contra beyond
        have none := inv.drawn m.pTop.lCount (Nat.lt_of_not_le beyond)
        omega
      have tally := Machine.tally_step (Frame.owns m.pTop.lCount) here (f.act.next r) m
      have gone := owns_next_of_swaps m.pTop.lCount swaps
      have mine : f.owns m.pTop.lCount = 1 := by
        rw [Frame.owns, tag, Option.elim_some, share_self]
      refine ⟨?_, by omega⟩
      rcases exec_drawn done with ⟨-, same⟩ | ⟨-, next⟩
      · exact same ▸ drawn
      · show m.pTop.lCount ≤ m.m_lCount
        omega
  · refine Machine.forall_frames_step (P := fun g => ∀ cloneTop, g.clone = some cloneTop →
      Stale cloneTop.lCount ⟨m, s.threads.set t (f.act.next r ++ rest)⟩) here ?_ ?_
    · intro g member cloneTop clone
      rcases clone_next done member clone with kept | read
      · exact (inv.clones _ (List.mem_of_getElem? here) f List.mem_cons_self cloneTop kept).next inv
          here done
      · rw [read]
        exact inv.top.next inv here done
    · intro stack member g inside cloneTop clone
      refine Stale.next ?_ inv here done
      obtain ⟨stack', old, inside'⟩ := Machine.exists_of_stayed here member inside
      exact inv.clones stack' old g inside' cloneTop clone
  · exact Machine.forall_frames_step here (current_next current done)
      (inv.current_stayed here done)

end Step

/-! ## Runs -/

/-- A list with all blocks there are. -/
structure Filled (m : FreeList) (l : List Block) : Prop where
  linked : Linked m.stpNextBlock m.pTop.pTopNode l
  whole : ∀ b : Nat, l.count b = if b < m.blocks then 1 else 0
  length : l.length = m.blocks
  handed : m.handed = []
  top : m.pTop.lCount = 0
  count : m.m_lCount = 0
  useCount : m.m_lUseCount = 0

theorem Filled.fill {m : FreeList} {l : List Block} (filled : Filled m l) (count : Nat) :
    ∃ l', Filled (m.fill count) l' ∧ (m.fill count).blocks = m.blocks + count ∧
      (m.fill count).m_lMaxCount = m.m_lMaxCount := by
  induction count generalizing m l with
  | zero => exact ⟨l, filled, rfl, rfl⟩
  | succ count ih =>
      have unlisted : m.blocks ∉ l := by
        have none := filled.whole m.blocks
        rw [if_neg (Nat.lt_irrefl _)] at none
        exact List.count_eq_zero.mp none
      have next : Filled { m with
          stpNextBlock := Function.update m.stpNextBlock m.blocks m.pTop.pTopNode
          pTop := { m.pTop with pTopNode := some m.blocks }
          blocks := m.blocks + 1 } (m.blocks :: l) := by
        refine ⟨?_, ?_, ?_, filled.handed, filled.top, filled.count, filled.useCount⟩
        · exact (filled.linked.update unlisted m.pTop.pTopNode).push (Function.update_self ..)
        · intro b
          show (m.blocks :: l).count b = if b < m.blocks + 1 then 1 else 0
          rw [List.count_cons, filled.whole b]
          simp only [beq_iff_eq]
          split_ifs <;> omega
        · show (m.blocks :: l).length = m.blocks + 1
          rw [List.length_cons, filled.length]
      obtain ⟨l', filled', blocks, maxCount⟩ := ih next
      refine ⟨l', filled', blocks.trans ?_, maxCount⟩
      show m.blocks + 1 + count = m.blocks + (count + 1)
      omega

/-- The constructor links the blocks it makes. -/
theorem FreeList.new_filled (iBlockNum : Nat) :
    ∃ l, Filled (.new iBlockNum) l ∧ (FreeList.new iBlockNum).blocks = iBlockNum ∧
      (FreeList.new iBlockNum).m_lMaxCount = iBlockNum := by
  have empty : Filled
      { pTop := ⟨none, 0⟩
        stpNextBlock := fun _ => none
        m_lMaxCount := iBlockNum
        m_lUseCount := 0
        m_lCount := 0
        blocks := 0
        handed := [] } [] := ⟨rfl, fun b => rfl, rfl, rfl, rfl, rfl, rfl⟩
  obtain ⟨l, filled, blocks, maxCount⟩ := empty.fill iBlockNum
  exact ⟨l, filled, blocks.trans (Nat.zero_add _), maxCount⟩

theorem boot_tally_eq_zero {iBlockNum threads : Nat} {w : Frame → Nat}
    (light : w (.caller []) = 0) : (boot iBlockNum threads).tally w = 0 := by
  apply Conf.tally_eq_zero
  intro stack member f inside
  rw [List.eq_of_mem_replicate member] at inside
  rw [List.mem_singleton.mp inside]
  exact light

theorem Exclusive.boot (iBlockNum threads : Nat) : Exclusive (boot iBlockNum threads) := by
  obtain ⟨l, filled, -, -⟩ := FreeList.new_filled iBlockNum
  have untagged (x : Nat) : (CLFFreeList.boot iBlockNum threads).tally (Frame.owns x) = 0 :=
    boot_tally_eq_zero rfl
  have idle : ∀ stack ∈ (CLFFreeList.boot iBlockNum threads).threads, ∀ f ∈ stack,
      f = .caller [] := by
    intro stack member f inside
    rw [List.eq_of_mem_replicate member] at inside
    exact List.mem_singleton.mp inside
  refine ⟨⟨l, filled.linked, ?_⟩, ?_, fun x _ => untagged x, ?_, ?_, ?_⟩
  · intro b
    have none : (CLFFreeList.boot iBlockNum threads).tally (Frame.has b) = 0 :=
      boot_tally_eq_zero rfl
    have handed : (CLFFreeList.boot iBlockNum threads).mem.handed = [] := filled.handed
    rw [none, handed]
    exact filled.whole b
  · intro x
    rw [untagged x]
    exact Nat.zero_le 1
  · refine ⟨?_, untagged _⟩
    exact Nat.le_of_eq (filled.top.trans filled.count.symm)
  · intro stack member f inside cloneTop clone
    rw [idle stack member f inside] at clone
    cases clone
  · intro stack member f inside
    rw [idle stack member f inside]
    trivial

theorem Exclusive.of_run {iBlockNum threads : Nat} {s : Conf Frame FreeList}
    (run : freeList.Steps (fun _ _ _ => True) (CLFFreeList.boot iBlockNum threads) s) :
    Exclusive s := by
  refine run.invariant (Exclusive.boot iBlockNum threads) ?_
  intro s t c s' inv _ step
  obtain ⟨f, rest, r, m, here, done, rfl⟩ := freeList_step_cases step
  exact inv.next here done

/-- The compare-and-swap of a frame, should it succeed, takes the first block of
the list off or puts its own before it. -/
def Frame.SwapsRight (m : FreeList) : Frame → Prop
  | .alloc (.cas _ cloneTop newTop) _ =>
      cloneTop = m.pTop → ∃ top, m.pTop.pTopNode = some top ∧ newTop = m.stpNextBlock top
  | .free (.cas _ cloneTop) returnedBlock _ =>
      cloneTop = m.pTop → m.stpNextBlock returnedBlock = m.pTop.pTopNode
  | _ => True

theorem Frame.Current.swapsRight {f : Frame} {m : FreeList} (current : f.Current m) :
    f.SwapsRight m := by
  cases f with
  | alloc pc held =>
      cases pc with
      | cas uniqueNum cloneTop newTop =>
          intro same
          obtain ⟨top, first, link⟩ := current (congrArg TopNode.lCount same)
          exact ⟨top, first, link.symm⟩
      | _ => trivial
  | free pc b held =>
      cases pc with
      | cas newCount cloneTop => exact fun same => current (congrArg TopNode.lCount same)
      | _ => trivial
  | _ => trivial

/-- The places of a block with the callers that hold it. -/
def holders (s : Conf Frame FreeList) (b : Block) : Nat :=
  s.tally (fun f => f.held.count b) + s.mem.handed.count b

/-- **Every block is in one place**: in the list, which ends and meets it once,
with one caller, or in the hands of one operation in progress; and no swap that
succeeds is a mistake. -/
theorem free_list_exclusive (iBlockNum threads : Nat) {s : Conf Frame FreeList}
    (run : freeList.Steps (fun _ _ _ => True) (boot iBlockNum threads) s) :
    (∃ l, Linked s.mem.stpNextBlock s.mem.pTop.pTopNode l ∧ l.Nodup ∧
      ∀ b : Nat, l.count b + holders s b + s.tally (fun f => f.inHand.count b) =
        if b < s.mem.blocks then 1 else 0) ∧
      ∀ stack ∈ s.threads, ∀ f ∈ stack, f.SwapsRight s.mem := by
  have inv := Exclusive.of_run run
  obtain ⟨l, linked, whole⟩ := inv.list
  refine ⟨⟨l, linked, ?_, ?_⟩, fun stack member f inside =>
    (inv.current stack member f inside).swapsRight⟩
  · apply List.nodup_iff_count_le_one.mpr
    intro b
    have := whole b
    split_ifs at this <;> omega
  · intro b
    have parts : s.tally (Frame.has b) =
        s.tally (fun f => f.held.count b) + s.tally (fun f => f.inHand.count b) := by
      rw [← Conf.tally_add]
      congr 1
      funext f
      exact List.count_append
    have := whole b
    rw [parts] at this
    unfold holders
    omega

/-- Two threads take a block each, and the first brings its own back. -/
def allocAndFree : List (Nat × Call) :=
  List.replicate 9 (0, .alloc) ++ List.replicate 5 (1, .alloc) ++
    (0, .free 0) :: List.replicate 7 (0, .alloc)

theorem free_list_exclusive_two :
    ∃ s, freeList.Steps (fun _ _ _ => True) (boot 1 2) s ∧
      s.mem.blocks = 2 ∧ s.mem.pTop = ⟨some 0, 2⟩ ∧ holders s 1 = 1 ∧
      ∀ stack ∈ s.threads, ∀ f ∈ stack, f.SwapsRight s.mem := by
  have reached : (freeList.run allocAndFree (boot 1 2)).map (fun s =>
      (s.mem.blocks, s.mem.pTop, holders s 1)) = some (2, ⟨some 0, 2⟩, 1) := by decide +kernel
  obtain ⟨s, run, found⟩ := Option.map_eq_some_iff.mp reached
  simp only [Prod.mk.injEq] at found
  obtain ⟨blocks, top, held⟩ := found
  have steps := Machine.Steps.of_run run
  exact ⟨s, steps, blocks, top, held, (free_list_exclusive 1 2 steps).2⟩

end CLFFreeList

end ChattingServer
