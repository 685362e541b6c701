import ChattingServer.FreeListReservation

/-!
# What the destructor frees

`~CLFFreeList` takes `m_lMaxCount` blocks off the list.  The list never has more
(`Reserved.length_le`), so whatever the threads have done before, it frees all of
it and nothing else, each block once.
-/

namespace ChattingServer

namespace CLFFreeList

/-- With an empty list a round does nothing. -/
theorem Teardown.rounds_nil (m : FreeList) (count : Nat) (freed : List Block) :
    rounds m count ⟨none, freed⟩ = some ⟨none, freed⟩ := by
  induction count with
  | zero => rfl
  | succ count ih => exact ih

/-- With enough rounds the list is freed from its top on.  No block is read after
it is freed, since a linked list does not come back to a block. -/
theorem Teardown.rounds_linked {m : FreeList} {top : Option Block} {l freed : List Block}
    {count : Nat} (linked : Linked m.stpNextBlock top l) (nodup : l.Nodup)
    (apart : l.Disjoint freed) (enough : l.length ≤ count) :
    rounds m count ⟨top, freed⟩ = some ⟨none, l.reverse ++ freed⟩ := by
  induction l generalizing top freed count with
  | nil =>
      cases linked
      exact rounds_nil m count freed
  | cons temp l ih =>
      obtain ⟨rfl, below⟩ := linked
      obtain ⟨fresh, nodup'⟩ := List.nodup_cons.mp nodup
      obtain ⟨unfreed, apart'⟩ := List.disjoint_cons_left.mp apart
      cases count with
      | zero => cases enough
      | succ count =>
          have first : round m ⟨some temp, freed⟩ = some ⟨m.stpNextBlock temp, temp :: freed⟩ :=
            if_neg unfreed
          have apart'' : l.Disjoint (temp :: freed) :=
            List.disjoint_cons_right.mpr ⟨fresh, apart'⟩
          rw [rounds, first, Option.bind_some,
            ih below nodup' apart'' (Nat.le_of_succ_le_succ enough), List.reverse_cons,
            List.append_assoc, List.singleton_append]

section Reached

variable {s : Conf Frame FreeList}

/-- The list is no longer than `m_lMaxCount`, also while an `Alloc` has made a
block that it has not counted. -/
theorem Reserved.length_le {l : List Block} (inv : Reserved s)
    (linked : Linked s.mem.stpNextBlock s.mem.pTop.pTopNode l) :
    l.length ≤ s.mem.m_lMaxCount := by
  obtain ⟨l', linked', length⟩ := inv.length
  obtain rfl := linked.unique linked'
  have uncounted : s.tally Frame.uncounted ≤ s.tally (fun f => f.blocks.length) := by
    apply Conf.tally_le
    intro f
    rw [f.length_blocks]
    omega
  have max := inv.max
  omega

/-- The blocks of a thread are those it holds and those in the hands of its
call. -/
theorem tally_has (s : Conf Frame FreeList) (b : Block) :
    s.tally (Frame.has b) =
      s.tally (fun f => f.held.count b) + s.tally (fun f => f.inHand.count b) := by
  rw [← Conf.tally_add]
  congr 1
  funext f
  exact List.count_append

end Reached

/-- **The destructor frees what nobody has.**  After any run, provided there are
fewer than 2^31 blocks and the 64-bit tags have not wrapped, it frees each block of
the list once, reads none after that, and leaves none in the list; what it does not
free is exactly what callers hold or operations have in hand. -/
theorem free_list_destroyed (iBlockNum threads : Nat) {s : Conf Frame FreeList}
    (run : freeList.Steps (fun _ _ _ => True) (boot iBlockNum threads) s)
    (small : s.mem.m_lMaxCount ≤ 2147483647) :
    ∃ freed, s.mem.destroy = some ⟨none, freed⟩ ∧
      ∀ b : Nat, freed.count b + holders s b + s.tally (fun f => f.inHand.count b) =
        if b < s.mem.blocks then 1 else 0 := by
  obtain ⟨excl, inv⟩ := Reserved.of_run run
  obtain ⟨l, linked, whole⟩ := excl.list
  have length := inv.length_le linked
  have nodup : l.Nodup := by
    apply List.nodup_iff_count_le_one.mpr
    intro b
    have once := whole b
    split_ifs at once <;> omega
  have enough : l.length ≤ s.mem.m_lMaxCount.toNat := by omega
  refine ⟨l.reverse, ?_, ?_⟩
  · have freed := Teardown.rounds_linked linked nodup (List.disjoint_nil_right l) enough
    rw [FreeList.destroy, if_pos small, freed, List.append_nil]
  · intro b
    have once := whole b
    rw [tally_has] at once
    rw [List.count_reverse]
    unfold holders
    omega

/-- Two threads have taken a block each and one has brought it back.  The other
block is not freed. -/
theorem free_list_destroyed_two :
    ∃ s freed, freeList.Steps (fun _ _ _ => True) (boot 1 2) s ∧
      s.mem.destroy = some ⟨none, freed⟩ ∧ holders s 1 = 1 ∧ freed.count 1 = 0 := by
  have reached : (freeList.run allocAndFree (boot 1 2)).map (fun s =>
      (s.mem.blocks, s.mem.m_lMaxCount, holders s 1)) = some (2, 2, 1) := by
    decide +kernel
  obtain ⟨s, taken, found⟩ := Option.map_eq_some_iff.mp reached
  have blocks : s.mem.blocks = 2 := congrArg Prod.fst found
  have max : s.mem.m_lMaxCount = 2 := congrArg (·.2.1) found
  have held : holders s 1 = 1 := congrArg (·.2.2) found
  have run := Machine.Steps.of_run taken
  obtain ⟨freed, destroyed, once⟩ := free_list_destroyed 1 2 run (by rw [max]; decide)
  have one := once 1
  rw [held, blocks, if_pos Nat.one_lt_two] at one
  exact ⟨s, freed, run, destroyed, held, by omega⟩

end CLFFreeList

end ChattingServer
