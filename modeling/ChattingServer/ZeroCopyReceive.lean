import ChattingServer.RingRefinement

/-!
# Receiving without a copy

`PostRecv` lets the kernel write behind the rear of the ring, in the segments of
`wsaBufs`, and `RecvComplete` claims the bytes with `MoveRear`.  That leaves the
ring `Enqueue` would have left (`zero_copy_receive`), and the segments offered
are all of the free space and nothing else.
-/

namespace ChattingServer

/-- The cells of a segment, an offset with a length. -/
def Covers (segment : Nat × Nat) (k : Nat) : Prop :=
  segment.1 ≤ k ∧ k < segment.1 + segment.2

namespace CRingBuffer

variable (rb : CRingBuffer) {segment : Nat × Nat} {k : Nat}

/-- The cell holds a byte of the queue. -/
def Unread (k : Nat) : Prop :=
  ∃ j, j < rb.getUseSize ∧ k = (rb.iFrontPos + j) % rb.iBufSize

/-- The unread bytes lie between the positions, in one piece or around the end. -/
theorem unread_cases (unread : rb.Unread k) :
    rb.iFrontPos ≤ rb.iRearPos ∧ rb.iFrontPos ≤ k ∧ k < rb.iRearPos ∨
      rb.iRearPos < rb.iFrontPos ∧ (rb.iFrontPos ≤ k ∨ k < rb.iRearPos) := by
  obtain ⟨j, inUse, rfl⟩ := unread
  have front := rb.front_lt
  have rear := rb.rear_lt
  unfold getUseSize at inUse
  rcases Nat.lt_or_ge (rb.iFrontPos + j) rb.iBufSize with before | past
  · rw [Nat.mod_eq_of_lt before]
    split at inUse <;> omega
  · rw [Nat.mod_eq_sub_mod past, Nat.mod_eq_of_lt (by split at inUse <;> omega)]
    split at inUse <;> omega

/-- The segments are the cells from the rear up to the one before the front, in
one piece or around the end. -/
theorem mem_wsaBufs (member : segment ∈ rb.wsaBufs) :
    segment = (rb.iRearPos, rb.directEnqueueSize) ∨
      segment = (0, rb.iFrontPos - 1) ∧ rb.iFrontPos ≤ rb.iRearPos ∧
        rb.iRearPos + rb.directEnqueueSize = rb.iBufSize := by
  have front := rb.front_lt
  have rear := rb.rear_lt
  unfold wsaBufs at member
  split at member
  · rename_i two
    rcases List.mem_cons.mp member with first | second
    · exact Or.inl first
    · -- a second segment is offered only when the first ends the block
      rw [List.mem_singleton.mp second]
      unfold directEnqueueSize getFreeSize getUseSize at *
      refine Or.inr ⟨?_, ?_, ?_⟩
      · congr 1
        split_ifs at two ⊢ <;> omega
      · split_ifs at two <;> omega
      · split_ifs at two ⊢ <;> omega
  · exact Or.inl (List.mem_singleton.mp member)

theorem directEnqueueSize_le : rb.iRearPos + rb.directEnqueueSize ≤ rb.iBufSize ∧
    (rb.iRearPos < rb.iFrontPos → rb.iRearPos + rb.directEnqueueSize < rb.iFrontPos) := by
  have front := rb.front_lt
  have rear := rb.rear_lt
  unfold directEnqueueSize
  split_ifs <;> omega

theorem wsaBufs_inside (member : segment ∈ rb.wsaBufs) :
    segment.1 + segment.2 ≤ rb.iBufSize := by
  have front := rb.front_lt
  rcases rb.mem_wsaBufs member with rfl | ⟨rfl, -, -⟩
  · exact rb.directEnqueueSize_le.1
  · show 0 + (rb.iFrontPos - 1) ≤ rb.iBufSize
    omega

theorem wsaBufs_apart : rb.wsaBufs.Pairwise fun a b => ∀ k, Covers a k → ¬ Covers b k := by
  have second : ∀ segment ∈ rb.wsaBufs, segment ≠ (rb.iRearPos, rb.directEnqueueSize) →
      ∀ k, Covers (rb.iRearPos, rb.directEnqueueSize) k → ¬ Covers segment k := by
    intro segment member other k covers covers'
    rcases rb.mem_wsaBufs member with rfl | ⟨rfl, order, -⟩
    · exact other rfl
    · have before : rb.iRearPos ≤ k := covers.1
      have after : k < 0 + (rb.iFrontPos - 1) := covers'.2
      omega
  unfold wsaBufs at second ⊢
  split
  · rename_i two
    rw [if_pos two] at second
    refine List.pairwise_pair.mpr fun k covers covers' => ?_
    refine second _ (List.mem_cons_of_mem _ List.mem_cons_self) ?_ k covers covers'
    intro same
    obtain ⟨zero, -⟩ := Prod.mk.inj same
    unfold directEnqueueSize getFreeSize getUseSize at two
    split_ifs at two <;> omega
  · exact List.pairwise_singleton _ _

/-- No segment holds a byte that is still to be read. -/
theorem wsaBufs_free (member : segment ∈ rb.wsaBufs) (covers : Covers segment k) :
    ¬ rb.Unread k := by
  intro unread
  have between := rb.unread_cases unread
  have direct := rb.directEnqueueSize_le
  obtain ⟨first, last⟩ := covers
  rcases rb.mem_wsaBufs member with rfl | ⟨rfl, order, -⟩
  · dsimp only at first last
    omega
  · dsimp only at first last
    omega

/-- **Zero-copy receive equals `Enqueue`.** -/
theorem zero_copy_receive (rb : CRingBuffer) {bytes : List BYTE}
    (fits : bytes.length ≤ rb.getFreeSize) :
    (rb.fill bytes).moveRear bytes.length = (rb.enqueue bytes).2 ∧
      (rb.enqueue bytes).1 = bytes.length ∧
      (∀ segment ∈ rb.wsaBufs, segment.1 + segment.2 ≤ rb.iBufSize) ∧
      rb.wsaBufs.Pairwise (fun a b => ∀ k, Covers a k → ¬ Covers b k) ∧
      (∀ segment ∈ rb.wsaBufs, ∀ k, Covers segment k → ¬ rb.Unread k) ∧
      (rb.wsaBufs.map Prod.snd).sum = rb.getFreeSize := by
  refine ⟨?_, if_neg (Nat.not_lt.mpr fits), fun _ => rb.wsaBufs_inside, rb.wsaBufs_apart,
    fun _ member _ => rb.wsaBufs_free member, rb.sum_wsaBufs⟩
  have room : bytes.length ≤ (rb.fill bytes).getFreeSize := fits
  rw [moveRear_of_le _ room, rb.fill_eq fits, rb.enqueue_snd, List.take_of_length_le fits]

/-- In a ring of four cells whose free space goes around its end a receive fills both
parts. -/
theorem zero_copy_receive_around :
    let rb : CRingBuffer := ⟨2, 3, 4, fun _ => 0, by decide, by decide⟩
    rb.wsaBufs = [(3, 1), (0, 1)] ∧
      (rb.fill [7, 8]).moveRear 2 = (rb.enqueue [7, 8]).2 := by
  intro rb
  have fits : ([7, 8] : List BYTE).length ≤ rb.getFreeSize := by decide
  exact ⟨by decide, (zero_copy_receive rb fits).1⟩

end CRingBuffer

end ChattingServer
