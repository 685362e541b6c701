import ChattingServer.CPacket
import ChattingServer.CRingBuffer

/-!
# Another block for the ring

`ReSize` copies the queue to the front of a new block and never asks whether
it fits there.  `resize_keeps_iff` says when it does: a queue as long as the
block makes the rear position wrap to the front, which is an empty ring, and a
longer one is copied past its end.
-/

namespace ChattingServer

namespace CRingBuffer

/-- `memcpy` to offset `at` of a block of `size` bytes. -/
def memcpy (nd : Memory BYTE) (size offset : Nat) (bytes : List BYTE) :
    Except Fault (Memory BYTE) :=
  if offset + bytes.length ≤ size then .ok (nd.write offset bytes) else .error .overrun

variable (rb : CRingBuffer)

/-- The copies of `ReSize`, to the new block `nd`. -/
def copyOut (nd : Memory BYTE) (size : Nat) : Except Fault (Memory BYTE) :=
  if rb.iFrontPos ≤ rb.iRearPos then
    memcpy nd size 0 (rb.data.read rb.iFrontPos rb.getUseSize)
  else do
    let first := rb.iBufSize - rb.iFrontPos
    let nd ← memcpy nd size 0 (rb.data.read rb.iFrontPos first)
    memcpy nd size first (rb.data.read 0 rb.iRearPos)

/-- The ring over the new block, once the queue has been copied to it. -/
def onto (nd : Memory BYTE) (size : Nat) (positive : 0 < size) : CRingBuffer where
  iFrontPos := 0
  iRearPos := rb.getUseSize % size
  iBufSize := size
  data := nd
  front_lt := positive
  rear_lt := Nat.mod_lt _ positive

/-- `ReSize`; `nd` is what the new block holds before anything is copied. -/
def reSize (nd : Memory BYTE) (size : Nat) : Except Fault CRingBuffer :=
  if positive : 0 < size then do
    let nd ← rb.copyOut nd size
    return rb.onto nd size positive
  else
    .ok rb

section Copies

variable {rb} {nd : Memory BYTE} {size : Nat}

theorem memcpy_of_fits {offset : Nat} {bytes : List BYTE} (fits : offset + bytes.length ≤ size) :
    memcpy nd size offset bytes = .ok (nd.write offset bytes) :=
  if_pos fits

theorem memcpy_of_overrun {offset : Nat} {bytes : List BYTE}
    (past : size < offset + bytes.length) : memcpy nd size offset bytes = .error .overrun :=
  if_neg (Nat.not_le.mpr past)

/-- A queue that passes the end of the block is the bytes up to there and those
from the start. -/
theorem content_of_wrapped (wrapped : rb.iRearPos < rb.iFrontPos) :
    rb.content = rb.data.read rb.iFrontPos (rb.iBufSize - rb.iFrontPos) ++
      rb.data.read 0 rb.iRearPos ∧
      rb.getUseSize = rb.iBufSize - rb.iFrontPos + rb.iRearPos := by
  have front := rb.front_lt
  have use : rb.getUseSize = rb.iBufSize - rb.iFrontPos + rb.iRearPos :=
    if_neg (Nat.not_le.mpr wrapped)
  refine ⟨?_, use⟩
  rw [content, Circular.walk_eq_reads (Nat.le_of_lt front) (by omega)
    (Nat.le_of_lt rb.getUseSize_lt), use,
    Nat.add_sub_cancel_left]

theorem content_of_unwrapped (unwrapped : rb.iFrontPos ≤ rb.iRearPos) :
    rb.content = rb.data.read rb.iFrontPos rb.getUseSize := by
  have rear := rb.rear_lt
  have use : rb.getUseSize = rb.iRearPos - rb.iFrontPos := if_pos unwrapped
  exact Circular.walk_eq_read (by omega)

/-- A queue that fits in the block is copied to its front. -/
theorem copyOut_of_fits (nd : Memory BYTE) (fits : rb.getUseSize ≤ size) :
    ∃ nd', rb.copyOut nd size = .ok nd' ∧ nd'.read 0 rb.getUseSize = rb.content := by
  unfold copyOut
  rcases Nat.lt_or_ge rb.iRearPos rb.iFrontPos with wrapped | unwrapped
  · obtain ⟨content, use⟩ := content_of_wrapped wrapped
    have first : (rb.data.read rb.iFrontPos (rb.iBufSize - rb.iFrontPos)).length =
        rb.iBufSize - rb.iFrontPos := Memory.length_read
    have second : (rb.data.read 0 rb.iRearPos).length = rb.iRearPos := Memory.length_read
    rw [if_neg (Nat.not_le.mpr wrapped)]
    dsimp only [bind, Except.bind]
    rw [memcpy_of_fits (by omega)]
    dsimp only
    rw [memcpy_of_fits (by omega)]
    refine ⟨_, rfl, ?_⟩
    rw [content, use, Memory.read_add, Memory.read_write_disjoint (by omega),
      Memory.read_write_of_length first, Nat.zero_add, Memory.read_write_of_length second]
  · have content := content_of_unwrapped unwrapped
    have whole : (rb.data.read rb.iFrontPos rb.getUseSize).length = rb.getUseSize :=
      Memory.length_read
    rw [if_pos unwrapped, memcpy_of_fits (by omega)]
    exact ⟨_, rfl, by rw [content, Memory.read_write_of_length whole]⟩

/-- A longer one is copied past its end. -/
theorem copyOut_of_overrun (past : size < rb.getUseSize) :
    rb.copyOut nd size = .error .overrun := by
  unfold copyOut
  rcases Nat.lt_or_ge rb.iRearPos rb.iFrontPos with wrapped | unwrapped
  · obtain ⟨-, use⟩ := content_of_wrapped wrapped
    rw [if_neg (Nat.not_le.mpr wrapped)]
    dsimp only [bind, Except.bind]
    rcases Nat.lt_or_ge size (rb.iBufSize - rb.iFrontPos) with early | late
    · rw [memcpy_of_overrun (by rw [Memory.length_read]; omega)]
    · rw [memcpy_of_fits (by rw [Memory.length_read]; omega)]
      exact memcpy_of_overrun (by rw [Memory.length_read]; omega)
  · rw [if_pos unwrapped]
    exact memcpy_of_overrun (by rw [Memory.length_read]; omega)

end Copies

/-- A queue that leaves a byte of the new block free is kept. -/
theorem reSize_of_lt (nd : Memory BYTE) {size : Nat} (fits : rb.getUseSize < size) :
    ∃ rb', rb.reSize nd size = .ok rb' ∧ rb'.iBufSize = size ∧
      rb'.getUseSize = rb.getUseSize ∧ rb'.content = rb.content := by
  have positive : 0 < size := Nat.lt_of_le_of_lt (Nat.zero_le _) fits
  obtain ⟨nd', copied, content⟩ := rb.copyOut_of_fits nd (Nat.le_of_lt fits)
  have use : (rb.onto nd' size positive).getUseSize = rb.getUseSize :=
    getUseSize_of_rear _ (by rw [onto, Nat.zero_add]) fits
  refine ⟨rb.onto nd' size positive, ?_, rfl, use, ?_⟩
  · rw [reSize, dif_pos positive, copied]
    rfl
  · rw [CRingBuffer.content, use, ← content]
    exact Circular.walk_eq_read (by rw [onto, Nat.zero_add]; exact Nat.le_of_lt fits)

/-- A queue as long as the new block is lost, whatever was copied. -/
theorem reSize_of_eq (nd : Memory BYTE) {size : Nat} (positive : 0 < size)
    (full : rb.getUseSize = size) :
    ∃ rb', rb.reSize nd size = .ok rb' ∧ rb'.getUseSize = 0 := by
  obtain ⟨nd', copied, -⟩ := rb.copyOut_of_fits nd (Nat.le_of_eq full)
  refine ⟨rb.onto nd' size positive, ?_, getUseSize_of_rear _ ?_ positive⟩
  · rw [reSize, dif_pos positive, copied]
    rfl
  · show rb.getUseSize % size = (0 + 0) % size
    rw [full, Nat.mod_self, Nat.add_zero, Nat.zero_mod]

/-- `ReSize` writes inside the new block, and the ring it leaves is of the new
size and holds the same bytes; or it leaves the ring as it is, for a queue that
does not fit. -/
def Resizes (nd : Memory BYTE) (size : Nat) : Prop :=
  ∃ rb', rb.reSize nd size = .ok rb' ∧
    ((rb'.iBufSize = size ∧ rb'.iFrontPos < size ∧ rb'.iRearPos < size ∧
        rb'.getUseSize = rb.getUseSize ∧
        (rb'.dequeue rb.getUseSize).1 = (rb.dequeue rb.getUseSize).1) ∨
      (size - 1 < rb.getUseSize ∧ rb' = rb))

/-- **Resizing.**  `ReSize` keeps the queue exactly when one byte of the new block stays
free. -/
theorem resize_keeps_iff (nd : Memory BYTE) (size : Nat) (positive : 0 < size) :
    rb.Resizes nd size ↔ rb.getUseSize < size := by
  constructor
  · intro resizes
    by_contra full
    obtain ⟨rb', returned, outcome⟩ := resizes
    rcases Nat.lt_or_eq_of_le (Nat.le_of_not_lt full) with past | equal
    · rw [reSize, dif_pos positive, copyOut_of_overrun past] at returned
      cases returned
    · obtain ⟨rb'', made, empty⟩ := rb.reSize_of_eq nd positive equal.symm
      cases returned.symm.trans made
      rcases outcome with ⟨-, -, -, use, -⟩ | ⟨-, same⟩
      · omega
      · rw [same] at empty
        omega
  · intro fits
    obtain ⟨rb', returned, block, use, content⟩ := rb.reSize_of_lt nd fits
    have front := rb'.front_lt
    have rear := rb'.rear_lt
    rw [block] at front rear
    refine ⟨rb', returned, Or.inl ⟨block, front, rear, use, ?_⟩⟩
    rw [dequeue_fst, dequeue_fst, content]

/-- Three bytes in a ring of eight, moved to a block of four. -/
theorem resize_keeps_three :
    ((ofSize 8 (by decide)).enqueue [1, 2, 3]).2.Resizes (fun _ => 0) 4 :=
  (resize_keeps_iff _ _ 4 (by decide)).mpr (by decide)

/-- Four bytes in a block of four are lost, and in a block of three they are
copied past its end. -/
theorem resize_loses_four :
    (((ofSize 8 (by decide)).enqueue [1, 2, 3, 4]).2.reSize (fun _ => 0) 4).map
        CRingBuffer.getUseSize = .ok 0 ∧
      ((ofSize 8 (by decide)).enqueue [1, 2, 3, 4]).2.getUseSize = 4 ∧
      (((ofSize 8 (by decide)).enqueue [1, 2, 3, 4]).2.reSize (fun _ => 0) 3).map
        CRingBuffer.getUseSize = .error .overrun := by
  decide

end CRingBuffer

end ChattingServer
