import ChattingServer.Foundation.BoundedQueue
import ChattingServer.Receive

/-!
# The ring is a bounded queue

A ring of size `n` answers any sequence of calls as a queue of at most `n - 1`
bytes does, and keeps its positions and its block inside `n`.
-/

namespace ChattingServer

/-- The calls a user of the ring makes.  Before `MoveRear` the caller has
written bytes through `GetRearBufferPtr` and the start of the block, as far as
the free space goes, and claims the first of them; `rest` is what it wrote and
does not claim. -/
inductive BufferCall where
  | enqueue (chpData : List BYTE)
  | dequeue (iSize : Nat)
  | peek (iSize : Nat)
  | moveFront (iSize : Nat)
  | moveRear (claimed rest : List BYTE)
  | clearBuffer
  deriving DecidableEq, Repr

/-- What a call gives back: the bytes taken in, or the bytes copied out. -/
inductive BufferReply where
  | writeSize (size : Nat)
  | bytes (copied : List BYTE)
  | done
  deriving DecidableEq, Repr

namespace CRingBuffer

variable (rb : CRingBuffer)

def call : BufferCall → BufferReply × CRingBuffer
  | .enqueue chpData => (.writeSize (rb.enqueue chpData).1, (rb.enqueue chpData).2)
  | .dequeue iSize => (.bytes (rb.dequeue iSize).1, (rb.dequeue iSize).2)
  | .peek iSize => (.bytes (rb.peek iSize), rb)
  | .moveFront iSize => (.done, rb.moveFront iSize)
  | .moveRear claimed rest => (.done, (rb.fill (claimed ++ rest)).moveRear claimed.length)
  | .clearBuffer => (.done, rb.clearBuffer)

/-- The two segments offered make up the free space. -/
theorem sum_wsaBufs : (rb.wsaBufs.map Prod.snd).sum = rb.getFreeSize := by
  have front := rb.front_lt
  have rear := rb.rear_lt
  have direct : rb.directEnqueueSize ≤ rb.getFreeSize := by
    unfold directEnqueueSize getFreeSize getUseSize
    split_ifs <;> omega
  unfold wsaBufs
  split
  · simp only [List.map_cons, List.map_nil, List.sum_cons, List.sum_nil]
    omega
  · simp only [List.map_cons, List.map_nil, List.sum_cons, List.sum_nil]
    omega

/-- Only as much is written through the two pointers as there is room for. -/
theorem fill_take (bytes : List BYTE) : rb.fill (bytes.take rb.getFreeSize) = rb.fill bytes := by
  unfold fill
  rw [← rb.sum_wsaBufs, Memory.scatter_take]

/-- Bytes laid at the rear of which the rear position claims the first `k`. -/
theorem content_lay_advanceRear_take {bytes : List BYTE} {k : Nat}
    (fits : bytes.length ≤ rb.getFreeSize) (le : k ≤ bytes.length) :
    ((rb.withData (Circular.lay rb.data rb.iBufSize rb.iRearPos bytes)).advanceRear k).content =
      rb.content ++ bytes.take k := by
  have split := rb.getUseSize_add_getFreeSize
  have pos := rb.size_pos
  have all := Circular.walk_lay (m := rb.data) rb.front_lt
    (show rb.getUseSize + bytes.length ≤ rb.iBufSize by omega)
  have use : ((rb.withData (Circular.lay rb.data rb.iBufSize rb.iRearPos bytes)).advanceRear
      k).getUseSize = rb.getUseSize + k := by
    refine getUseSize_of_rear _ ?_ (show rb.getUseSize + k < rb.iBufSize by omega)
    show (rb.iRearPos + k) % rb.iBufSize =
      (rb.iFrontPos + (rb.getUseSize + k)) % rb.iBufSize
    rw [rb.rear_eq, Nat.mod_add_mod, Nat.add_assoc]
  rw [content, use]
  show Circular.walk (Circular.lay rb.data rb.iBufSize rb.iRearPos bytes) rb.iBufSize
    rb.iFrontPos (rb.getUseSize + k) = _
  -- the walk over all that was laid, cut after its first `k` bytes
  rw [rb.rear_eq, ← Circular.take_walk (Nat.add_le_add_left le _), all, List.take_append,
    List.take_of_length_le (by simp), Circular.length_walk, Nat.add_sub_cancel_left]
  rfl

/-- Bytes written through the two pointers and claimed by `MoveRear` join the
queue as far as there is room. -/
theorem content_moveRear_fill (claimed rest : List BYTE) :
    ((rb.fill (claimed ++ rest)).moveRear claimed.length).content =
      rb.content ++ claimed.take rb.getFreeSize := by
  set bytes := (claimed ++ rest).take rb.getFreeSize with hbytes
  have fits : bytes.length ≤ rb.getFreeSize := by
    rw [hbytes, List.length_take]
    omega
  have size : (if claimed.length > rb.getFreeSize then rb.getFreeSize else claimed.length) =
      min claimed.length rb.getFreeSize := by
    split <;> omega
  have moved : (rb.fill (claimed ++ rest)).moveRear claimed.length =
      (rb.withData (Circular.lay rb.data rb.iBufSize rb.iRearPos bytes)).advanceRear
        (min claimed.length rb.getFreeSize) := by
    rw [← rb.fill_take, ← hbytes, rb.fill_eq fits, ← size]
    rfl
  have claim : bytes.take (min claimed.length rb.getFreeSize) = claimed.take rb.getFreeSize := by
    rw [hbytes, List.take_take, Nat.min_eq_left (Nat.min_le_right _ _), List.take_append,
      Nat.sub_eq_zero_of_le (Nat.min_le_left _ _), List.take_zero, List.append_nil,
      Nat.min_comm, ← List.take_eq_take_min]
  rw [moved, rb.content_lay_advanceRear_take fits, claim]
  rw [hbytes, List.length_take, List.length_append]
  omega

/-! ## Cells outside the block -/

theorem data_enqueue {k : Nat} (outside : rb.iBufSize ≤ k) (chpData : List BYTE) :
    (rb.enqueue chpData).2.data k = rb.data k := by
  rw [enqueue_snd]
  exact if_neg (Nat.not_lt.mpr outside)

theorem data_fill {k : Nat} (outside : rb.iBufSize ≤ k) (bytes : List BYTE) :
    (rb.fill bytes).data k = rb.data k := by
  rw [← rb.fill_take, rb.fill_eq (by rw [List.length_take]; omega)]
  exact if_neg (Nat.not_lt.mpr outside)

end CRingBuffer

/-! ## The queue it refines -/

/-- What the calls of the ring are on a queue of bytes. -/
def BoundedQueue.call {capacity : Nat} (q : BoundedQueue BYTE capacity) :
    BufferCall → BufferReply × BoundedQueue BYTE capacity
  | .enqueue chpData => (.writeSize (min chpData.length q.free), q.append chpData)
  | .dequeue iSize => (.bytes (q.front iSize), q.drop iSize)
  | .peek iSize => (.bytes (q.front iSize), q)
  | .moveFront iSize => (.done, q.drop iSize)
  | .moveRear claimed _ => (.done, q.append claimed)
  | .clearBuffer => (.done, .empty)

/-- A ring of size `n` that holds the bytes of `q` and has left the cells
beyond its block alone. -/
structure CRingBuffer.Holds {n : Nat} (rb : CRingBuffer) (q : BoundedQueue BYTE (n - 1)) :
    Prop where
  size : rb.iBufSize = n
  content : rb.content = q.items
  outside : ∀ k, n ≤ k → rb.data k = 0

namespace CRingBuffer.Holds

variable {n : Nat} {rb : CRingBuffer} {q : BoundedQueue BYTE (n - 1)}

theorem use_eq (h : rb.Holds q) : rb.getUseSize = q.use := by
  rw [← rb.length_content, h.content]
  rfl

theorem free_eq (h : rb.Holds q) : rb.getFreeSize = q.free := by
  have split := rb.getUseSize_add_getFreeSize
  have both := q.use_add_free
  rw [h.size, h.use_eq] at split
  omega

theorem ofSize (pos : 0 < n) : (ofSize n pos).Holds (n := n) .empty where
  size := rfl
  content := rfl
  outside _ _ := rfl

/-- One call. -/
theorem call (h : rb.Holds q) (c : BufferCall) :
    (rb.call c).1 = (q.call c).1 ∧ (rb.call c).2.Holds (q.call c).2 := by
  have free := h.free_eq
  have dropped (k : Nat) : (rb.moveFront k).Holds (q.drop k) :=
    ⟨h.size, by rw [rb.content_moveFront, h.content]; rfl, h.outside⟩
  cases c with
  | enqueue chpData =>
      refine ⟨congrArg BufferReply.writeSize ?_, h.size, ?_, fun k beyond => ?_⟩
      · show (if rb.getFreeSize < chpData.length then _ else _) = _
        rw [← free]
        split <;> omega
      · show (rb.enqueue chpData).2.content = _
        rw [rb.content_enqueue, h.content, free]
        rfl
      · have past := Nat.le_trans (Nat.le_of_eq h.size) beyond
        exact (rb.data_enqueue past chpData).trans (h.outside k beyond)
  | dequeue iSize =>
      refine ⟨congrArg BufferReply.bytes ?_, ?_⟩
      · rw [rb.dequeue_fst, h.content]
        rfl
      · show (rb.dequeue iSize).2.Holds _
        rw [rb.dequeue_snd]
        exact dropped iSize
  | peek iSize =>
      refine ⟨congrArg BufferReply.bytes ?_, h⟩
      rw [rb.peek_eq, h.content]
      rfl
  | moveFront iSize => exact ⟨rfl, dropped iSize⟩
  | moveRear claimed rest =>
      refine ⟨rfl, h.size, ?_, fun k beyond => ?_⟩
      · show ((rb.fill (claimed ++ rest)).moveRear claimed.length).content = _
        rw [rb.content_moveRear_fill, h.content, free]
        rfl
      · have past := Nat.le_trans (Nat.le_of_eq h.size) beyond
        exact (rb.data_fill past _).trans (h.outside k beyond)
  | clearBuffer => exact ⟨rfl, h.size, rb.content_clearBuffer, h.outside⟩

end CRingBuffer.Holds

/-- Any calls on a ring of size `n` are answered as by a queue of at most
`n - 1` bytes, and leave a ring that holds what the queue holds: both positions
inside the block, the sums the source forms below `2 * n`, one byte kept free,
`Peek` answering as `Dequeue` without a change, and `Dequeue` being `Peek` and
then `MoveFront`. -/
theorem ring_refines_queue {n : Nat} (pos : 0 < n) (calls : List BufferCall) :
    let served := serve CRingBuffer.call (CRingBuffer.ofSize n pos) calls
    let queue := serve BoundedQueue.call (BoundedQueue.empty : BoundedQueue BYTE (n - 1)) calls
    let rb := served.2
    let q := queue.2
    served.1 = queue.1 ∧
      (rb.content = q.items ∧ rb.getUseSize = q.items.length ∧
        rb.getUseSize + rb.getFreeSize = n - 1) ∧
      (rb.iFrontPos < n ∧ rb.iRearPos < n ∧ rb.iFrontPos + rb.getUseSize < 2 * n ∧
        rb.iRearPos + rb.getFreeSize < 2 * n) ∧
      (∀ k, n ≤ k → rb.data k = 0) ∧
      (∀ chpData, (rb.enqueue chpData).1 = min chpData.length rb.getFreeSize ∧
        (rb.enqueue chpData).2.content =
          rb.content ++ chpData.take (min chpData.length rb.getFreeSize)) ∧
      ∀ iSize, (rb.dequeue iSize).1 = rb.content.take (min iSize rb.getUseSize) ∧
        (rb.dequeue iSize).2.content = rb.content.drop (min iSize rb.getUseSize) ∧
        rb.call (.peek iSize) = (.bytes (rb.dequeue iSize).1, rb) ∧
        rb.dequeue iSize = (rb.peek iSize, rb.moveFront iSize) := by
  intro served queue rb q
  have both := serve_related CRingBuffer.Holds (fun _ _ c h => h.call c)
    (CRingBuffer.Holds.ofSize pos) calls
  have h : rb.Holds q := both.2
  have split := rb.getUseSize_add_getFreeSize
  have front := rb.front_lt
  have rear := rb.rear_lt
  rw [h.size] at split front rear
  refine ⟨both.1, ⟨h.content, h.use_eq, split⟩, ⟨front, rear, by omega, by omega⟩, h.outside,
    fun chpData => ⟨?_, ?_⟩, fun iSize => ⟨?_, ?_, ?_, ?_⟩⟩
  · show (if rb.getFreeSize < chpData.length then _ else _) = _
    split <;> omega
  · rw [rb.content_enqueue, Nat.min_comm, ← List.take_eq_take_min]
  · rw [rb.dequeue_fst, ← rb.length_content, ← List.take_eq_take_min]
  · rw [rb.content_dequeue, ← rb.length_content, ← List.drop_eq_drop_min]
  · rfl
  · rw [← rb.dequeue_snd]
    rfl

/-- A ring of three cells, filled past its end. -/
theorem ring_refines_queue_three :
    0 < 3 ∧ (serve CRingBuffer.call (CRingBuffer.ofSize 3 (by decide))
      [.enqueue [1, 2, 3], .dequeue 1, .enqueue [4], .peek 5]).1 =
        [.writeSize 2, .bytes [1], .writeSize 1, .bytes [2, 4]] :=
  ⟨by decide, (ring_refines_queue (by decide) _).1⟩

end ChattingServer
