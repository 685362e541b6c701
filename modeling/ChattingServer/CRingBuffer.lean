import ChattingServer.Foundation.Circular
import ChattingServer.Types

/-!
# The receive ring

`CRingBuffer` as the source computes it: two positions, a size and a block of
bytes, one byte always kept free.  `CRingBuffer.content` is the queue of bytes
the ring stands for; every operation is stated by what it does to that queue.
Sizes are the non-negative `int` values the callers pass.
-/

namespace ChattingServer

def BUF_SIZE : Nat := 65536

/-- A ring whose positions lie inside its block. -/
structure CRingBuffer where
  iFrontPos : Nat
  iRearPos : Nat
  iBufSize : Nat
  data : Memory BYTE
  front_lt : iFrontPos < iBufSize
  rear_lt : iRearPos < iBufSize

namespace CRingBuffer

/-- `CRingBuffer(int iBuffSize)`: an empty ring over a zeroed block. -/
def ofSize (iBuffSize : Nat) (h : 0 < iBuffSize) : CRingBuffer where
  iFrontPos := 0
  iRearPos := 0
  iBufSize := iBuffSize
  data := fun _ => 0
  front_lt := h
  rear_lt := h

/-- `CRingBuffer()`. -/
def new : CRingBuffer := ofSize BUF_SIZE (by decide)

variable (rb : CRingBuffer)

def getBufferSize : Nat := rb.iBufSize

def getUseSize : Nat :=
  if rb.iRearPos ≥ rb.iFrontPos then
    rb.iRearPos - rb.iFrontPos
  else
    rb.iBufSize - rb.iFrontPos + rb.iRearPos

def getFreeSize : Nat := rb.iBufSize - 1 - rb.getUseSize

def directEnqueueSize : Nat :=
  if rb.iFrontPos > rb.iRearPos then
    rb.iFrontPos - rb.iRearPos - 1
  else
    rb.iBufSize - rb.iRearPos - (if rb.iFrontPos = 0 then 1 else 0)

theorem size_pos : 0 < rb.iBufSize := Nat.lt_of_le_of_lt (Nat.zero_le _) rb.front_lt

/-- The front position moved on by `iSize`. -/
def advanceFront (iSize : Nat) : CRingBuffer :=
  { rb with
    iFrontPos := (rb.iFrontPos + iSize) % rb.iBufSize
    front_lt := Nat.mod_lt _ rb.size_pos }

/-- The rear position moved on by `iSize`. -/
def advanceRear (iSize : Nat) : CRingBuffer :=
  { rb with
    iRearPos := (rb.iRearPos + iSize) % rb.iBufSize
    rear_lt := Nat.mod_lt _ rb.size_pos }

/-- The ring over another content of its block. -/
def withData (data : Memory BYTE) : CRingBuffer := { rb with data := data }

/-- `Enqueue`: the bytes go in one piece or, past the end of the block, in
two; the number of bytes taken is returned. -/
def enqueue (chpData : List BYTE) : Nat × CRingBuffer :=
  let iSize := chpData.length
  let writeSize := if rb.getFreeSize < iSize then rb.getFreeSize else iSize
  let data :=
    if rb.iRearPos + writeSize > rb.iBufSize then
      let first := rb.iBufSize - rb.iRearPos
      (rb.data.write rb.iRearPos (chpData.take first)).write 0
        ((chpData.drop first).take (writeSize - first))
    else
      rb.data.write rb.iRearPos (chpData.take writeSize)
  (writeSize, (rb.withData data).advanceRear writeSize)

/-- `Peek`: the bytes copied out, whose number is the returned `readSize`. -/
def peek (iSize : Nat) : List BYTE :=
  let readSize := if rb.getUseSize < iSize then rb.getUseSize else iSize
  if rb.iFrontPos + readSize > rb.iBufSize then
    let size := rb.iBufSize - rb.iFrontPos
    rb.data.read rb.iFrontPos size ++ rb.data.read 0 (readSize - size)
  else
    rb.data.read rb.iFrontPos readSize

/-- `Dequeue`: the copy of `Peek`, then the front moves past it. -/
def dequeue (iSize : Nat) : List BYTE × CRingBuffer :=
  let readSize := if rb.getUseSize < iSize then rb.getUseSize else iSize
  let bytes :=
    if rb.iFrontPos + readSize > rb.iBufSize then
      let size := rb.iBufSize - rb.iFrontPos
      rb.data.read rb.iFrontPos size ++ rb.data.read 0 (readSize - size)
    else
      rb.data.read rb.iFrontPos readSize
  (bytes, rb.advanceFront readSize)

def moveFront (iSize : Nat) : CRingBuffer :=
  let can := rb.getUseSize
  rb.advanceFront (if iSize > can then can else iSize)

def moveRear (iSize : Nat) : CRingBuffer :=
  let can := rb.getFreeSize
  rb.advanceRear (if iSize > can then can else iSize)

def clearBuffer : CRingBuffer :=
  { rb with iFrontPos := 0, iRearPos := 0, front_lt := rb.size_pos, rear_lt := rb.size_pos }

/-! ## The queue of bytes -/

/-- The bytes held, oldest first. -/
def content : List BYTE :=
  Circular.walk rb.data rb.iBufSize rb.iFrontPos rb.getUseSize

@[simp] theorem length_content : rb.content.length = rb.getUseSize :=
  Circular.length_walk

theorem getUseSize_lt : rb.getUseSize < rb.iBufSize := by
  have := rb.front_lt
  have := rb.rear_lt
  unfold getUseSize
  split <;> omega

/-- One byte of the block is never used. -/
theorem getUseSize_add_getFreeSize : rb.getUseSize + rb.getFreeSize = rb.iBufSize - 1 := by
  have := rb.getUseSize_lt
  unfold getFreeSize
  omega

/-- The rear is the position reached from the front over the bytes held. -/
theorem rear_eq : rb.iRearPos = (rb.iFrontPos + rb.getUseSize) % rb.iBufSize := by
  have := rb.front_lt
  have := rb.rear_lt
  unfold getUseSize
  split
  · rw [show rb.iFrontPos + (rb.iRearPos - rb.iFrontPos) = rb.iRearPos by omega,
      Nat.mod_eq_of_lt rb.rear_lt]
  · rw [show rb.iFrontPos + (rb.iBufSize - rb.iFrontPos + rb.iRearPos) =
      rb.iRearPos + rb.iBufSize by omega, Nat.add_mod_right, Nat.mod_eq_of_lt rb.rear_lt]

/-- A rear `u` steps beyond the front leaves `u` bytes in use. -/
theorem getUseSize_of_rear {u : Nat} (rear : rb.iRearPos = (rb.iFrontPos + u) % rb.iBufSize)
    (fits : u < rb.iBufSize) : rb.getUseSize = u := by
  have := rb.front_lt
  unfold getUseSize
  by_cases wraps : rb.iFrontPos + u < rb.iBufSize
  · rw [rear, Nat.mod_eq_of_lt wraps, if_pos (by omega)]
    omega
  · have wrapped : (rb.iFrontPos + u) % rb.iBufSize = rb.iFrontPos + u - rb.iBufSize := by
      rw [Nat.mod_eq_sub_mod (Nat.le_of_not_lt wraps), Nat.mod_eq_of_lt (by omega)]
    rw [rear, wrapped, if_neg (by omega)]
    omega

theorem getUseSize_advanceFront {k : Nat} (h : k ≤ rb.getUseSize) :
    (rb.advanceFront k).getUseSize = rb.getUseSize - k := by
  have lt := rb.getUseSize_lt
  refine getUseSize_of_rear _ ?_ (show rb.getUseSize - k < rb.iBufSize by omega)
  show rb.iRearPos = ((rb.iFrontPos + k) % rb.iBufSize + (rb.getUseSize - k)) % rb.iBufSize
  rw [Nat.mod_add_mod, show rb.iFrontPos + k + (rb.getUseSize - k) =
    rb.iFrontPos + rb.getUseSize by omega]
  exact rb.rear_eq

theorem content_advanceFront {k : Nat} (h : k ≤ rb.getUseSize) :
    (rb.advanceFront k).content = rb.content.drop k := by
  rw [content, rb.getUseSize_advanceFront h, content, Circular.drop_walk h]
  rfl

/-- The two copies of `Peek` and `Dequeue` list the walk from the front. -/
theorem walk_eq_copies {k : Nat} (h : k ≤ rb.getUseSize) :
    Circular.walk rb.data rb.iBufSize rb.iFrontPos k =
      if rb.iFrontPos + k > rb.iBufSize then
        rb.data.read rb.iFrontPos (rb.iBufSize - rb.iFrontPos) ++
          rb.data.read 0 (k - (rb.iBufSize - rb.iFrontPos))
      else rb.data.read rb.iFrontPos k := by
  have front := rb.front_lt
  have lt := rb.getUseSize_lt
  split
  · exact Circular.walk_eq_reads (by omega) (by omega) (by omega)
  · exact Circular.walk_eq_read (by omega)

/-- `Peek` copies the oldest bytes out. -/
theorem peek_eq (iSize : Nat) : rb.peek iSize = rb.content.take iSize := by
  by_cases short : rb.getUseSize < iSize
  · rw [List.take_of_length_le (by simpa using by omega), content,
      rb.walk_eq_copies (Nat.le_refl _)]
    simp only [peek, if_pos short]
  · rw [content, Circular.take_walk (by omega), rb.walk_eq_copies (by omega)]
    simp only [peek, if_neg short]

/-- `Dequeue` returns what `Peek` shows. -/
theorem dequeue_fst (iSize : Nat) : (rb.dequeue iSize).1 = rb.content.take iSize :=
  rb.peek_eq iSize

/-- `Dequeue` is `Peek` followed by `MoveFront`. -/
theorem dequeue_snd (iSize : Nat) : (rb.dequeue iSize).2 = rb.moveFront iSize := by
  unfold dequeue moveFront
  rfl

theorem content_moveFront (iSize : Nat) :
    (rb.moveFront iSize).content = rb.content.drop iSize := by
  simp only [moveFront]
  by_cases past : iSize > rb.getUseSize
  · rw [if_pos past, rb.content_advanceFront (Nat.le_refl _),
      List.drop_of_length_le (by simp), List.drop_of_length_le (by simpa using by omega)]
  · rw [if_neg past, rb.content_advanceFront (by omega)]

theorem content_dequeue (iSize : Nat) :
    (rb.dequeue iSize).2.content = rb.content.drop iSize := by
  rw [dequeue_snd, content_moveFront]

/-- Bytes laid at the rear and then claimed by the rear position join the
queue. -/
theorem content_lay_advanceRear {bytes : List BYTE} (fits : bytes.length ≤ rb.getFreeSize) :
    ((rb.withData (Circular.lay rb.data rb.iBufSize rb.iRearPos bytes)).advanceRear
      bytes.length).content = rb.content ++ bytes := by
  have split := rb.getUseSize_add_getFreeSize
  have pos := rb.size_pos
  have use : ((rb.withData (Circular.lay rb.data rb.iBufSize rb.iRearPos bytes)).advanceRear
      bytes.length).getUseSize = rb.getUseSize + bytes.length := by
    refine getUseSize_of_rear _ ?_
      (show rb.getUseSize + bytes.length < rb.iBufSize by omega)
    show (rb.iRearPos + bytes.length) % rb.iBufSize =
      (rb.iFrontPos + (rb.getUseSize + bytes.length)) % rb.iBufSize
    rw [rb.rear_eq, Nat.mod_add_mod, Nat.add_assoc]
  rw [content, use]
  show Circular.walk (Circular.lay rb.data rb.iBufSize rb.iRearPos bytes) rb.iBufSize
    rb.iFrontPos (rb.getUseSize + bytes.length) = _
  rw [rb.rear_eq]
  exact Circular.walk_lay rb.front_lt (by omega)

theorem moveRear_of_le {k : Nat} (h : k ≤ rb.getFreeSize) : rb.moveRear k = rb.advanceRear k := by
  rw [moveRear, if_neg (by omega)]

@[simp] theorem content_clearBuffer : rb.clearBuffer.content = [] := by
  simp [content, clearBuffer, getUseSize]

@[simp] theorem iBufSize_clearBuffer : rb.clearBuffer.iBufSize = rb.iBufSize := rfl
@[simp] theorem iBufSize_advanceFront (k : Nat) : (rb.advanceFront k).iBufSize = rb.iBufSize := rfl
@[simp] theorem iBufSize_advanceRear (k : Nat) : (rb.advanceRear k).iBufSize = rb.iBufSize := rfl
@[simp] theorem iBufSize_moveFront (k : Nat) : (rb.moveFront k).iBufSize = rb.iBufSize := rfl
@[simp] theorem iBufSize_moveRear (k : Nat) : (rb.moveRear k).iBufSize = rb.iBufSize := rfl
@[simp] theorem iBufSize_dequeue (k : Nat) : (rb.dequeue k).2.iBufSize = rb.iBufSize := rfl

/-- `Enqueue` lays the bytes it has room for along the walk from the rear. -/
theorem enqueue_snd (chpData : List BYTE) :
    (rb.enqueue chpData).2 =
      (rb.withData (Circular.lay rb.data rb.iBufSize rb.iRearPos
        (chpData.take rb.getFreeSize))).advanceRear (chpData.take rb.getFreeSize).length := by
  have rear := rb.rear_lt
  have split := rb.getUseSize_add_getFreeSize
  have size : (if rb.getFreeSize < chpData.length then rb.getFreeSize else chpData.length) =
      (chpData.take rb.getFreeSize).length := by
    rw [List.length_take]
    split <;> omega
  have taken : chpData.take (chpData.take rb.getFreeSize).length =
      chpData.take rb.getFreeSize := by
    rw [List.length_take, ← List.take_take, List.take_length]
  unfold enqueue
  simp only [size]
  congr 2
  set bytes := chpData.take rb.getFreeSize with hbytes
  have room : bytes.length ≤ rb.getFreeSize := by
    rw [hbytes, List.length_take]
    omega
  split_ifs with wraps
  · have front : chpData.take (rb.iBufSize - rb.iRearPos) =
        bytes.take (rb.iBufSize - rb.iRearPos) := by
      rw [hbytes, List.take_take, Nat.min_eq_left (by omega)]
    have back : (chpData.drop (rb.iBufSize - rb.iRearPos)).take
        (bytes.length - (rb.iBufSize - rb.iRearPos)) = bytes.drop (rb.iBufSize - rb.iRearPos) := by
      rw [← List.drop_take, taken]
    rw [front, back, ← Circular.lay_eq_writes rear
      (by rw [List.length_take]; omega) (by rw [List.take_append_drop]; omega),
      List.take_append_drop]
  · rw [taken, Circular.lay_eq_write (by omega)]

/-- `Enqueue` appends the bytes it has room for. -/
theorem content_enqueue (chpData : List BYTE) :
    (rb.enqueue chpData).2.content = rb.content ++ chpData.take rb.getFreeSize := by
  rw [enqueue_snd, content_lay_advanceRear _ (by rw [List.length_take]; omega)]

end CRingBuffer

end ChattingServer
