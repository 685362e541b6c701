import ChattingServer.Types

/-!
# The packet

`CPacket` owns one block of bytes: a five-byte header and, behind it, the
payload that `<<` and `PutData` write and `>>` and `GetData` read.
`CPacket.data` lists the unread payload.

Two things a call can do besides returning are kept apart from its result:
copying past the end of the block (`Fault.overrun`), and still being in a loop
when the given number of rounds is used up (`Fault.running`).  A call that
runs for ever is one that gives `Fault.running` for every number of rounds.
-/

namespace ChattingServer

def FIX_KEY : LONG := 0x32
def PACKET_CODE : BYTE := 0x77
def MESSAGE_HEADER_LEN : Nat := 5

/-- Ways a call can fail to return. -/
inductive Fault where
  | overrun
  | running
  deriving DecidableEq, Repr

/-- `st_PACKET_HEADER`, packed to five bytes. -/
structure PacketHeader where
  code : BYTE
  len : WORD
  randKey : BYTE
  checkSum : BYTE
  deriving DecidableEq

/-- The bytes of the packed header. -/
def PacketHeader.bytes (h : PacketHeader) : List BYTE :=
  [h.code] ++ bytesOf h.len ++ [h.randKey, h.checkSum]

/-- The header at the start of a block. -/
def PacketHeader.at (block : Memory BYTE) : PacketHeader where
  code := block 0
  len := ofBytes 16 (block.read 1 2)
  randKey := block 3
  checkSum := block 4

@[simp] theorem PacketHeader.length_bytes (h : PacketHeader) :
    h.bytes.length = MESSAGE_HEADER_LEN := by
  simp [bytes, MESSAGE_HEADER_LEN]

/-- A header written at the start of a block is the header found there. -/
theorem PacketHeader.at_write (h : PacketHeader) (block : Memory BYTE) :
    PacketHeader.at (block.write 0 h.bytes) = h := by
  have code : block.write 0 h.bytes 0 = h.code := rfl
  have len : (block.write 0 h.bytes).read 1 2 = bytesOf h.len := rfl
  have randKey : block.write 0 h.bytes 3 = h.randKey := rfl
  have checkSum : block.write 0 h.bytes 4 = h.checkSum := rfl
  unfold PacketHeader.at
  rw [code, len, randKey, checkSum, ofBytes_bytesOf (k := 2)]

/-- The first five bytes of a block are those of its header. -/
theorem PacketHeader.bytes_at (block : Memory BYTE) :
    (PacketHeader.at block).bytes = block.read 0 MESSAGE_HEADER_LEN := by
  have len : bytesOf (ofBytes 16 (block.read 1 2)) = block.read 1 2 :=
    bytesOf_ofBytes (k := 2) (by simp)
  show [block 0] ++ bytesOf (ofBytes 16 (block.read 1 2)) ++ [block 3, block 4] = _
  rw [len]
  rfl

/-- A block that starts with the bytes of a header holds that header. -/
theorem PacketHeader.at_of_read {block : Memory BYTE} {h : PacketHeader}
    (bytes : block.read 0 MESSAGE_HEADER_LEN = h.bytes) : PacketHeader.at block = h := by
  have same : (PacketHeader.at block).bytes = h.bytes := (PacketHeader.bytes_at block).trans bytes
  rw [← PacketHeader.at_write h block, ← same, PacketHeader.at_write]

/-- A packet: the positions of its unread payload and its block.  The bytes in
use are those between the two positions and never outnumber the block. -/
structure CPacket where
  iMaxSize : Nat
  iFront : Nat
  iRear : Nat
  iUsingSize : Nat
  block : Memory BYTE
  bIsEncoded : Bool
  span : iFront + iUsingSize = iRear
  using_le : iUsingSize ≤ iMaxSize
  header_le : MESSAGE_HEADER_LEN ≤ iMaxSize

namespace CPacket

def eBUFFER_DEFAULT : Nat := 512

/-- `CPacket()`: an empty packet over a zeroed block of the default size. -/
def new : CPacket where
  iMaxSize := eBUFFER_DEFAULT
  iFront := 0
  iRear := 0
  iUsingSize := 0
  block := fun _ => 0
  bIsEncoded := false
  span := rfl
  using_le := Nat.zero_le _
  header_le := by decide

variable (p : CPacket)

def payloadCapacity : Nat := p.iMaxSize - MESSAGE_HEADER_LEN
def getDataSize : Nat := p.iUsingSize
def getFreeSize : Nat := p.iMaxSize - p.iUsingSize

/-- The unread payload. -/
def data : List BYTE := p.block.read (MESSAGE_HEADER_LEN + p.iFront) p.iUsingSize

@[simp] theorem length_data : p.data.length = p.iUsingSize := Memory.length_read

/-- `Clear`. -/
def clear : CPacket :=
  { p with
    iFront := 0
    iRear := 0
    iUsingSize := 0
    block := fun _ => 0
    bIsEncoded := false
    span := rfl
    using_le := Nat.zero_le _ }

/-- `Alloc` hands out a packet of the pool, cleared.  A packet keeps the block
it was built with (`increaseBufferSize_eq`), so it is the one `new` builds. -/
def alloc : CPacket := new.clear

/-- `SetMessageHeader`. -/
def setMessageHeader (header : List BYTE) : CPacket :=
  { p with block := p.block.write 0 header }

/-- The payload copied in at `GetBufferPtr()`, positions left alone. -/
def fillBuffer (bytes : List BYTE) : CPacket :=
  { p with block := p.block.write MESSAGE_HEADER_LEN bytes }

def moveWritePos (size : Nat) : CPacket :=
  let canWrite := p.getFreeSize
  let move := if size > canWrite then canWrite else size
  { p with
    iRear := p.iRear + move
    iUsingSize := p.iUsingSize + move
    span := by rw [← p.span, Nat.add_assoc]
    using_le := by
      have := p.using_le
      simp only [move, canWrite, getFreeSize]
      split <;> omega }

/-- The front moved past `size` unread bytes; an emptied packet starts over. -/
def consume (size : Nat) (h : size ≤ p.iUsingSize) : CPacket :=
  if empty : p.iFront + size = p.iRear then
    { p with
      iFront := 0
      iRear := 0
      iUsingSize := p.iUsingSize - size
      span := by
        have := p.span
        omega
      using_le := by
        have := p.using_le
        omega }
  else
    { p with
      iFront := p.iFront + size
      iUsingSize := p.iUsingSize - size
      span := by
        have := p.span
        omega
      using_le := by
        have := p.using_le
        omega }

/-- `MoveReadPos`, with the number of bytes it returns. -/
def moveReadPos (size : Nat) : Nat × CPacket :=
  if size ≤ 0 then
    (0, p)
  else
    let move := min size p.getDataSize
    (move, p.consume move (Nat.min_le_right _ _))

/-! ## Growing the block -/

/-- A number as an `int` holds it. -/
def asInt (x : Int) : Int := (BitVec.ofInt 32 x).toInt

theorem asInt_of_lt {x : Nat} (narrow : x < 2 ^ 31) : asInt x = x := by
  rw [asInt, BitVec.toInt_ofInt]
  exact Int.bmod_eq_of_le (by omega) (by omega)

/-- `while (payloadcap < size) newSize = ...`, for at most `fuel` rounds. -/
def growLoop : Nat → Int → Int → Int → Option Int
  | 0, _, _, _ => none
  | fuel + 1, payloadcap, size, newSize =>
      if payloadcap < size then
        growLoop fuel payloadcap size (if newSize ≤ 0 then size else asInt (newSize * 2))
      else
        some newSize

/-- `IncreaseBufferSize`.  A sum that no `int` holds comes round, and may then be
less than the capacity. -/
def increaseBufferSize (fuel addSize : Nat) : Except Fault CPacket :=
  if addSize ≤ 0 then
    .ok p
  else
    let payloadcap : Int := p.payloadCapacity
    let size := asInt (p.iUsingSize + addSize)
    if payloadcap ≥ size then
      .ok p
    else
      match growLoop fuel payloadcap size payloadcap with
      | none => .error .running
      | some newSize =>
          let newTotal := MESSAGE_HEADER_LEN + newSize.toNat
          if fits : p.iMaxSize ≤ newTotal then
            .ok { p with
              block := Memory.write (fun _ => 0) 0 (p.block.read 0 p.iMaxSize)
              iMaxSize := newTotal
              using_le := Nat.le_trans p.using_le fits
              header_le := Nat.le_add_right _ _ }
          else
            .error .overrun

/-- The growing loop tests what it never changes. -/
theorem growLoop_eq_none {payloadcap size : Int} (h : payloadcap < size) :
    ∀ fuel newSize, growLoop fuel payloadcap size newSize = none
  | 0, _ => rfl
  | fuel + 1, _ => by
      rw [growLoop, if_pos h]
      exact growLoop_eq_none h fuel _

/-- `IncreaseBufferSize` looks for the new size. -/
def SeeksRoom (addSize : Nat) : Prop :=
  0 < addSize ∧ (p.payloadCapacity : Int) < asInt (p.iUsingSize + addSize)

instance (addSize : Nat) : Decidable (p.SeeksRoom addSize) :=
  inferInstanceAs (Decidable (_ ∧ _))

/-- `IncreaseBufferSize` looks for the new size where the request is more than the free
size, unless the sum comes round. -/
theorem seeksRoom_of_short {size request : Nat} (short : p.getFreeSize < size)
    (asked : size ≤ request) (narrow : p.iUsingSize + request < 2 ^ 31) :
    p.SeeksRoom request := by
  have header := p.header_le
  unfold getFreeSize at short
  refine ⟨by omega, ?_⟩
  rw [← Int.natCast_add, asInt_of_lt narrow]
  unfold payloadCapacity
  unfold MESSAGE_HEADER_LEN at header ⊢
  omega

/-- A request for room either finds it or is never answered: no packet ever
changes its block. -/
theorem increaseBufferSize_eq (fuel addSize : Nat) :
    p.increaseBufferSize fuel addSize =
      if p.SeeksRoom addSize then .error .running else .ok p := by
  unfold increaseBufferSize
  by_cases none : addSize ≤ 0
  · rw [if_pos none, if_neg fun seeks => Nat.not_lt.mpr none seeks.1]
  · rw [if_neg none]
    by_cases room : (p.payloadCapacity : Int) ≥ asInt (p.iUsingSize + addSize)
    · simp only [if_pos room]
      rw [if_neg fun seeks => Int.not_lt.mpr room seeks.2]
    · have short := Int.not_le.mp room
      simp only [if_neg room]
      rw [growLoop_eq_none short, if_pos ⟨Nat.lt_of_not_le none, short⟩]

/-! ## Writing -/

/-- The payload followed by `bytes`, copied behind the rear. -/
def extend (bytes : List BYTE)
    (fits : MESSAGE_HEADER_LEN + p.iRear + bytes.length ≤ p.iMaxSize) : CPacket :=
  { p with
    block := p.block.write (MESSAGE_HEADER_LEN + p.iRear) bytes
    iRear := p.iRear + bytes.length
    iUsingSize := p.iUsingSize + bytes.length
    span := by rw [← p.span, Nat.add_assoc]
    using_le := by
      have := p.span
      omega }

/-- The body `PutData` and `<<` share: ask for `request` more bytes when the
free size is short, then copy. -/
def append (fuel request : Nat) (bytes : List BYTE) : Except Fault CPacket := do
  let q ← if p.getFreeSize < bytes.length then p.increaseBufferSize fuel request else .ok p
  if fits : MESSAGE_HEADER_LEN + q.iRear + bytes.length ≤ q.iMaxSize then
    .ok (q.extend bytes fits)
  else
    .error .overrun

/-- `PutData`. -/
def putData (fuel : Nat) (bytes : List BYTE) : Except Fault CPacket :=
  p.append fuel bytes.length bytes

/-- `WriteValue`, the body of every `<<`. -/
def writeValue (fuel : Nat) {w : Nat} (val : BitVec w) : Except Fault CPacket :=
  p.append fuel (w / 8 * 2) (bytesOf val)

theorem data_extend (bytes : List BYTE)
    (fits : MESSAGE_HEADER_LEN + p.iRear + bytes.length ≤ p.iMaxSize) :
    (p.extend bytes fits).data = p.data ++ bytes := by
  have span := p.span
  show (p.block.write (MESSAGE_HEADER_LEN + p.iRear) bytes).read (MESSAGE_HEADER_LEN + p.iFront)
    (p.iUsingSize + bytes.length) = _
  rw [Memory.read_add, Memory.read_write_disjoint (by omega), ← span, ← Nat.add_assoc,
    Memory.read_write]
  rfl

/-- A write that ends inside the block copies and grows nothing. -/
theorem append_of_fits (fuel request : Nat) {bytes : List BYTE}
    (fits : MESSAGE_HEADER_LEN + p.iRear + bytes.length ≤ p.iMaxSize) :
    p.append fuel request bytes = .ok (p.extend bytes fits) := by
  have span := p.span
  have room : ¬ p.getFreeSize < bytes.length := by
    unfold getFreeSize
    omega
  unfold append
  rw [if_neg room]
  exact dif_pos fits

/-- A write that looks for room never returns. -/
theorem append_of_short (fuel : Nat) {request : Nat} {bytes : List BYTE}
    (short : p.getFreeSize < bytes.length) (seeks : p.SeeksRoom request) :
    p.append fuel request bytes = .error .running := by
  unfold append
  rw [if_pos short, increaseBufferSize_eq, if_pos seeks]
  rfl

/-- A write the free size cannot hold, and whose request has come round, ends past
the block. -/
theorem append_of_wrapped (fuel : Nat) {request : Nat} {bytes : List BYTE}
    (short : p.getFreeSize < bytes.length) (wrapped : ¬ p.SeeksRoom request) :
    p.append fuel request bytes = .error .overrun := by
  have span := p.span
  unfold append
  rw [if_pos short, increaseBufferSize_eq, if_neg wrapped]
  unfold getFreeSize at short
  exact dif_neg (by omega)

/-- A write the free size admits but the block does not ends past it. -/
theorem append_of_overrun (fuel request : Nat) {bytes : List BYTE}
    (room : bytes.length ≤ p.getFreeSize)
    (past : p.iMaxSize < MESSAGE_HEADER_LEN + p.iRear + bytes.length) :
    p.append fuel request bytes = .error .overrun := by
  unfold append
  rw [if_neg (Nat.not_lt.mpr room)]
  exact dif_neg (Nat.not_le.mpr past)

/-- A packet of the default size written from its start, not yet encoded. -/
structure Written (bytes : List BYTE) : Prop where
  size : p.iMaxSize = eBUFFER_DEFAULT
  front : p.iFront = 0
  data : p.data = bytes
  plain : p.bIsEncoded = false

theorem written_alloc : alloc.Written [] := ⟨rfl, rfl, rfl, rfl⟩

section Written

variable {p} {written : List BYTE} (h : p.Written written)
include h

theorem Written.iUsingSize : p.iUsingSize = written.length := by
  rw [← h.data, length_data]

theorem Written.iRear : p.iRear = written.length := by
  rw [← p.span, h.front, h.iUsingSize, Nat.zero_add]

/-- A write that the payload capacity holds is appended. -/
theorem Written.append (fuel request : Nat) {bytes : List BYTE}
    (fits : written.length + bytes.length ≤ 507) :
    ∃ q, p.append fuel request bytes = .ok q ∧ q.Written (written ++ bytes) := by
  have inside : MESSAGE_HEADER_LEN + p.iRear + bytes.length ≤ p.iMaxSize := by
    rw [h.iRear, h.size]
    unfold MESSAGE_HEADER_LEN eBUFFER_DEFAULT
    omega
  refine ⟨p.extend bytes inside, p.append_of_fits fuel request inside, h.size, h.front, ?_,
    h.plain⟩
  rw [data_extend, h.data]

/-- A write past the payload capacity fails: the last five bytes the free size
counts are the header's, and a larger request waits for ever or comes round. -/
theorem Written.append_error (fuel request : Nat) {bytes : List BYTE}
    (past : 507 < written.length + bytes.length) :
    ∃ fault, p.append fuel request bytes = .error fault := by
  rcases Nat.lt_or_ge p.getFreeSize bytes.length with short | room
  · by_cases seeks : p.SeeksRoom request
    · exact ⟨.running, p.append_of_short fuel short seeks⟩
    · exact ⟨.overrun, p.append_of_wrapped fuel short seeks⟩
  · refine ⟨.overrun, p.append_of_overrun fuel request room ?_⟩
    rw [h.iRear, h.size]
    unfold MESSAGE_HEADER_LEN eBUFFER_DEFAULT
    omega

end Written

/-! ## Reading -/

/-- `GetData`: a packet that holds too little is left alone and nothing is
copied. -/
def getData (size : Nat) : Option (List BYTE) × CPacket :=
  if short : p.getDataSize < size then
    (none, p)
  else
    (some (p.block.read (MESSAGE_HEADER_LEN + p.iFront) size),
      p.consume size (Nat.le_of_not_lt short))

/-- `ReadValue`, the body of every `>>`: a short packet leaves `val` as it
was. -/
def readValue {w : Nat} (val : BitVec w) : BitVec w × CPacket :=
  match p.getData (w / 8) with
  | (some bytes, q) => (ofBytes w bytes, q)
  | (none, q) => (val, q)

theorem data_consume {size : Nat} (h : size ≤ p.iUsingSize) :
    (p.consume size h).data = p.data.drop size := by
  have span := p.span
  unfold consume
  split
  · have all : p.iUsingSize = size := by omega
    rw [List.drop_of_length_le (by simp [all])]
    simp [data, all]
  · rw [data, data, Memory.drop_read h]
    simp only [Nat.add_assoc]

theorem getData_of_le {size : Nat} (h : size ≤ p.iUsingSize) :
    p.getData size = (some (p.data.take size), p.consume size h) := by
  have enough : ¬ p.getDataSize < size := Nat.not_lt.mpr h
  unfold getData
  rw [dif_neg enough, data, Memory.take_read h]

theorem getData_of_short {size : Nat} (h : p.iUsingSize < size) :
    p.getData size = (none, p) :=
  dif_pos h

theorem readValue_of_le {w : Nat} (val : BitVec w) (h : w / 8 ≤ p.iUsingSize) :
    p.readValue val = (ofBytes w (p.data.take (w / 8)), p.consume (w / 8) h) := by
  unfold readValue
  rw [p.getData_of_le h]

theorem readValue_of_short {w : Nat} (val : BitVec w) (h : p.iUsingSize < w / 8) :
    p.readValue val = (val, p) := by
  unfold readValue
  rw [p.getData_of_short h]

end CPacket

end ChattingServer
