import ChattingServer.Foundation.BoundedQueue
import ChattingServer.CPacket
import Mathlib.Logic.Relation

/-!
# The packet as a queue of bytes

Within its payload capacity a packet is a first-in first-out queue of bytes
(`packet_refines_queue`).  Nothing in the packet keeps it there: the free size
counts the header in, and bytes read from the front as room behind the rear.
`payload_bounds` says which calls stay inside.  The block never grows
(`never_grows`): a write that is short of room waits for it for ever.
-/

namespace ChattingServer

/-- The types that `<<` and `>>` are defined for. -/
inductive Scalar where
  | byte
  | char
  | wchar
  | short
  | word
  | int
  | dword
  | float
  | long
  | int64
  | double
  deriving DecidableEq, Repr

def Scalar.bits : Scalar → Nat
  | .byte | .char => 8
  | .wchar | .short | .word => 16
  | .int | .dword | .float | .long => 32
  | .int64 | .double => 64

/-- `sizeof`. -/
def Scalar.size (t : Scalar) : Nat := t.bits / 8

theorem Scalar.bits_eq (t : Scalar) : t.bits = 8 * t.size := by
  cases t <;> rfl

/-- A value of one of the types, as its bits. -/
structure Value where
  type : Scalar
  bits : BitVec type.bits
  deriving DecidableEq, Repr

/-- The calls that read and write the payload.  `read` is `>>` into a variable
that holds the given value. -/
inductive QueueCall where
  | write (v : Value)
  | putData (bytes : List BYTE)
  | read (v : Value)
  | getData (size : Nat)
  | moveReadPos (size : Nat)
  deriving DecidableEq, Repr

/-- What a call gives back: the variable read into, the bytes copied out, if
any, or the number of bytes passed over. -/
inductive PacketReply where
  | done
  | value (v : Value)
  | bytes (copied : Option (List BYTE))
  | moved (size : Nat)
  deriving DecidableEq, Repr

/-- How many bytes the call writes. -/
@[simp] def QueueCall.written : QueueCall → Nat
  | .write v => v.type.size
  | .putData bytes => bytes.length
  | _ => 0

/-- How many more bytes the call asks `IncreaseBufferSize` for when the free
size is short. -/
@[simp] def QueueCall.asked : QueueCall → Nat
  | .write v => v.type.size * 2
  | .putData bytes => bytes.length
  | _ => 0

/-! ## The queue -/

/-- The calls on a queue of bytes. -/
def byteQueue (q : List BYTE) : QueueCall → PacketReply × List BYTE
  | .write v => (.done, q ++ bytesOf v.bits)
  | .putData bytes => (.done, q ++ bytes)
  | .read v =>
      if q.length < v.type.size then (.value v, q)
      else (.value ⟨v.type, ofBytes _ (q.take v.type.size)⟩, q.drop v.type.size)
  | .getData size =>
      if q.length < size then (.bytes none, q) else (.bytes (some (q.take size)), q.drop size)
  | .moveReadPos size => (.moved (min size q.length), q.drop size)

theorem byteQueue_read_of_short {q : List BYTE} {v : Value} (short : q.length < v.type.size) :
    byteQueue q (.read v) = (.value v, q) :=
  if_pos short

theorem byteQueue_read_of_le {q : List BYTE} {v : Value} (enough : v.type.size ≤ q.length) :
    byteQueue q (.read v) =
      (.value ⟨v.type, ofBytes _ (q.take v.type.size)⟩, q.drop v.type.size) :=
  if_neg (Nat.not_lt.mpr enough)

theorem byteQueue_getData_of_short {q : List BYTE} (size : Nat) (short : q.length < size) :
    byteQueue q (.getData size) = (.bytes none, q) :=
  if_pos short

theorem byteQueue_getData_of_le {q : List BYTE} (size : Nat) (enough : size ≤ q.length) :
    byteQueue q (.getData size) = (.bytes (some (q.take size)), q.drop size) :=
  if_neg (Nat.not_lt.mpr enough)

theorem Value.ofBytes_bytesOf (v : Value) : ofBytes v.type.bits (bytesOf v.bits) = v.bits := by
  have whole : ∀ (w k : Nat) (x : BitVec w), w = 8 * k → ofBytes w (bytesOf x) = x := by
    rintro w k x rfl
    exact ChattingServer.ofBytes_bytesOf x
  exact whole _ v.type.size v.bits v.type.bits_eq

theorem Value.length_bytesOf (v : Value) : (bytesOf v.bits).length = v.type.size :=
  ChattingServer.length_bytesOf v.bits

/-- What is written is read back. -/
theorem byteQueue_read (v w : Value) (same : w.type = v.type) (q : List BYTE) :
    byteQueue (bytesOf v.bits ++ q) (.read w) = (.value v, q) := by
  obtain ⟨t, x⟩ := w
  subst same
  have length := v.length_bytesOf
  have enough : v.type.size ≤ (bytesOf v.bits ++ q).length := by
    rw [List.length_append]
    omega
  rw [byteQueue_read_of_le (v := ⟨v.type, x⟩) enough, List.take_left' length,
    List.drop_left' length, v.ofBytes_bytesOf]

theorem serve_writes (q : List BYTE) (values : List Value) :
    serve byteQueue q (values.map .write) =
      (values.map fun _ => .done, q ++ values.flatMap fun v => bytesOf v.bits) := by
  induction values generalizing q with
  | nil => simp [serve]
  | cons v values ih =>
      rw [List.map_cons, serve, byteQueue]
      dsimp only
      rw [ih, List.map_cons, List.flatMap_cons, List.append_assoc]

theorem serve_reads (values into : List Value)
    (same : into.map Value.type = values.map Value.type) :
    serve byteQueue (values.flatMap fun v => bytesOf v.bits) (into.map .read) =
      (values.map .value, []) := by
  induction values generalizing into with
  | nil =>
      rw [List.map_nil, List.map_eq_nil_iff] at same
      rw [same]
      rfl
  | cons v values ih =>
      cases into with
      | nil => cases same
      | cons w into =>
          obtain ⟨first, rest⟩ := List.cons.inj same
          rw [List.map_cons, List.flatMap_cons, serve, byteQueue_read v w first]
          dsimp only
          rw [ih into rest]
          rfl

/-! ## The packet -/

namespace CPacket

variable (p : CPacket) (fuel : Nat)

def queueCall : QueueCall → Except Fault (PacketReply × CPacket)
  | .write v => (p.writeValue fuel v.bits).map fun q => (.done, q)
  | .putData bytes => (p.putData fuel bytes).map fun q => (.done, q)
  | .read v => .ok (.value ⟨v.type, (p.readValue v.bits).1⟩, (p.readValue v.bits).2)
  | .getData size => .ok (.bytes (p.getData size).1, (p.getData size).2)
  | .moveReadPos size => .ok (.moved (p.moveReadPos size).1, (p.moveReadPos size).2)

/-- Serve the calls in order, as long as each returns. -/
def serveQueue : CPacket → List QueueCall → Except Fault (List PacketReply × CPacket)
  | p, [] => .ok ([], p)
  | p, c :: cs => do
      let (r, p) ← p.queueCall fuel c
      let (rs, p) ← serveQueue p cs
      return (r :: rs, p)

/-- No write of the calls goes beyond the payload capacity. -/
def Roomy : CPacket → List QueueCall → Prop
  | _, [] => True
  | p, c :: cs => p.iRear + c.written ≤ p.payloadCapacity ∧
      ∀ r q, p.queueCall fuel c = .ok (r, q) → Roomy q cs

/-- An empty packet is read and written from its start. -/
def Settled : Prop := p.iUsingSize = 0 → p.iFront = 0 ∧ p.iRear = 0

theorem settled_alloc : alloc.Settled := fun _ => ⟨rfl, rfl⟩

/-- A packet that has served a call as a queue. -/
structure Serves (c : QueueCall) (q : CPacket) : Prop where
  call : p.queueCall fuel c = .ok ((byteQueue p.data c).1, q)
  data : q.data = (byteQueue p.data c).2
  settled : q.Settled
  capacity : q.payloadCapacity = p.payloadCapacity
  rear : q.iRear ≤ p.iRear + c.written

section Served

variable {p} {fuel}

theorem settled_consume {size : Nat} (h : size ≤ p.iUsingSize) : (p.consume size h).Settled := by
  have span := p.span
  intro empty
  unfold consume at empty ⊢
  split
  · exact ⟨rfl, rfl⟩
  · rename_i more
    rw [dif_neg more] at empty
    dsimp only at empty
    omega

theorem iMaxSize_consume {size : Nat} (h : size ≤ p.iUsingSize) :
    (p.consume size h).iMaxSize = p.iMaxSize := by
  unfold consume
  split <;> rfl

theorem iRear_consume_le {size : Nat} (h : size ≤ p.iUsingSize) :
    (p.consume size h).iRear ≤ p.iRear := by
  unfold consume
  split
  · exact Nat.zero_le _
  · exact Nat.le_refl _

/-- A call that takes bytes off the front. -/
theorem serves_consume {c : QueueCall} {size : Nat} (h : size ≤ p.iUsingSize)
    (call : p.queueCall fuel c = .ok ((byteQueue p.data c).1, p.consume size h))
    (drop : (byteQueue p.data c).2 = p.data.drop size) :
    p.Serves fuel c (p.consume size h) where
  call := call
  data := (p.data_consume h).trans drop.symm
  settled := settled_consume h
  capacity := by rw [payloadCapacity, iMaxSize_consume, payloadCapacity]
  rear := Nat.le_trans (iRear_consume_le h) (Nat.le_add_right _ _)

/-- A call that finds too little. -/
theorem serves_nothing {c : QueueCall} (settled : p.Settled)
    (call : p.queueCall fuel c = .ok ((byteQueue p.data c).1, p))
    (same : (byteQueue p.data c).2 = p.data) : p.Serves fuel c p where
  call := call
  data := same.symm
  settled := settled
  capacity := rfl
  rear := Nat.le_add_right _ _

/-- A call that writes behind the rear. -/
theorem serves_extend {c : QueueCall} {bytes : List BYTE}
    (fits : MESSAGE_HEADER_LEN + p.iRear + bytes.length ≤ p.iMaxSize) (settled : p.Settled)
    (call : p.queueCall fuel c = .ok ((byteQueue p.data c).1, p.extend bytes fits))
    (append : (byteQueue p.data c).2 = p.data ++ bytes) (size : c.written = bytes.length) :
    p.Serves fuel c (p.extend bytes fits) where
  call := call
  data := (p.data_extend bytes fits).trans append.symm
  settled := by
    intro empty
    have none : p.iUsingSize + bytes.length = 0 := empty
    obtain ⟨front, rear⟩ := settled (by omega)
    refine ⟨front, ?_⟩
    show p.iRear + bytes.length = 0
    omega
  capacity := rfl
  rear := Nat.le_of_eq (congrArg (p.iRear + ·) size.symm)

/-- A typed read that needs more than there is. -/
theorem queueCall_read_of_short {v : Value} (short : p.iUsingSize < v.type.size) :
    p.queueCall fuel (.read v) = .ok (.value v, p) := by
  rw [queueCall, p.readValue_of_short v.bits short]

/-- A `GetData` that needs more than there is. -/
theorem queueCall_getData_of_short {size : Nat} (short : p.iUsingSize < size) :
    p.queueCall fuel (.getData size) = .ok (.bytes none, p) := by
  rw [queueCall, p.getData_of_short short]

/-- **One call.** -/
theorem Settled.serves (settled : p.Settled) {c : QueueCall}
    (room : p.iRear + c.written ≤ p.payloadCapacity) : ∃ q, p.Serves fuel c q := by
  have header := p.header_le
  have fits : ∀ {bytes : List BYTE}, c.written = bytes.length →
      MESSAGE_HEADER_LEN + p.iRear + bytes.length ≤ p.iMaxSize := by
    intro bytes size
    unfold payloadCapacity at room
    omega
  cases c with
  | write v =>
      have size := v.length_bytesOf.symm
      refine ⟨_, serves_extend (fits size) settled ?_ rfl size⟩
      rw [queueCall, writeValue, p.append_of_fits fuel _ (fits size)]
      rfl
  | putData bytes =>
      refine ⟨_, serves_extend (fits rfl) settled ?_ rfl rfl⟩
      rw [queueCall, putData, p.append_of_fits fuel _ (fits rfl)]
      rfl
  | read v =>
      rcases Nat.lt_or_ge p.iUsingSize v.type.size with short | enough
      · have spec := byteQueue_read_of_short (q := p.data) (v := v)
          (by rw [length_data]; exact short)
        refine ⟨p, serves_nothing settled ?_ (congrArg Prod.snd spec)⟩
        rw [spec, queueCall_read_of_short short]
      · have spec := byteQueue_read_of_le (q := p.data) (v := v) (by rw [length_data]; exact enough)
        refine ⟨_, serves_consume enough ?_ (congrArg Prod.snd spec)⟩
        rw [spec, queueCall, p.readValue_of_le v.bits enough]
        rfl
  | getData size =>
      rcases Nat.lt_or_ge p.iUsingSize size with short | enough
      · have spec := byteQueue_getData_of_short (q := p.data) size
          (by rw [length_data]; exact short)
        refine ⟨p, serves_nothing settled ?_ (congrArg Prod.snd spec)⟩
        rw [spec, queueCall_getData_of_short short]
      · have spec := byteQueue_getData_of_le (q := p.data) size (by rw [length_data]; exact enough)
        refine ⟨_, serves_consume enough ?_ (congrArg Prod.snd spec)⟩
        rw [spec, queueCall, p.getData_of_le enough]
  | moveReadPos size =>
      rcases Nat.eq_zero_or_pos size with rfl | positive
      · refine ⟨p, serves_nothing settled ?_ rfl⟩
        show _ = Except.ok (PacketReply.moved (min 0 p.data.length), p)
        rw [Nat.zero_min]
        rfl
      · have least : min size p.getDataSize ≤ p.iUsingSize := Nat.min_le_right _ _
        refine ⟨p.consume _ least, serves_consume least ?_ ?_⟩
        · have moves : p.moveReadPos size =
              (min size p.getDataSize, p.consume _ least) := if_neg (Nat.not_le.mpr positive)
          rw [queueCall, moves]
          unfold byteQueue
          rw [length_data]
          rfl
        · show p.data.drop size = p.data.drop (min size p.iUsingSize)
          rw [← p.length_data, ← List.drop_eq_drop_min]

/-- Any calls. -/
theorem Settled.serveQueue (calls : List QueueCall) :
    ∀ {p : CPacket}, p.Settled → p.Roomy fuel calls →
      ∃ q, p.serveQueue fuel calls = .ok ((serve byteQueue p.data calls).1, q) ∧
        q.data = (serve byteQueue p.data calls).2 ∧ q.Settled ∧
        q.payloadCapacity = p.payloadCapacity := by
  induction calls with
  | nil => exact fun settled _ => ⟨_, rfl, rfl, settled, rfl⟩
  | cons c calls ih =>
      intro p settled room
      obtain ⟨next, served⟩ : ∃ q, p.Serves fuel c q := settled.serves room.1
      obtain ⟨q, run, data, settled', capacity⟩ :=
        ih served.settled (room.2 _ next served.call)
      rw [served.data] at run data
      refine ⟨q, ?_, data, settled', capacity.trans served.capacity⟩
      rw [CPacket.serveQueue, served.call]
      simp only [bind, Except.bind]
      rw [run, serve_cons]
      rfl

/-- Calls that write no more than the capacity holds behind the rear. -/
theorem Settled.roomy (calls : List QueueCall) :
    ∀ {p : CPacket}, p.Settled →
      p.iRear + (calls.map QueueCall.written).sum ≤ p.payloadCapacity → p.Roomy fuel calls := by
  induction calls with
  | nil => exact fun _ _ => trivial
  | cons c calls ih =>
      intro p settled room
      rw [List.map_cons, List.sum_cons] at room
      have first : p.iRear + c.written ≤ p.payloadCapacity := by omega
      refine ⟨first, fun r q called => ?_⟩
      obtain ⟨next, served⟩ : ∃ q, p.Serves fuel c q := settled.serves first
      rw [served.call] at called
      obtain ⟨-, rfl⟩ := Prod.mk.inj (Except.ok.inj called)
      have rear := served.rear
      apply ih served.settled
      rw [served.capacity]
      omega

/-- What the writing and reading back of a list of values writes. -/
theorem sum_written (values into : List Value) :
    ((values.map QueueCall.write ++ into.map QueueCall.read).map QueueCall.written).sum =
      (values.map fun v => v.type.size).sum := by
  have none : ((into.map QueueCall.read).map QueueCall.written).sum = 0 := by
    induction into with
    | nil => rfl
    | cons v into ih =>
        rw [List.map_cons, List.map_cons, List.sum_cons, ih]
        rfl
  rw [List.map_append, List.sum_append, none, List.map_map]
  rfl

end Served

/-- **The packet is a queue of bytes.**  Calls whose writes stay within the
payload capacity are answered as a queue answers them, and a packet left empty
starts over; a read that needs more than there is changes nothing; values
written to an empty packet are read back and leave it empty. -/
theorem packet_refines_queue (fuel : Nat) (p : CPacket) (settled : p.Settled) :
    (∀ calls, p.Roomy fuel calls → ∃ q,
      p.serveQueue fuel calls = .ok ((serve byteQueue p.data calls).1, q) ∧
      q.data = (serve byteQueue p.data calls).2 ∧
      (q.data = [] → q.iFront = 0 ∧ q.iRear = 0)) ∧
    (∀ v : Value, p.iUsingSize < v.type.size →
      p.queueCall fuel (.read v) = .ok (.value v, p)) ∧
    (∀ size, p.iUsingSize < size → p.queueCall fuel (.getData size) = .ok (.bytes none, p)) ∧
    (p.data = [] → ∀ values into : List Value, into.map Value.type = values.map Value.type →
      (values.map fun v => v.type.size).sum ≤ p.payloadCapacity → ∃ q,
      p.serveQueue fuel (values.map .write ++ into.map .read) =
        .ok ((values.map fun _ => .done) ++ values.map .value, q) ∧
      q.iUsingSize = 0 ∧ q.iFront = 0 ∧ q.iRear = 0) := by
  have empty : ∀ {q : CPacket}, q.data = [] → q.iUsingSize = 0 := by
    intro q none
    rw [← q.length_data, none, List.length_nil]
  refine ⟨?_, fun _ => queueCall_read_of_short, fun _ => queueCall_getData_of_short, ?_⟩
  · intro calls room
    obtain ⟨q, run, data, settled', -⟩ := settled.serveQueue calls room
    exact ⟨q, run, data, fun none => settled' (empty none)⟩
  · intro start values into same fits
    have rear : p.iRear = 0 := (settled (empty start)).2
    have room : p.Roomy fuel (values.map .write ++ into.map .read) := by
      apply settled.roomy
      rw [sum_written, rear, Nat.zero_add]
      exact fits
    obtain ⟨q, run, data, settled', -⟩ := settled.serveQueue _ room
    rw [start, serve_append, serve_writes, List.nil_append, serve_reads values into same]
      at run data
    have none := empty data
    exact ⟨q, run, none, settled' none⟩

/-- A word and a byte written to a packet of the pool and read back. -/
theorem packet_refines_queue_alloc :
    ∃ q, alloc.serveQueue 0 ([.write ⟨.word, 7⟩, .write ⟨.byte, 9⟩] ++
        [.read ⟨.word, 0⟩, .read ⟨.byte, 0⟩]) =
      .ok ([.done, .done] ++ [.value ⟨.word, 7⟩, .value ⟨.byte, 9⟩], q) ∧
      q.iUsingSize = 0 ∧ q.iFront = 0 ∧ q.iRear = 0 :=
  (packet_refines_queue 0 alloc settled_alloc).2.2.2 rfl [⟨.word, 7⟩, ⟨.byte, 9⟩]
    [⟨.word, 0⟩, ⟨.byte, 0⟩] rfl (by decide)

/-! ## The bounds of the payload -/

/-- The calls on a packet of the pool. -/
inductive Call where
  | queue (c : QueueCall)
  | moveWritePos (size : Nat)
  | clear

def call : Call → Except Fault CPacket
  | .queue c => (p.queueCall fuel c).map Prod.snd
  | .moveWritePos size => .ok (p.moveWritePos size)
  | .clear => .ok p.clear

/-- The positions lie within the payload and span the bytes in use. -/
structure Bounded : Prop where
  order : p.iFront ≤ p.iRear
  capacity : p.iRear ≤ p.payloadCapacity
  inUse : p.iUsingSize = p.iRear - p.iFront

/-- A call that copies nothing past the block and gives a packet within
bounds. -/
def Inside (result : Except Fault CPacket) : Prop :=
  result ≠ .error .overrun ∧ ∀ q, result = .ok q → q.Bounded

/-- The packet is within bounds, and so is each call. -/
def Stays : CPacket → List Call → Prop
  | p, [] => p.Bounded
  | p, c :: cs => p.Bounded ∧ Inside (p.call fuel c) ∧ ∀ q, p.call fuel c = .ok q → Stays q cs

/-- What the call moves the rear by fits behind it.  A write that the free size
does not hold, and that `IncreaseBufferSize` looks for room for, waits for ever and
copies nothing. -/
def Fits : Call → Prop
  | .queue c => p.iRear + c.written ≤ p.payloadCapacity ∨
      p.getFreeSize < c.written ∧ p.SeeksRoom c.asked
  | .moveWritePos size => p.iRear + min size p.getFreeSize ≤ p.payloadCapacity
  | .clear => True

/-- Each of the calls fits where it is made. -/
def AllFit : CPacket → List Call → Prop
  | _, [] => True
  | p, c :: cs => p.Fits c ∧ ∀ q, p.call fuel c = .ok q → AllFit q cs

section Bounds

variable {p} {fuel}

theorem bounded_of_rear (capacity : p.iRear ≤ p.payloadCapacity) : p.Bounded := by
  have span := p.span
  exact ⟨by omega, capacity, by omega⟩

theorem bounded_alloc : alloc.Bounded := bounded_of_rear (Nat.zero_le _)

theorem Bounded.consume (bounded : p.Bounded) {size : Nat} (h : size ≤ p.iUsingSize) :
    (p.consume size h).Bounded := by
  apply bounded_of_rear
  rw [payloadCapacity, iMaxSize_consume]
  exact Nat.le_trans (iRear_consume_le h) bounded.capacity

theorem inside_ok {q : CPacket} : Inside (.ok q) ↔ q.Bounded := by
  refine ⟨fun inside => inside.2 q rfl, fun bounded => ⟨?_, ?_⟩⟩
  · intro same
    cases same
  · intro r same
    cases same
    exact bounded

theorem inside_running : Inside (.error .running) := by
  constructor
  · intro same
    cases same
  · intro q same
    cases same

theorem not_inside_overrun : ¬ Inside (.error .overrun) := fun inside => inside.1 rfl

/-- The body of the two writes. -/
theorem inside_append (request : Nat) (bytes : List BYTE) :
    Inside (p.append fuel request bytes) ↔
      p.iRear + bytes.length ≤ p.payloadCapacity ∨
        p.getFreeSize < bytes.length ∧ p.SeeksRoom request := by
  have header := p.header_le
  have span := p.span
  have size : p.payloadCapacity + MESSAGE_HEADER_LEN = p.iMaxSize := Nat.sub_add_cancel header
  rcases Nat.lt_or_ge p.getFreeSize bytes.length with short | room
  · have past : p.payloadCapacity < p.iRear + bytes.length := by
      unfold getFreeSize at short
      omega
    by_cases seeks : p.SeeksRoom request
    · -- the loop that looks for room never ends
      rw [p.append_of_short fuel short seeks]
      exact iff_of_true inside_running (Or.inr ⟨short, seeks⟩)
    · rw [p.append_of_wrapped fuel short seeks]
      refine iff_of_false not_inside_overrun ?_
      rintro (fits | ⟨-, sought⟩)
      · omega
      · exact seeks sought
  · rcases Nat.lt_or_ge p.iMaxSize (MESSAGE_HEADER_LEN + p.iRear + bytes.length) with past | fits
    · rw [p.append_of_overrun fuel request room past]
      exact iff_of_false not_inside_overrun (by omega)
    · have capacity : p.iRear + bytes.length ≤ p.payloadCapacity := by omega
      rw [p.append_of_fits fuel request fits, inside_ok]
      exact iff_of_true (bounded_of_rear capacity) (Or.inl capacity)

theorem map_snd_map (result : Except Fault CPacket) :
    (result.map fun q => (PacketReply.done, q)).map Prod.snd = result := by
  cases result <;> rfl

theorem Bounded.readValue (bounded : p.Bounded) {w : Nat} (val : BitVec w) :
    (p.readValue val).2.Bounded := by
  rcases Nat.lt_or_ge p.iUsingSize (w / 8) with short | enough
  · rw [p.readValue_of_short val short]
    exact bounded
  · rw [p.readValue_of_le val enough]
    exact bounded.consume enough

theorem Bounded.getData (bounded : p.Bounded) (size : Nat) : (p.getData size).2.Bounded := by
  rcases Nat.lt_or_ge p.iUsingSize size with short | enough
  · rw [p.getData_of_short short]
    exact bounded
  · rw [p.getData_of_le enough]
    exact bounded.consume enough

theorem Bounded.moveReadPos (bounded : p.Bounded) (size : Nat) :
    (p.moveReadPos size).2.Bounded := by
  unfold CPacket.moveReadPos
  split
  · exact bounded
  · exact bounded.consume (Nat.min_le_right _ _)

theorem moveWritePos_move (size : Nat) :
    (p.moveWritePos size).iRear = p.iRear + min size p.getFreeSize := by
  unfold moveWritePos
  dsimp only
  split <;> omega

/-- **One call.** -/
theorem Bounded.call (bounded : p.Bounded) (c : Call) :
    Inside (p.call fuel c) ↔ p.Fits c := by
  have capacity := bounded.capacity
  cases c with
  | queue c =>
      cases c with
      | write v =>
          have spec := @inside_append p fuel (v.type.bits / 8 * 2) (bytesOf v.bits)
          rw [v.length_bytesOf] at spec
          rw [CPacket.call, queueCall, map_snd_map]
          exact spec
      | putData bytes =>
          rw [CPacket.call, queueCall, map_snd_map]
          exact inside_append bytes.length bytes
      | read v => exact iff_of_true (inside_ok.mpr (bounded.readValue v.bits)) (Or.inl capacity)
      | getData size =>
          exact iff_of_true (inside_ok.mpr (bounded.getData size)) (Or.inl capacity)
      | moveReadPos size =>
          exact iff_of_true (inside_ok.mpr (bounded.moveReadPos size)) (Or.inl capacity)
  | moveWritePos size =>
      rw [CPacket.call, inside_ok, Fits, ← moveWritePos_move]
      exact ⟨fun after => after.capacity, fun fits => bounded_of_rear fits⟩
  | clear => exact iff_of_true (inside_ok.mpr (bounded_of_rear (Nat.zero_le _))) trivial

/-- Any calls. -/
theorem Bounded.stays_iff (calls : List Call) :
    ∀ {p : CPacket}, p.Bounded → (p.Stays fuel calls ↔ p.AllFit fuel calls) := by
  induction calls with
  | nil => exact fun bounded => iff_of_true bounded trivial
  | cons c calls ih =>
      intro p bounded
      have one : Inside (p.call fuel c) ↔ p.Fits c := bounded.call c
      constructor
      · rintro ⟨-, inside, rest⟩
        refine ⟨one.mp inside, fun q called => ?_⟩
        exact (ih (inside.2 q called)).mp (rest q called)
      · rintro ⟨fits, rest⟩
        have inside := one.mpr fits
        refine ⟨bounded, inside, fun q called => ?_⟩
        exact (ih (inside.2 q called)).mpr (rest q called)

end Bounds

/-- **The bounds of the payload.**  From `Alloc` on the positions stay within
the payload, and each write inside it, exactly when every call fits behind the
rear or never gets as far as copying. -/
theorem payload_bounds (calls : List Call) :
    alloc.Stays fuel calls ↔ alloc.AllFit fuel calls :=
  bounded_alloc.stays_iff calls

/-- The free size of a new packet is that of its block, header and all: one byte
more than the payload has room for is copied past its end. -/
theorem payload_not_bounded :
    alloc.call 0 (.queue (.putData (List.replicate 508 0))) = .error .overrun ∧
    ¬ ∀ fuel calls, alloc.Stays fuel calls := by
  have past : alloc.call 0 (.queue (.putData (List.replicate 508 0))) = .error .overrun := by
    rw [call, queueCall, map_snd_map]
    apply append_of_overrun
    · rw [List.length_replicate]
      decide
    · rw [List.length_replicate]
      decide
  refine ⟨past, fun always => ?_⟩
  exact (always 0 [.queue (.putData (List.replicate 508 0))]).2.1.1 past

/-! ## Growing the block -/

/-- `IncreaseBufferSize` returns, keeps the unread payload and leaves the write
room behind the rear. -/
def Grows (c : QueueCall) : Prop :=
  ∃ fuel q, p.increaseBufferSize fuel c.asked = .ok q ∧ q.data = p.data ∧
    q.iRear + c.written ≤ q.payloadCapacity

/-- **No block grows.**  The loop that looks for the new size tests the old
capacity, which it leaves as it is, and a write that is short of room enters it;
where the sum comes round and it does not, the block stays as it was. -/
theorem never_grows (c : QueueCall) (short : p.getFreeSize < c.written) : ¬ p.Grows c := by
  intro grows
  obtain ⟨fuel, q, returned, -, room⟩ := grows
  rw [increaseBufferSize_eq] at returned
  split_ifs at returned
  cases returned
  have header := p.header_le
  have span := p.span
  unfold getFreeSize at short
  unfold payloadCapacity at room
  omega

/-- A packet of the pool and a double word more than its block. -/
theorem never_grows_alloc :
    ¬ (alloc.moveWritePos 512).Grows (.write ⟨.dword, 7⟩) :=
  never_grows (alloc.moveWritePos 512) (.write ⟨.dword, 7⟩) (by decide)

/-- One byte more than the block of a new packet: `PutData` looks for room for
ever. -/
theorem putData_never_returns :
    alloc.getFreeSize < (QueueCall.putData (List.replicate 513 0)).written ∧
    (∀ fuel, alloc.putData fuel (List.replicate 513 0) = .error .running) ∧
    ¬ alloc.Grows (.putData (List.replicate 513 0)) := by
  have short : alloc.getFreeSize < (QueueCall.putData (List.replicate 513 0)).written := by
    rw [QueueCall.written, List.length_replicate]
    decide
  have seeks : alloc.SeeksRoom 513 := alloc.seeksRoom_of_short short (by
    rw [QueueCall.written, List.length_replicate]) (by decide)
  refine ⟨short, fun fuel => alloc.append_of_short fuel short ?_, fun grows => ?_⟩
  · rw [List.length_replicate]
    exact seeks
  · obtain ⟨fuel, q, returned, -⟩ := grows
    rw [increaseBufferSize_eq, QueueCall.asked, List.length_replicate, if_pos seeks] at returned
    cases returned

end CPacket

end ChattingServer
