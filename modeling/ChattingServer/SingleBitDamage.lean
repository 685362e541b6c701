import ChattingServer.Codec
import ChattingServer.Foundation.LowBits
import Mathlib.Data.BitVec
import Mathlib.Algebra.BigOperators.Group.List.Basic

/-!
# One flipped bit

A cipher byte enters the decoding of three payload bytes, its own and the two
behind it, and the checksum sees nothing of them but their sum.  `Damage` is
what a flipped bit does to the decoded payload; `single_bit_damage` says when
`SetDecodingCode` notices.  In the flipped bit the changes of three bytes
cancel: where fewer are reached every flip is noticed, and where three are a
flip of the highest bit never is.
-/

namespace ChattingServer

namespace CPacket

/-- The bytes with bit `b` of byte `j` flipped. -/
def flipBit (bytes : List BYTE) (j b : Nat) : List BYTE :=
  bytes.modify j (· ^^^ BitVec.twoPow 8 b)

/-- The sum of byte `j` and the two behind it, as far as there are any. -/
def around (bytes : List BYTE) (j : Nat) : BYTE := ((bytes.drop j).take 3).sum

/-! ## The checksum is the sum of the bytes -/

theorem setWidth_sumChars (payload : List BYTE) : (sumChars payload).setWidth 8 = payload.sum := by
  have run : ∀ (payload : List BYTE) (checkSum : LONG),
      (payload.foldl (fun checkSum c => checkSum + promoteChar c) checkSum).setWidth 8 =
        checkSum.setWidth 8 + payload.sum := by
    intro payload
    induction payload with
    | nil => simp
    | cons c cs ih =>
        intro checkSum
        rw [List.foldl_cons, ih, BitVec.setWidth_add _ _ (by decide), setWidth_promoteChar,
          List.sum_cons, BitVec.add_assoc]
  rw [sumChars, run]
  simp

theorem decoderCheckSum_eq_sum (payload : List BYTE) : decoderCheckSum payload = payload.sum := by
  rw [decoderCheckSum, setWidth_umod, setWidth_sumChars]

theorem sum_eq_around (bytes : List BYTE) (j : Nat) :
    bytes.sum = (bytes.take j).sum + around bytes j + (bytes.drop (j + 3)).sum := by
  conv_lhs => rw [← List.take_append_drop j bytes, ← List.take_append_drop 3 (bytes.drop j),
    List.drop_drop, List.sum_append, List.sum_append]
  exact (BitVec.add_assoc _ _ _).symm

/-! ## The bytes a flipped bit reaches -/

/-- One pass of the cipher over a byte. -/
def keyed (c running key : BYTE) (i : Nat) : BYTE := c ^^^ (running + key + BitVec.ofNat 8 i + 1)

theorem decodeLoop_cons (randKey : BYTE) (i : Nat) (P_before E_n c : BYTE) (cs : List BYTE) :
    decodeLoop randKey i P_before E_n (c :: cs) =
      keyed (keyed c E_n (FIX_KEY.setWidth 8) i) P_before randKey i ::
        decodeLoop randKey (i + 1) (keyed c E_n (FIX_KEY.setWidth 8) i) c cs := by
  simp only [decodeLoop, xor_promoteChar, xor_promote, setWidth_promote, keyed]

theorem decodeLoop_append (randKey : BYTE) (i : Nat) (P_before E_n : BYTE) (pre : List BYTE) :
    ∃ P E, ∀ cs, decodeLoop randKey i P_before E_n (pre ++ cs) =
      decodeLoop randKey i P_before E_n pre ++ decodeLoop randKey (i + pre.length) P E cs := by
  induction pre generalizing i P_before E_n with
  | nil => exact ⟨P_before, E_n, fun cs => rfl⟩
  | cons c pre ih =>
      obtain ⟨P, E, split⟩ := ih (i + 1) (keyed c E_n (FIX_KEY.setWidth 8) i) c
      refine ⟨P, E, fun cs => ?_⟩
      rw [List.cons_append, decodeLoop_cons, decodeLoop_cons, split, List.cons_append,
        List.length_cons, Nat.add_right_comm, Nat.add_assoc i]

section Keyed

variable {b : Nat} {c c' running running' : BYTE} {key : BYTE} {i : Nat}

theorem keyed_byte (differs : DiffersFrom b c c') (running key : BYTE) (i : Nat) :
    DiffersFrom b (keyed c running key i) (keyed c' running key i) := by
  unfold keyed
  rw [BitVec.xor_comm c, BitVec.xor_comm c']
  exact differs.xor _

/-- A change of the running byte starts where it did, whatever it carries. -/
theorem differsFrom_key (differs : DiffersFrom b running running') (inside : b < 8) :
    DiffersFrom b (running + key + BitVec.ofNat 8 i + 1)
      (running' + key + BitVec.ofNat 8 i + 1) :=
  ((differs.add key inside).add _ inside).add 1 inside

theorem keyed_running (differs : DiffersFrom b running running') (inside : b < 8) (c key : BYTE)
    (i : Nat) :
    DiffersFrom b (keyed c running key i) (keyed c running' key i) :=
  (differsFrom_key differs inside).xor c

theorem keyed_both (byte : DiffersFrom b c c') (differs : DiffersFrom b running running')
    (inside : b < 8) (key : BYTE) (i : Nat) :
    AlikeThrough b (keyed c running key i) (keyed c' running' key i) :=
  byte.xor_differs (differsFrom_key differs inside)

end Keyed

/-- What bit `b` of cipher byte `j` does to the payload decoded from it. -/
structure Damage (b j : Nat) (damaged plain : List BYTE) : Prop where
  length : damaged.length = plain.length
  front : damaged.take j = plain.take j
  behind : damaged.drop (j + 3) = plain.drop (j + 3)
  seen : plain.length ≤ j + 2 → around damaged j ≠ around plain j
  unseen : j + 2 < plain.length → b = 7 → around damaged j = around plain j

theorem Damage.append {b j : Nat} {damaged plain : List BYTE} (damage : Damage b j damaged plain)
    (pre : List BYTE) : Damage b (pre.length + j) (pre ++ damaged) (pre ++ plain) where
  length := by rw [List.length_append, List.length_append, damage.length]
  front := by rw [List.take_length_add_append, List.take_length_add_append, damage.front]
  behind := by
    rw [Nat.add_assoc, List.drop_length_add_append, List.drop_length_add_append, damage.behind]
  seen := by
    intro few
    rw [List.length_append] at few
    rw [around, around, List.drop_length_add_append, List.drop_length_add_append]
    exact damage.seen (by omega)
  unseen := by
    intro more
    rw [List.length_append] at more
    rw [around, around, List.drop_length_add_append, List.drop_length_add_append]
    exact damage.unseen (by omega)

/-- The sum changes with that of the three bytes. -/
theorem Damage.sum_ne_iff {b j : Nat} {damaged plain : List BYTE}
    (damage : Damage b j damaged plain) :
    damaged.sum ≠ plain.sum ↔ around damaged j ≠ around plain j := by
  rw [sum_eq_around damaged j, sum_eq_around plain j, damage.front, damage.behind, ne_eq, ne_eq,
    add_left_inj, add_right_inj]

/-- The flipped byte is the first. -/
theorem damage_cons {b : Nat} (inside : b < 8) (randKey : BYTE) (i : Nat) (P_before E_n c : BYTE)
    (cs : List BYTE) :
    Damage b 0 (decodeLoop randKey i P_before E_n ((c ^^^ BitVec.twoPow 8 b) :: cs))
      (decodeLoop randKey i P_before E_n (c :: cs)) := by
  have cipher : DiffersFrom b (c ^^^ BitVec.twoPow 8 b) c := differsFrom_xor_twoPow inside
  -- the byte itself, through both passes
  have own := keyed_byte cipher E_n (FIX_KEY.setWidth 8) i
  have first := keyed_byte own P_before randKey i
  cases cs with
  | nil =>
      refine ⟨rfl, rfl, by simp [decodeLoop], fun _ => ?_, fun more => absurd more (by simp)⟩
      rw [decodeLoop_cons, decodeLoop_cons]
      simpa [around, decodeLoop] using first.ne
  | cons d cs =>
      -- the byte behind it is reached by both passes at once
      have next := keyed_running cipher inside d (FIX_KEY.setWidth 8) (i + 1)
      have second := keyed_both next own inside randKey (i + 1)
      cases cs with
      | nil =>
          refine ⟨rfl, rfl, rfl, fun _ => ?_, fun more => absurd more (by simp)⟩
          rw [decodeLoop_cons, decodeLoop_cons, decodeLoop_cons, decodeLoop_cons]
          simpa [around, decodeLoop] using first.add_ne second inside
      | cons e cs =>
          -- the one behind that by the second pass alone
          have third := keyed_running next inside (keyed e d (FIX_KEY.setWidth 8) (i + 1 + 1))
            randKey (i + 1 + 1)
          refine ⟨by simp, rfl, ?_, fun few => absurd few (by simp), ?_⟩
          · simp only [decodeLoop_cons, Nat.zero_add, List.drop_succ_cons, List.drop_zero]
          · intro _ top
            subst top
            have same := second
            rw [AlikeThrough, BitVec.setWidth_eq, BitVec.setWidth_eq] at same
            have cancel := first.add_eq third
            simp only [decodeLoop_cons, around, List.drop_zero, List.take_succ_cons, List.take_zero,
              List.sum_cons, List.sum_nil]
            rw [same, add_left_comm, ← add_assoc _ _ (0 : BYTE), cancel]
            exact (congrArg _ (add_assoc _ _ _)).trans (add_left_comm _ _ _)

/-- A flipped bit of a cipher text. -/
theorem damage_flipBit {b j : Nat} (inside : b < 8) (randKey : BYTE) {cipher : List BYTE}
    (position : j < cipher.length) :
    Damage b j (decodeLoop randKey 0 0 0 (flipBit cipher j b))
      (decodeLoop randKey 0 0 0 cipher) := by
  have flipped : flipBit cipher j b =
      cipher.take j ++ (cipher[j] ^^^ BitVec.twoPow 8 b) :: cipher.drop (j + 1) := by
    unfold flipBit List.modify
    rw [List.modifyTailIdx_eq_take_drop _ rfl, List.drop_eq_getElem_cons position]
    rfl
  have whole : cipher = cipher.take j ++ cipher[j] :: cipher.drop (j + 1) := by
    rw [← List.drop_eq_getElem_cons position, List.take_append_drop]
  have length : (decodeLoop randKey 0 0 0 (cipher.take j)).length = j := by
    rw [length_decodeLoop, List.length_take, Nat.min_eq_left (Nat.le_of_lt position)]
  obtain ⟨P, E, split⟩ := decodeLoop_append randKey 0 0 0 (cipher.take j)
  have damage := (damage_cons inside randKey (0 + (cipher.take j).length) P E cipher[j]
    (cipher.drop (j + 1))).append (decodeLoop randKey 0 0 0 (cipher.take j))
  rw [← split, ← split, ← flipped, ← whole, length] at damage
  exact damage

theorem length_flipBit (bytes : List BYTE) (j b : Nat) :
    (flipBit bytes j b).length = bytes.length :=
  List.length_modify _ _ _

/-- The verdict on a damaged payload, and the payload it leaves. -/
theorem setDecodingCode_damaged {r : CPacket} (randKey : BYTE) (payload : List BYTE)
    {cipher : List BYTE} (empty : r.iUsingSize = 0) (front : r.iFront = 0)
    (fits : cipher.length ≤ r.iMaxSize) :
    let received := (r.place (encodedHeader randKey payload).bytes cipher).setDecodingCode
    received.2.data = decodeLoop randKey 0 0 0 cipher ∧
      (received.1 = false ↔ (decodeLoop randKey 0 0 0 cipher).sum ≠ payload.sum) := by
  intro received
  have decoded := setDecodingCode_place (h := encodedHeader randKey payload) empty fits rfl
  have key : (encodedHeader randKey payload).randKey = randKey := rfl
  rw [key] at decoded
  rw [show received = _ from decoded]
  constructor
  · have size := iUsingSize_place (encodedHeader randKey payload).bytes empty fits
    have length : (decodeLoop randKey 0 0 0 cipher).length = cipher.length := by simp
    show (Memory.write _ MESSAGE_HEADER_LEN _).read (MESSAGE_HEADER_LEN + r.iFront)
      ((r.place _ _).iUsingSize) = _
    rw [size, front, Nat.add_zero, Memory.read_write_of_length length]
  · have checkSum : (encodedHeader randKey payload).checkSum = payload.sum := by
      rw [← decoderCheckSum_eq_sum, decoderCheckSum_eq]
      rfl
    show ((encodedHeader randKey payload).checkSum == decoderCheckSum
      (decodeLoop randKey 0 0 0 cipher)) = false ↔ _
    rw [checkSum, decoderCheckSum_eq_sum, beq_eq_false_iff_ne]
    exact ne_comm

/-- **One flipped bit.**  Of a payload that is encoded, damaged in one bit of
its cipher text and put in an empty packet, no byte is decoded wrongly but the
damaged one and the two behind it.  `SetDecodingCode` returns `FALSE` exactly
when these no longer have their sum: always when fewer than two bytes are
behind the damaged one, and never when there are and the bit is the highest. -/
theorem single_bit_damage (p r : CPacket) (randKey : BYTE) (plain : p.bIsEncoded = false)
    (start : p.iFront = 0) (size : p.iUsingSize ≤ 65535) (empty : r.iUsingSize = 0)
    (front : r.iFront = 0) (fits : MESSAGE_HEADER_LEN + p.iUsingSize ≤ r.iMaxSize)
    {j : Nat} (position : j < p.iUsingSize) (b : Fin 8) :
    let sent := p.setEncodingCode randKey
    let received := (r.place sent.headerBytes (flipBit sent.bufferBytes j b)).setDecodingCode
    (received.2.data.take j = p.data.take j ∧
      received.2.data.drop (j + 3) = p.data.drop (j + 3)) ∧
    (received.1 = false ↔ around received.2.data j ≠ around p.data j) ∧
    (p.iUsingSize ≤ j + 2 → received.1 = false) ∧
    (j + 2 < p.iUsingSize → b = 7 → received.1 = true) := by
  have short : p.iUsingSize < 2 ^ 16 := by omega
  have length : p.data.length = p.iUsingSize := p.length_data
  have inside : j < (encodeLoop randKey 0 0 0 p.data).length := by simpa using position
  have damage := damage_flipBit b.isLt randKey inside
  have room : (flipBit (encodeLoop randKey 0 0 0 p.data) j b).length ≤ r.iMaxSize := by
    rw [length_flipBit, length_encodeLoop, length]
    omega
  obtain ⟨data, verdict⟩ :=
    setDecodingCode_damaged randKey p.data empty front room
  rw [decodeLoop_encodeLoop] at damage
  have header := @headerBytes_setEncodingCode p randKey plain short
  have cipher := @bufferBytes_setEncodingCode p randKey plain short
  rw [bufferBytes_eq_data p start] at header cipher
  dsimp only
  rw [header, cipher, data]
  rw [damage.sum_ne_iff] at verdict
  refine ⟨⟨damage.front, damage.behind⟩, verdict, ?_, ?_⟩
  · intro few
    exact verdict.mpr (damage.seen (by omega))
  · intro more top
    rw [← Bool.not_eq_false, verdict, not_not]
    exact damage.unseen (by omega) (by rw [top]; rfl)

/-- The last byte of three, in its lowest bit. -/
theorem single_bit_damage_last :
    let sent := (alloc.extend [1, 2, 3] (by decide)).setEncodingCode 5
    (alloc.place sent.headerBytes (flipBit sent.bufferBytes 2 (0 : Fin 8))).setDecodingCode.1 =
      false :=
  (single_bit_damage (alloc.extend [1, 2, 3] (by decide)) alloc 5 rfl rfl (by decide) rfl rfl
    (by decide) (j := 2) (by decide) 0).2.2.1 (by decide)

/-- The first byte of three, in its highest bit: accepted. -/
theorem single_bit_unseen :
    let sent := (alloc.extend [1, 2, 3] (by decide)).setEncodingCode 5
    let received := (alloc.place sent.headerBytes (flipBit sent.bufferBytes 0 7)).setDecodingCode
    received.1 = true ∧ received.2.data ≠ [1, 2, 3] := by
  decide

end CPacket

end ChattingServer
