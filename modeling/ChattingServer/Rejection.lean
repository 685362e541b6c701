import ChattingServer.Receive
import ChattingServer.ChatServer

/-!
# What follows a rejected frame

`RecvComplete` reads bytes until no frame is complete.  A header or checksum it
does not accept ends it, and no receive is posted again; a frame that `RecvProc`
turns down marks the session and leaves the loop running.  A complete frame of
more than 507 bytes is copied past the end of its packet, whoever has been turned
down before, and nothing can be said of the process from there on.  So a session
takes no part in anything after a rejection exactly when no frame is that long
and none that is turned down has another acceptable one behind it in the ring
(`silent_iff_refusesLast`); and the effects of such a stream do not depend on how
it is cut.
-/

namespace ChattingServer

open CPacket

/-- What `RecvComplete` sees at the front of the ring: too little, what it does
not accept, a frame that it copies past the end of its packet, or one that it
hands on. -/
inductive Front where
  | part
  | bad
  | overrun
  | frame (packet : CPacket) (rest : List BYTE)

namespace Front

/-- The header that some bytes start with. -/
def header (bytes : List BYTE) : PacketHeader :=
  PacketHeader.at (Memory.write (fun _ => 0) 0 (bytes.take MESSAGE_HEADER_LEN))

/-- The bytes that a header announces. -/
def payload (bytes : List BYTE) : List BYTE :=
  (bytes.drop MESSAGE_HEADER_LEN).take (header bytes).len.toNat

/-- The packet before it is decoded. -/
def filled (bytes : List BYTE) : CPacket :=
  ((CPacket.alloc.clear.setMessageHeader (header bytes).bytes).fillBuffer
    (payload bytes)).moveWritePos (header bytes).len.toNat

def of (bytes : List BYTE) : Front :=
  if MESSAGE_HEADER_LEN > bytes.length then .part
  else if (header bytes).code ≠ PACKET_CODE then .bad
  else if (header bytes).len = 0 then .bad
  else if MESSAGE_HEADER_LEN + (header bytes).len.toNat > bytes.length then .part
  else if (payload bytes).length > 507 then .overrun
  else if (filled bytes).setDecodingCode.1 = false then .bad
  else .frame (filled bytes).setDecodingCode.2
    (bytes.drop (MESSAGE_HEADER_LEN + (header bytes).len.toNat))

/-- More bytes change nothing about a front that is complete. -/
theorem of_append {bytes : List BYTE} (more : List BYTE) (complete : of bytes ≠ .part) :
    of (bytes ++ more) = match of bytes with
      | .frame packet rest => .frame packet (rest ++ more)
      | front => front := by
  have enough : ¬ MESSAGE_HEADER_LEN > bytes.length := fun short => complete (if_pos short)
  have long : ¬ MESSAGE_HEADER_LEN > (bytes ++ more).length := by
    rw [List.length_append]
    omega
  have same : header (bytes ++ more) = header bytes := by
    rw [header, List.take_append_of_le_length (Nat.le_of_not_lt enough), header]
  unfold of at complete ⊢
  rw [if_neg enough] at complete ⊢
  rw [if_neg long, same]
  by_cases code : (header bytes).code ≠ PACKET_CODE
  · rw [if_pos code, if_pos code]
  · rw [if_neg code] at complete ⊢
    rw [if_neg code]
    by_cases empty : (header bytes).len = 0
    · rw [if_pos empty, if_pos empty]
    · rw [if_neg empty] at complete ⊢
      rw [if_neg empty]
      have whole : ¬ MESSAGE_HEADER_LEN + (header bytes).len.toNat > bytes.length :=
        fun short => complete (if_pos short)
      have whole' : ¬ MESSAGE_HEADER_LEN + (header bytes).len.toNat > (bytes ++ more).length := by
        rw [List.length_append]
        omega
      have payload' : payload (bytes ++ more) = payload bytes := by
        rw [payload, payload, same, List.drop_append_of_le_length (Nat.le_of_not_lt enough),
          List.take_append_of_le_length (by rw [List.length_drop]; omega)]
      have filled' : filled (bytes ++ more) = filled bytes := by
        rw [filled, same, payload', filled]
      rw [if_neg whole, if_neg whole', payload', filled',
        List.drop_append_of_le_length (Nat.le_of_not_lt whole)]
      split_ifs <;> rfl

theorem rest_lt {bytes rest : List BYTE} {packet : CPacket}
    (front : of bytes = .frame packet rest) : rest.length < bytes.length := by
  unfold of at front
  split_ifs at front with short
  cases front
  rw [List.length_drop]
  unfold MESSAGE_HEADER_LEN at *
  omega

end Front

/-! ## Rounds -/

namespace Receiver

variable {σ : Type} (recvProc : σ → CPacket → Bool × σ) (s : Receiver σ)

@[simp] theorem app_takeFrame : s.takeFrame.app = s.app := by
  rw [takeFrame]

@[simp] theorem posted_takeFrame : s.takeFrame.posted = s.posted := by
  rw [takeFrame]

@[simp] theorem received_takeFrame : s.takeFrame.received = s.received := by
  rw [takeFrame]

@[simp] theorem isReleased_takeFrame : s.takeFrame.isReleased = s.isReleased := by
  rw [takeFrame]

@[simp] theorem overrun_takeFrame : s.takeFrame.overrun = s.overrun := by
  rw [takeFrame]

@[simp] theorem app_onRecv (packet : CPacket) :
    (s.onRecv recvProc packet).app = (recvProc s.app packet).2 := by
  simp only [onRecv]
  split <;> rfl

@[simp] theorem posted_onRecv (packet : CPacket) :
    (s.onRecv recvProc packet).posted = s.posted := by
  simp only [onRecv]
  split <;> rfl

@[simp] theorem received_onRecv (packet : CPacket) :
    (s.onRecv recvProc packet).received = s.received ++ [packet.data] := by
  simp only [onRecv]
  split <;> rfl

@[simp] theorem overrun_onRecv (packet : CPacket) :
    (s.onRecv recvProc packet).overrun = s.overrun := by
  simp only [onRecv]
  split <;> rfl

/-- The verdict of `RecvProc` decides whether the session is disconnected. -/
theorem isReleased_onRecv (packet : CPacket) :
    (s.onRecv recvProc packet).isReleased = (s.isReleased || !(recvProc s.app packet).1) := by
  simp only [onRecv]
  split
  · rename_i accepted
    rw [accepted, Bool.not_true, Bool.or_false]
  · rename_i refused
    rw [eq_false_of_ne_true refused, Bool.not_false, Bool.or_true]
    rfl

/-- What the ring starts with. -/
def front : Front := .of s.recvBuf.content

theorem peekHeader_eq : s.peekHeader = Front.header s.recvBuf.content := by
  rw [peekHeader, CRingBuffer.peek_eq, Front.header]

theorem takeCopy_eq : s.takeCopy.header = Front.header s.recvBuf.content ∧
    s.takeCopy.bytes = Front.payload s.recvBuf.content ∧
    s.takeCopy.filled = Front.filled s.recvBuf.content := by
  have header := s.peekHeader_eq
  have bytes : s.takeCopy.bytes = Front.payload s.recvBuf.content := by
    rw [bytes_takeCopy, header, Front.payload]
  refine ⟨header, bytes, ?_⟩
  show ((CPacket.alloc.clear.setMessageHeader s.peekHeader.bytes).fillBuffer
    s.takeCopy.bytes).moveWritePos s.peekHeader.len.toNat = _
  rw [bytes, header, Front.filled]

/-- **A round**, by what the ring starts with. -/
theorem recvRound_eq_of_front :
    match s.front with
    | .part => s.recvRound recvProc = (false, s.leaveLoop)
    | .bad => ∃ r : Receiver σ, s.recvRound recvProc = (false, r.disConnect) ∧ r.app = s.app ∧
        r.posted = s.posted ∧ r.received = s.received ∧ r.overrun = s.overrun
    | .overrun => s.recvRound recvProc = (false, { s.takeFrame with overrun := true })
    | .frame packet rest => s.recvRound recvProc = (true, s.takeFrame.onRecv recvProc packet) ∧
        s.takeFrame.recvBuf.content = rest := by
  obtain ⟨header, bytes, filled⟩ := s.takeCopy_eq
  have capacity : s.takeCopy.packet.payloadCapacity = 507 := rfl
  have peek := s.peekHeader_eq
  have taken := s.content_takeFrame
  unfold front Front.of recvRound
  dsimp only
  rw [capacity, bytes, filled, peek]
  rw [peek] at taken
  by_cases short : MESSAGE_HEADER_LEN > s.recvBuf.getUseSize
  · rw [CRingBuffer.length_content, if_pos short, if_pos short]
  rw [CRingBuffer.length_content, if_neg short, if_neg short]
  by_cases code : (Front.header s.recvBuf.content).code ≠ PACKET_CODE
  · rw [if_pos code, if_pos code]
    exact ⟨s, rfl, rfl, rfl, rfl, rfl⟩
  rw [if_neg code, if_neg code]
  by_cases empty : (Front.header s.recvBuf.content).len = 0
  · rw [if_pos empty, if_pos empty]
    exact ⟨s, rfl, rfl, rfl, rfl, rfl⟩
  rw [if_neg empty, if_neg empty]
  by_cases part : MESSAGE_HEADER_LEN + (Front.header s.recvBuf.content).len.toNat >
      s.recvBuf.getUseSize
  · rw [if_pos part, if_pos part]
  rw [if_neg part, if_neg part]
  have whole : (Front.payload s.recvBuf.content).length =
      (Front.header s.recvBuf.content).len.toNat := by
    rw [Front.payload, List.length_take, List.length_drop, CRingBuffer.length_content]
    omega
  by_cases full : (Front.payload s.recvBuf.content).length > 507
  · rw [if_pos full, if_pos full]
  rw [if_neg full, if_neg full, if_neg (not_not.mpr whole.symm)]
  by_cases decoded : (Front.filled s.recvBuf.content).setDecodingCode.1 = false
  · rw [if_pos decoded, if_pos decoded]
    exact ⟨s.takeFrame, rfl, s.app_takeFrame, s.posted_takeFrame, s.received_takeFrame,
      s.overrun_takeFrame⟩
  · rw [if_neg decoded, if_neg decoded]
    exact ⟨rfl, taken⟩

/-- `RecvComplete` finds a frame it accepts. -/
def delivers : Bool :=
  match s.front with
  | .frame _ _ => true
  | _ => false

/-- `RecvComplete` finds a frame that it copies past the end of its packet. -/
def overlong : Bool :=
  match s.front with
  | .overrun => true
  | _ => false

/-- `RecvProc` turns the frame down. -/
def refuses : Bool :=
  match s.front with
  | .frame packet _ => !(recvProc s.app packet).1
  | _ => false

/-- The session with the bytes of a completion claimed. -/
def claim (bytes : List BYTE) : Receiver σ :=
  { s with posted := false, recvBuf := (s.recvBuf.fill bytes).moveRear bytes.length }

/-- What the rounds of the loop start from. -/
def loopRounds : Nat → Receiver σ → List (Receiver σ)
  | 0, _ => []
  | fuel + 1, s =>
      s :: match s.recvRound recvProc with
        | (true, s) => loopRounds fuel s
        | (false, _) => []

/-- What the rounds of the completions start from. -/
def rounds : Receiver σ → List (List BYTE) → List (Receiver σ)
  | _, [] => []
  | s, bytes :: rest =>
      if s.posted then
        (if bytes.length = 0 then []
          else loopRounds recvProc ((s.claim bytes).recvBuf.getUseSize + 1) (s.claim bytes)) ++
        rounds (s.completion recvProc bytes) rest
      else []

/-- The round writes nothing behind a packet, from where on the process might do
anything, and hands no frame of a disconnected session to `OnRecv`. -/
def Quiet : Prop :=
  (s.recvRound recvProc).2.overrun = false ∧
    (s.isReleased = true → (s.recvRound recvProc).2.received = s.received)

def Silent (chunks : List (List BYTE)) : Prop :=
  ∀ r ∈ s.rounds recvProc chunks, r.Quiet recvProc

/-- What is at the front of the ring is not overlong, and if `RecvProc` turns it
down there is no other frame behind it that `RecvComplete` accepts. -/
def Final : Prop :=
  s.overlong = false ∧ (s.refuses recvProc = true → s.takeFrame.delivers = false)

def RefusesLast (chunks : List (List BYTE)) : Prop :=
  ∀ r ∈ s.rounds recvProc chunks, r.Final recvProc

section Rounds

variable {recvProc : σ → CPacket → Bool × σ} {s : Receiver σ}

/-- A round that hands nothing on ends the loop. -/
theorem recvRound_of_not_delivers (none : s.delivers = false) :
    (s.recvRound recvProc).1 = false ∧ (s.recvRound recvProc).2.app = s.app ∧
      (s.recvRound recvProc).2.received = s.received ∧
      (s.recvRound recvProc).2.overrun = (s.overrun || s.overlong) ∧
      (s.isReleased = true → (s.recvRound recvProc).2.posted = s.posted) := by
  have round := s.recvRound_eq_of_front recvProc
  unfold delivers at none
  unfold overlong
  cases front : s.front with
  | part =>
      rw [front] at round
      rw [round]
      dsimp only
      rw [Bool.or_false]
      cases live : s.isReleased with
      | true =>
          rw [leaveLoop, if_pos live]
          exact ⟨rfl, rfl, rfl, rfl, fun _ => rfl⟩
      | false =>
          rw [leaveLoop_of_live live]
          exact ⟨rfl, rfl, rfl, rfl, fun gone => absurd gone Bool.false_ne_true⟩
  | bad =>
      rw [front] at round
      obtain ⟨r, round, app, posted, received, overrun⟩ := round
      rw [round]
      dsimp only
      rw [Bool.or_false]
      exact ⟨rfl, app, received, overrun, fun _ => posted⟩
  | overrun =>
      rw [front] at round
      rw [round]
      dsimp only
      rw [Bool.or_true]
      exact ⟨rfl, s.app_takeFrame, s.received_takeFrame, rfl, fun _ => s.posted_takeFrame⟩
  | frame packet rest =>
      rw [front] at none
      cases none

/-- A round that hands nothing on is quiet unless it writes behind a packet. -/
theorem quiet_iff_of_not_delivers (sound : s.overrun = false)
    (none : s.delivers = false) :
    s.Quiet recvProc ↔ s.overlong = false := by
  obtain ⟨-, -, received, overrun, -⟩ := @recvRound_of_not_delivers _ recvProc _ none
  rw [sound, Bool.false_or] at overrun
  rw [Quiet, overrun]
  exact and_iff_left fun _ => received

theorem loopRounds_of_not_delivers {fuel : Nat} (none : s.delivers = false) :
    s.loopRounds recvProc (fuel + 1) = [s] := by
  obtain ⟨stops, -⟩ := @recvRound_of_not_delivers _ recvProc _ none
  rw [loopRounds]
  split
  · rename_i next round
    rw [round] at stops
    cases stops
  · rfl

theorem refuses_of_not_delivers (none : s.delivers = false) : s.refuses recvProc = false := by
  unfold delivers at none
  unfold refuses
  cases front : s.front with
  | frame packet rest =>
      rw [front] at none
      cases none
  | _ => rfl

theorem final_iff_of_not_delivers (none : s.delivers = false) :
    s.Final recvProc ↔ s.overlong = false := by
  rw [Final, refuses_of_not_delivers none]
  exact and_iff_left nofun

theorem exists_frame (delivers : s.delivers = true) : ∃ packet rest,
    s.front = .frame packet rest := by
  unfold Receiver.delivers at delivers
  cases front : s.front with
  | frame packet rest => exact ⟨packet, rest, rfl⟩
  | _ =>
      rw [front] at delivers
      cases delivers

/-- A round that hands a frame on, and what the next one starts from. -/
theorem loopRounds_of_frame {packet : CPacket} {rest : List BYTE} (fuel : Nat)
    (front : s.front = .frame packet rest) :
    s.loopRounds recvProc (fuel + 1) =
      s :: loopRounds recvProc fuel (s.takeFrame.onRecv recvProc packet) := by
  have round := s.recvRound_eq_of_front recvProc
  rw [front] at round
  rw [loopRounds, round.1]

theorem getUseSize_takeFrame_lt {packet : CPacket} {rest : List BYTE}
    (front : s.front = .frame packet rest) :
    (s.takeFrame.onRecv recvProc packet).recvBuf.getUseSize < s.recvBuf.getUseSize := by
  have round := s.recvRound_eq_of_front recvProc
  rw [front] at round
  rw [recvBuf_onRecv, ← CRingBuffer.length_content, ← CRingBuffer.length_content, round.2]
  exact Front.rest_lt front

theorem delivers_onRecv (packet : CPacket) :
    (s.onRecv recvProc packet).delivers = s.delivers := by
  unfold delivers front
  rw [recvBuf_onRecv]

theorem received_onRecv_ne (packet : CPacket) :
    (s.takeFrame.onRecv recvProc packet).received ≠ s.received := by
  rw [received_onRecv, received_takeFrame]
  intro same
  have length := congrArg List.length same
  rw [List.length_append, List.length_singleton] at length
  omega

/-- A round that hands a frame on is quiet while the session is not
disconnected. -/
theorem quiet_iff_of_frame {packet : CPacket} {rest : List BYTE} (sound : s.overrun = false)
    (front : s.front = .frame packet rest) : s.Quiet recvProc ↔ s.isReleased = false := by
  have round := s.recvRound_eq_of_front recvProc
  rw [front] at round
  rw [Quiet, round.1, overrun_onRecv, overrun_takeFrame, sound, and_iff_right rfl]
  cases s.isReleased with
  | false => exact iff_of_true nofun rfl
  | true => exact iff_of_false (fun same => received_onRecv_ne packet (same rfl)) nofun

theorem final_iff_of_frame {packet : CPacket} {rest : List BYTE}
    (front : s.front = .frame packet rest) :
    s.Final recvProc ↔ ((recvProc s.app packet).1 = false → s.takeFrame.delivers = false) := by
  rw [Final, overlong, refuses, front, and_iff_right rfl, Bool.not_eq_true']

/-- One loop of a session that is not disconnected. -/
theorem loop_silent_iff : ∀ {fuel : Nat} {s : Receiver σ}, s.recvBuf.getUseSize < fuel → s.Open →
    ((∀ r ∈ s.loopRounds recvProc fuel, r.Quiet recvProc) ↔
      ∀ r ∈ s.loopRounds recvProc fuel, r.Final recvProc)
  | fuel + 1, s, enough, ⟨live, sound⟩ => by
      cases delivers : s.delivers with
      | false =>
          rw [loopRounds_of_not_delivers delivers, List.forall_mem_singleton,
            List.forall_mem_singleton, quiet_iff_of_not_delivers sound delivers,
            final_iff_of_not_delivers delivers]
      | true =>
          obtain ⟨packet, rest, front⟩ := exists_frame delivers
          have less := @getUseSize_takeFrame_lt _ recvProc _ _ _ front
          rw [loopRounds_of_frame fuel front, List.forall_mem_cons, List.forall_mem_cons,
            quiet_iff_of_frame sound front, final_iff_of_frame front, and_iff_right live]
          have released : (s.takeFrame.onRecv recvProc packet).isReleased =
              !(recvProc s.app packet).1 := by
            rw [isReleased_onRecv, isReleased_takeFrame, app_takeFrame, live, Bool.false_or]
          have sound' : (s.takeFrame.onRecv recvProc packet).overrun = false := by
            rw [overrun_onRecv, overrun_takeFrame, sound]
          have same := @delivers_onRecv _ recvProc s.takeFrame packet
          cases verdict : (recvProc s.app packet).1 with
          | true =>
              rw [verdict] at released
              rw [loop_silent_iff (by omega) ⟨released, sound'⟩]
              exact (and_iff_right nofun).symm
          | false =>
              -- the session is disconnected, and the loop goes on
              rw [verdict] at released
              obtain ⟨fuel, rfl⟩ : ∃ k, fuel = k + 1 := Nat.exists_eq_succ_of_ne_zero (by omega)
              rw [← same]
              cases next : (s.takeFrame.onRecv recvProc packet).delivers with
              | false =>
                  rw [loopRounds_of_not_delivers next, List.forall_mem_singleton,
                    List.forall_mem_singleton, quiet_iff_of_not_delivers sound' next,
                    final_iff_of_not_delivers next]
                  exact (and_iff_right fun _ => rfl).symm
              | true =>
                  obtain ⟨packet', rest', front'⟩ := exists_frame next
                  refine iff_of_false (fun silent => ?_) fun last => absurd (last.1 rfl) nofun
                  have handed := silent _ (by
                    rw [loopRounds_of_frame fuel front']
                    exact List.mem_cons_self)
                  have alive := (quiet_iff_of_frame sound' front').mp handed
                  exact Bool.false_ne_true (alive.symm.trans released)

/-- A loop leaves a receive posted only if nothing has gone wrong. -/
theorem open_of_recvLoop : ∀ {fuel : Nat} {s s' : Receiver σ}, s.posted = false →
    s.overrun = false → s.recvLoop recvProc fuel = some s' → s'.posted = true → s'.Open
  | fuel + 1, s, s', idle, sound, run, posted => by
      have round := s.recvRound_eq_of_front recvProc
      rw [recvLoop] at run
      cases front : s.front with
      | part =>
          rw [front] at round
          rw [round] at run
          cases run
          unfold leaveLoop postRecv at posted ⊢
          split
          · rename_i released
            rw [if_pos released, idle] at posted
            cases posted
          · rename_i live
            exact ⟨eq_false_of_ne_true live, sound⟩
      | bad =>
          rw [front] at round
          obtain ⟨r, round, -, same, -⟩ := round
          rw [round] at run
          cases run
          rw [show r.disConnect.posted = r.posted from rfl, same, idle] at posted
          cases posted
      | overrun =>
          rw [front] at round
          rw [round] at run
          obtain rfl := Option.some.inj run
          dsimp only at posted
          rw [posted_takeFrame, idle] at posted
          cases posted
      | frame packet rest =>
          rw [front] at round
          rw [round.1] at run
          have idle' : (s.takeFrame.onRecv recvProc packet).posted = false := by
            rw [posted_onRecv, posted_takeFrame, idle]
          have sound' : (s.takeFrame.onRecv recvProc packet).overrun = false := by
            rw [overrun_onRecv, overrun_takeFrame, sound]
          exact open_of_recvLoop idle' sound' run posted

theorem completion_of_claim {bytes : List BYTE} (nonempty : bytes.length ≠ 0) :
    (s.claim bytes).recvLoop recvProc ((s.claim bytes).recvBuf.getUseSize + 1) =
      some (s.completion recvProc bytes) := by
  unfold completion recvComplete
  rw [if_neg nonempty]
  exact (Option.some_get _).symm

theorem open_of_completion {bytes : List BYTE} (sound : s.overrun = false)
    (posted : (s.completion recvProc bytes).posted = true) :
    (s.completion recvProc bytes).Open := by
  by_cases none : bytes.length = 0
  · unfold completion recvComplete at posted
    rw [if_pos none] at posted
    cases posted
  · exact open_of_recvLoop (s := s.claim bytes) rfl sound (completion_of_claim none) posted

/-- A run of a session that receives only while nothing has gone wrong. -/
theorem silent_iff_refusesLast (chunks : List (List BYTE)) :
    ∀ {s : Receiver σ}, (s.posted = true → s.Open) →
      (s.Silent recvProc chunks ↔ s.RefusesLast recvProc chunks) := by
  induction chunks with
  | nil => exact fun _ => iff_of_true nofun nofun
  | cons bytes rest ih =>
      intro s isOpen
      unfold Silent RefusesLast
      rw [rounds]
      split
      · rename_i posted
        have here := isOpen posted
        rw [List.forall_mem_append, List.forall_mem_append]
        refine and_congr ?_ (ih (open_of_completion here.sound))
        split
        · exact iff_of_true nofun nofun
        · exact loop_silent_iff (s := s.claim bytes) (Nat.lt_succ_self _) ⟨here.live, here.sound⟩
      · exact iff_of_true nofun nofun

end Rounds

end Receiver

/-! ## Effects -/

section Effects

variable {σ : Type} (recvProc : σ → CPacket → Bool × σ)

/-- What comes of some bytes when the first rejection ends everything: the
state then, and the bytes kept by a session that goes on. -/
inductive Processes : σ → List BYTE → σ → Option (List BYTE) → Prop
  | part {app : σ} {bytes : List BYTE} (front : Front.of bytes = .part) :
      Processes app bytes app (some bytes)
  | rejected {app : σ} {bytes : List BYTE} (front : Front.of bytes = .bad) :
      Processes app bytes app none
  | refused {app : σ} {bytes rest : List BYTE} {packet : CPacket}
      (front : Front.of bytes = .frame packet rest) (refuses : (recvProc app packet).1 = false) :
      Processes app bytes (recvProc app packet).2 none
  | accepted {app app' : σ} {bytes rest : List BYTE} {kept : Option (List BYTE)} {packet : CPacket}
      (front : Front.of bytes = .frame packet rest) (accepts : (recvProc app packet).1 = true)
      (later : Processes (recvProc app packet).2 rest app' kept) : Processes app bytes app' kept

variable {recvProc} {app app' app'' : σ} {bytes more kept : List BYTE}
  {result result' : Option (List BYTE)}

theorem Processes.deterministic (first : Processes recvProc app bytes app' result) :
    ∀ {app'' result'}, Processes recvProc app bytes app'' result' →
      app'' = app' ∧ result' = result := by
  induction first with
  | part front =>
      intro app'' result' second
      cases second with
      | part _ => exact ⟨rfl, rfl⟩
      | rejected front' => cases front.symm.trans front'
      | refused front' _ => cases front.symm.trans front'
      | accepted front' _ _ => cases front.symm.trans front'
  | rejected front =>
      intro app'' result' second
      cases second with
      | part front' => cases front.symm.trans front'
      | rejected _ => exact ⟨rfl, rfl⟩
      | refused front' _ => cases front.symm.trans front'
      | accepted front' _ _ => cases front.symm.trans front'
  | refused front refuses =>
      intro app'' result' second
      cases second with
      | part front' => cases front.symm.trans front'
      | rejected front' => cases front.symm.trans front'
      | refused front' _ =>
          cases front.symm.trans front'
          exact ⟨rfl, rfl⟩
      | accepted front' accepts _ =>
          cases front.symm.trans front'
          cases refuses.symm.trans accepts
  | accepted front accepts _ ih =>
      intro app'' result' second
      cases second with
      | part front' => cases front.symm.trans front'
      | rejected front' => cases front.symm.trans front'
      | refused front' refuses =>
          cases front.symm.trans front'
          cases refuses.symm.trans accepts
      | accepted front' _ later =>
          cases front.symm.trans front'
          exact ih later

theorem Front.of_append_frame {rest : List BYTE} {packet : CPacket}
    (front : Front.of bytes = .frame packet rest) :
    Front.of (bytes ++ more) = .frame packet (rest ++ more) := by
  have complete : Front.of bytes ≠ .part := by
    rw [front]
    nofun
  have same := Front.of_append more complete
  rw [front] at same
  exact same

/-- What comes behind a rejection makes no difference. -/
theorem Processes.append_none (first : Processes recvProc app bytes app' result)
    (ended : result = none) : Processes recvProc app (bytes ++ more) app' none := by
  induction first with
  | part _ => cases ended
  | rejected front =>
      have same := Front.of_append more (by rw [front]; nofun)
      rw [front] at same
      exact .rejected same
  | refused front refuses => exact .refused (Front.of_append_frame front) refuses
  | accepted front accepts _ ih => exact .accepted (Front.of_append_frame front) accepts (ih ended)

/-- More bytes are processed with those that were kept. -/
theorem Processes.append_some (first : Processes recvProc app bytes app' result)
    (goes : result = some kept) (second : Processes recvProc app' (kept ++ more) app'' result') :
    Processes recvProc app (bytes ++ more) app'' result' := by
  induction first with
  | part _ =>
      cases goes
      exact second
  | rejected _ => cases goes
  | refused _ _ => cases goes
  | accepted front accepts _ ih =>
      exact .accepted (Front.of_append_frame front) accepts (ih goes second)

/-- The bytes kept are a part of a frame. -/
theorem Processes.front_kept (first : Processes recvProc app bytes app' result)
    (goes : result = some kept) : Front.of kept = .part := by
  induction first with
  | part front =>
      cases goes
      exact front
  | rejected _ => cases goes
  | refused _ _ => cases goes
  | accepted _ _ _ ih => exact ih goes

end Effects

namespace Receiver

variable {σ : Type} {recvProc : σ → CPacket → Bool × σ}

/-- The session goes on with the bytes kept, or no receive is posted. -/
def Keeps (s : Receiver σ) : Option (List BYTE) → Prop
  | some kept => s.posted = true ∧ s.recvBuf.content = kept
  | none => s.posted = false

/-- A loop of a session that is not disconnected. -/
theorem processes_loop : ∀ {fuel : Nat} {s s' : Receiver σ}, s.isReleased = false →
    s.posted = false → s.recvLoop recvProc fuel = some s' →
    (∀ r ∈ s.loopRounds recvProc fuel, r.Final recvProc) →
    ∃ result, Processes recvProc s.app s.recvBuf.content s'.app result ∧ s'.Keeps result
  | fuel + 1, s, s', live, idle, run, last => by
      have round := s.recvRound_eq_of_front recvProc
      have here : s.Final recvProc := last s (by rw [loopRounds]; exact List.mem_cons_self)
      rw [recvLoop] at run
      cases front : s.front with
      | part =>
          rw [front] at round
          rw [round] at run
          cases run
          rw [leaveLoop_of_live live]
          exact ⟨some s.recvBuf.content, .part front, rfl, rfl⟩
      | bad =>
          rw [front] at round
          obtain ⟨r, round, app, same, -⟩ := round
          rw [round] at run
          cases run
          rw [show r.disConnect.app = r.app from rfl, app]
          exact ⟨none, .rejected front, same.trans idle⟩
      | overrun =>
          have long := here.1
          rw [overlong, front] at long
          cases long
      | frame packet rest =>
          rw [front] at round
          rw [round.1] at run
          dsimp only at run
          rw [loopRounds_of_frame fuel front, List.forall_mem_cons] at last
          have content : (s.takeFrame.onRecv recvProc packet).recvBuf.content = rest := by
            rw [recvBuf_onRecv, round.2]
          obtain ⟨next, handed⟩ : ∃ next, s.takeFrame.onRecv recvProc packet = next := ⟨_, rfl⟩
          rw [handed] at run last content
          have app : next.app = (recvProc s.app packet).2 := by
            rw [← handed, app_onRecv, app_takeFrame]
          have idle' : next.posted = false := by
            rw [← handed, posted_onRecv, posted_takeFrame, idle]
          cases verdict : (recvProc s.app packet).1 with
          | true =>
              have live' : next.isReleased = false := by
                rw [← handed, isReleased_onRecv, isReleased_takeFrame, app_takeFrame, live, verdict]
                rfl
              obtain ⟨result, later, keeps⟩ := processes_loop live' idle' run last.2
              rw [app, content] at later
              exact ⟨result, .accepted front verdict later, keeps⟩
          | false =>
              have released : next.isReleased = true := by
                rw [← handed, isReleased_onRecv, app_takeFrame, verdict, Bool.not_false,
                  Bool.or_true]
              have none : next.delivers = false := by
                rw [← handed, delivers_onRecv]
                exact (final_iff_of_frame front).mp here verdict
              obtain ⟨stops, app', -, -, posted⟩ := @recvRound_of_not_delivers _ recvProc _ none
              obtain ⟨fuel, rfl⟩ : ∃ k, fuel = k + 1 := by
                cases fuel with
                | zero => cases run
                | succ k => exact ⟨k, rfl⟩
              rw [recvLoop] at run
              split at run
              · rename_i r round'
                rw [round'] at stops
                cases stops
              · rename_i r round'
                rw [round'] at app' posted
                cases run
                rw [app', app]
                exact ⟨_, .refused front verdict, (posted released).trans idle'⟩

/-- A completion of a session that is not disconnected. -/
theorem processes_completion {s : Receiver σ} {bytes : List BYTE} (live : s.isReleased = false)
    (nonempty : 1 ≤ bytes.length) (fits : bytes.length ≤ s.recvBuf.getFreeSize)
    (last : ∀ r ∈ (s.claim bytes).loopRounds recvProc ((s.claim bytes).recvBuf.getUseSize + 1),
      r.Final recvProc) :
    ∃ result, Processes recvProc s.app (s.recvBuf.content ++ bytes)
        (s.completion recvProc bytes).app result ∧ (s.completion recvProc bytes).Keeps result := by
  have run := @completion_of_claim _ recvProc s _ (Nat.ne_of_gt nonempty)
  obtain ⟨result, processes, keeps⟩ := processes_loop (s := s.claim bytes) live rfl run last
  rw [show (s.claim bytes).recvBuf.content = s.recvBuf.content ++ bytes from
    CRingBuffer.content_fill_moveRear s.recvBuf fits] at processes
  exact ⟨result, processes, keeps⟩

/-- The completions bring at least one byte and at most the offered ones, as
long as a receive is posted. -/
def Arrives (recvProc : σ → CPacket → Bool × σ) : Receiver σ → List (List BYTE) → Prop
  | _, [] => True
  | s, bytes :: rest => s.posted = true → 1 ≤ bytes.length ∧
      bytes.length ≤ s.recvBuf.getFreeSize ∧ Arrives recvProc (s.completion recvProc bytes) rest

/-- A run of a session that nothing has gone wrong with. -/
theorem processes_receive (chunks : List (List BYTE)) : ∀ {s : Receiver σ}, s.posted = true →
    s.Open → s.front = .part → s.Arrives recvProc chunks →
    s.RefusesLast recvProc chunks →
    ∃ result, Processes recvProc s.app (s.recvBuf.content ++ chunks.flatten)
      (s.receive recvProc chunks).app result := by
  induction chunks with
  | nil =>
      intro s _ _ front _ _
      rw [List.flatten_nil, List.append_nil]
      exact ⟨_, .part front⟩
  | cons bytes rest ih =>
      intro s posted isOpen _ arrives last
      obtain ⟨nonempty, fits, arrives⟩ := arrives posted
      unfold RefusesLast at last
      rw [rounds, if_pos posted, if_neg (Nat.ne_of_gt nonempty), List.forall_mem_append] at last
      obtain ⟨result, processes, keeps⟩ := processes_completion isOpen.live nonempty fits last.1
      rw [receive, if_pos posted, List.flatten_cons, ← List.append_assoc]
      cases result with
      | none =>
          have ended : (s.completion recvProc bytes).receive recvProc rest =
              s.completion recvProc bytes := by
            have idle : (s.completion recvProc bytes).posted = false := keeps
            cases rest with
            | nil => rfl
            | cons more rest =>
                rw [receive, if_neg (by rw [idle]; exact Bool.false_ne_true)]
          rw [ended]
          exact ⟨none, processes.append_none rfl⟩
      | some kept =>
          obtain ⟨posted', content⟩ := keeps
          have front' : (s.completion recvProc bytes).front = .part := by
            rw [front, content]
            exact processes.front_kept rfl
          obtain ⟨result, later⟩ := ih posted' (open_of_completion isOpen.sound posted')
            front' arrives last.2
          rw [content] at later
          exact ⟨result, processes.append_some rfl later⟩

/-- **What a rejection ends.**  In a run that writes behind no packet, nothing of
a session reaches `OnRecv` after it has been disconnected, exactly when no frame
that `RecvComplete` comes to is overlong and none that `RecvProc` turns down has
an acceptable one behind it in the ring; and then the effects are those of the
stream, however it is cut. -/
theorem nothing_after_rejection (recvProc : σ → CPacket → Bool × σ) (rb : CRingBuffer) (app : σ) :
    (∀ chunks, (start rb app).Silent recvProc chunks ↔
      (start rb app).RefusesLast recvProc chunks) ∧
    ∀ chunks chunks', chunks.flatten = chunks'.flatten →
      (start rb app).Arrives recvProc chunks → (start rb app).Arrives recvProc chunks' →
      (start rb app).RefusesLast recvProc chunks → (start rb app).RefusesLast recvProc chunks' →
      ((start rb app).receive recvProc chunks).app =
        ((start rb app).receive recvProc chunks').app := by
  refine ⟨fun chunks => silent_iff_refusesLast chunks fun _ => ⟨rfl, rfl⟩, ?_⟩
  intro chunks chunks' same arrives arrives' last last'
  have empty : (start rb app).recvBuf.content = [] := CRingBuffer.content_clearBuffer rb
  have front : (start rb app).front = .part := by
    rw [Receiver.front, empty]
    rfl
  obtain ⟨result, first⟩ := processes_receive chunks rfl ⟨rfl, rfl⟩ front arrives last
  obtain ⟨result', second⟩ := processes_receive chunks' rfl ⟨rfl, rfl⟩ front arrives' last'
  rw [← same] at second
  exact (second.deterministic first).1

/-- A frame of a type that `RecvProc` does not know. -/
def unknownFrame : List BYTE := encodedFrame 0 [0xFF, 0xFF]

/-- A move to sector (3, 4). -/
def moveFrame : List BYTE :=
  encodedFrame 0 (bytesOf en_PACKET_CS_CHAT_REQ_SECTOR_MOVE ++ List.replicate 8 0 ++ [3, 0, 4, 0])

/-- `RecvProc` for session 1. -/
def chatProc (s : ChatServer) (packet : CPacket) : Bool × ChatServer :=
  match s.recvProc ⟨0, 0, 0, 0, fun _ => 0⟩ 0 1 packet with
  | .ok result => result
  | .error _ => (false, s)

/-- A session that has joined, before its first completion. -/
def joined : Receiver ChatServer := start CRingBuffer.new (ChatServer.start.joinProc 0 1).2

instance {s : Receiver σ} : Decidable (s.Quiet recvProc) :=
  inferInstanceAs (Decidable (_ ∧ _))

instance {s : Receiver σ} : Decidable (s.Final recvProc) :=
  inferInstanceAs (Decidable (_ ∧ _))

instance {s : Receiver σ} {chunks : List (List BYTE)} : Decidable (s.Silent recvProc chunks) :=
  inferInstanceAs (Decidable (∀ r ∈ s.rounds recvProc chunks, _))

instance {s : Receiver σ} {chunks : List (List BYTE)} :
    Decidable (s.RefusesLast recvProc chunks) :=
  inferInstanceAs (Decidable (∀ r ∈ s.rounds recvProc chunks, _))

/-- A session that has been disconnected for a frame still moves its player, if
only the move came along with that frame. -/
theorem rejection_ignored :
    ¬ joined.Silent chatProc [unknownFrame ++ moveFrame] ∧
    (joined.receive chatProc [unknownFrame ++ moveFrame]).overrun = false ∧
    (((joined.receive chatProc [unknownFrame ++ moveFrame]).app.player 0).sectorX = 3) ∧
    (((joined.receive chatProc [unknownFrame, moveFrame]).app.player 0).sectorX = -1) := by
  decide +kernel

/-- A move whose last byte has been damaged on its way. -/
def damagedFrame : List BYTE := moveFrame.dropLast ++ [moveFrame.getLastD 0 ^^^ 1]

/-- Behind a frame of unknown type come a damaged one and a move: neither is
looked at, whether the damaged one comes along with the first or with the
last. -/
theorem nothing_after_rejection_later :
    joined.Silent chatProc [unknownFrame ++ damagedFrame, moveFrame] ∧
    (joined.receive chatProc [unknownFrame ++ damagedFrame, moveFrame]).app =
      (joined.receive chatProc [unknownFrame, damagedFrame ++ moveFrame]).app :=
  have spec := nothing_after_rejection chatProc CRingBuffer.new (ChatServer.start.joinProc 0 1).2
  ⟨(spec.1 [unknownFrame ++ damagedFrame, moveFrame]).mpr (by decide +kernel),
    spec.2 [unknownFrame ++ damagedFrame, moveFrame] [unknownFrame, damagedFrame ++ moveFrame]
      (by decide +kernel)
      (fun _ => ⟨by decide, by decide +kernel, fun _ => ⟨by decide, by decide +kernel, trivial⟩⟩)
      (fun _ => ⟨by decide, by decide +kernel, fun _ => ⟨by decide, by decide +kernel, trivial⟩⟩)
      (by decide +kernel) (by decide +kernel)⟩

end Receiver

end ChattingServer
