import ChattingServer.ChatContent
import ChattingServer.Handlers

/-!
# The audience of a chat message

Who `Req_Chat` sends to, after any history of handlers: the players of the
sectors `MakeAround` lists are, by the roster, those that are logged in and
were last allowed to move next to the sender, each once.
-/

namespace ChattingServer

/-- One coordinate is next to another, or the same. -/
def Near (a b : Int) : Prop := a - b ≤ 1 ∧ b - a ≤ 1

/-- A coordinate of the map as a `WORD`. -/
theorem toNat_ofInt_of_inside {x : Int} (low : 0 ≤ x) (high : x < 50) :
    ((BitVec.ofInt 16 x).toNat : Int) = x := by
  rw [BitVec.toNat_ofInt]
  omega

/-- Past either border of the map the wrap-around does not lead back into it. -/
theorem inside_of_toNat_ofInt {a : WORD} (inside : a.toNat < 50) {d : Int} (low : -1 ≤ d)
    (high : d ≤ 1) (valid : (BitVec.ofInt 16 (a.toNat + d)).toNat < 50) :
    0 ≤ a.toNat + d ∧ a.toNat + d < 50 := by
  rw [BitVec.toNat_ofInt] at valid
  omega

theorem isValidSector_iff {x y : WORD} :
    isValidSector x y = true ↔ x.toNat < 50 ∧ y.toNat < 50 := by
  rw [isValidSector, Bool.and_eq_true, decide_eq_true_iff, decide_eq_true_iff]
  rfl

theorem mem_offsets {d : Int} : d ∈ [-1, 0, 1] ↔ -1 ≤ d ∧ d ≤ 1 := by
  simp only [List.mem_cons, List.not_mem_nil, or_false]
  omega

/-- `MakeAround` lists the sectors of the map next to a sector. -/
theorem mem_makeAround {cx cy : WORD} (inside : isValidSector cx cy = true) {x y : Int} :
    (x, y) ∈ makeAround cx cy ↔
      (0 ≤ x ∧ x < 50 ∧ Near x cx.toNat) ∧ 0 ≤ y ∧ y < 50 ∧ Near y cy.toNat := by
  obtain ⟨insideX, insideY⟩ := isValidSector_iff.mp inside
  simp only [makeAround, List.mem_flatMap, List.mem_filterMap, mem_offsets]
  constructor
  · rintro ⟨dy, ⟨lowY, highY⟩, dx, ⟨lowX, highX⟩, listed⟩
    split at listed
    · rename_i valid
      obtain ⟨rfl, rfl⟩ := Prod.mk.inj (Option.some.inj listed)
      obtain ⟨validX, validY⟩ := isValidSector_iff.mp valid
      obtain ⟨fromX, toX⟩ := inside_of_toNat_ofInt insideX lowX highX validX
      obtain ⟨fromY, toY⟩ := inside_of_toNat_ofInt insideY lowY highY validY
      unfold Near
      omega
    · cases listed
  · rintro ⟨⟨lowX, highX, nearX⟩, lowY, highY, nearY⟩
    unfold Near at nearX nearY
    refine ⟨y - cy.toNat, by omega, x - cx.toNat, by omega, ?_⟩
    have sumX : cx.toNat + (x - cx.toNat) = x := by omega
    have sumY : cy.toNat + (y - cy.toNat) = y := by omega
    rw [sumX, sumY, if_pos]
    have wordX := toNat_ofInt_of_inside lowX highX
    have wordY := toNat_ofInt_of_inside lowY highY
    exact isValidSector_iff.mpr (by omega)

theorem nodup_makeAround (cx cy : WORD) : (makeAround cx cy).Nodup := by
  have row : ∀ {dx dy : Int} {cell : Int × Int},
      (if isValidSector (BitVec.ofInt 16 (cx.toNat + dx)) (BitVec.ofInt 16 (cy.toNat + dy)) then
        some ((cx.toNat : Int) + dx, (cy.toNat : Int) + dy) else none) = some cell →
      cell = (cx.toNat + dx, cy.toNat + dy) := by
    intro dx dy cell listed
    split at listed
    · exact (Option.some.inj listed).symm
    · cases listed
  unfold makeAround
  rw [List.nodup_flatMap]
  constructor
  · intro dy _
    refine List.Nodup.filterMap ?_ (by decide)
    intro dx dx' cell first second
    have same := (row first).symm.trans (row second)
    have column := (Prod.mk.inj same).1
    omega
  · refine List.Pairwise.imp ?_ (show List.Pairwise (· ≠ ·) [(-1 : Int), 0, 1] by decide)
    intro dy dy' different cell first second
    obtain ⟨dx, -, listed⟩ := List.mem_filterMap.mp first
    obtain ⟨dx', -, listed'⟩ := List.mem_filterMap.mp second
    have same := (row listed).symm.trans (row listed')
    have line := (Prod.mk.inj same).2
    exact different (by omega)

/-- The cells of the sector table `Req_Chat` scans. -/
def around (cx cy : WORD) : List (Nat × Nat) :=
  (makeAround cx cy).map fun (x, y) => ((BitVec.ofInt 16 x).toNat, (BitVec.ofInt 16 y).toNat)

theorem mem_around {cx cy : WORD} (inside : isValidSector cx cy = true) {x y : Nat} :
    (x, y) ∈ around cx cy ↔ (x < 50 ∧ Near x cx.toNat) ∧ y < 50 ∧ Near y cy.toNat := by
  rw [around, List.mem_map]
  constructor
  · rintro ⟨⟨i, j⟩, listed, same⟩
    obtain ⟨⟨lowX, highX, nearX⟩, lowY, highY, nearY⟩ := (mem_makeAround inside).mp listed
    have wordX := toNat_ofInt_of_inside lowX highX
    have wordY := toNat_ofInt_of_inside lowY highY
    obtain ⟨rfl, rfl⟩ := Prod.mk.inj same
    rw [wordX, wordY]
    exact ⟨⟨by omega, nearX⟩, by omega, nearY⟩
  · rintro ⟨⟨highX, nearX⟩, highY, nearY⟩
    have wordX := toNat_ofInt_of_inside (x := x) (by omega) (by omega)
    have wordY := toNat_ofInt_of_inside (x := y) (by omega) (by omega)
    refine ⟨(x, y), (mem_makeAround inside).mpr ?_, ?_⟩
    · exact ⟨⟨by omega, by omega, nearX⟩, by omega, by omega, nearY⟩
    · exact Prod.ext (Int.ofNat_inj.mp wordX) (Int.ofNat_inj.mp wordY)

theorem nodup_around {cx cy : WORD} (inside : isValidSector cx cy = true) :
    (around cx cy).Nodup := by
  refine List.Nodup.map_on ?_ (nodup_makeAround cx cy)
  rintro ⟨i, j⟩ listed ⟨i', j'⟩ listed' same
  obtain ⟨⟨lowX, highX, -⟩, lowY, highY, -⟩ := (mem_makeAround inside).mp listed
  obtain ⟨⟨lowX', highX', -⟩, lowY', highY', -⟩ := (mem_makeAround inside).mp listed'
  obtain ⟨sameX, sameY⟩ := Prod.mk.inj same
  have wordX := toNat_ofInt_of_inside lowX highX
  have wordY := toNat_ofInt_of_inside lowY highY
  have wordX' := toNat_ofInt_of_inside lowX' highX'
  have wordY' := toNat_ofInt_of_inside lowY' highY'
  exact Prod.ext (by dsimp only; omega) (by dsimp only; omega)

namespace ChatServer

variable {s s' : ChatServer}

/-- The session a scan takes down for a player it meets. -/
def collect (s : ChatServer) (player : PlayerPtr) : Option UINT64 :=
  if (s.player player).isLogined then some (s.player player).sessionID else none

theorem targets_eq (s : ChatServer) (cx cy : WORD) :
    s.targets cx cy = ((around cx cy).flatMap s.sectorAt).filterMap s.collect := by
  rw [targets, around, List.flatMap_map, List.filterMap_flatMap]
  rfl

/-- A player with a place is the one of its session. -/
theorem mapped_of_place {player : PlayerPtr} {cell : Nat × Nat}
    (placed : s.place player = some cell) :
    s.players (s.player player).sessionID = some player ∧
      isValidSector (s.player player).sectorX (s.player player).sectorY = true ∧
      cell = ((s.player player).sectorX.toNat, (s.player player).sectorY.toNat) := by
  unfold place at placed
  dsimp only at placed
  split at placed
  · rename_i mapped
    exact ⟨mapped.1, mapped.2, (Option.some.inj placed).symm⟩
  · cases placed

theorem collect_eq_some {player : PlayerPtr} {id : UINT64} :
    s.collect player = some id ↔
      (s.player player).isLogined = true ∧ (s.player player).sessionID = id := by
  unfold collect
  split
  · rename_i logined
    exact ⟨fun same => ⟨logined, Option.some.inj same⟩, fun same => congrArg some same.2⟩
  · rename_i other
    exact iff_of_false (by simp) fun same => other same.1

end ChatServer

/-- A session whose player is to hear a chat from a sector. -/
def Roster.Hears (roster : Roster) (cx cy : WORD) (id : UINT64) : Prop :=
  ∃ x y, roster id = some ⟨true, some (x, y)⟩ ∧ Near x.toNat cx.toNat ∧ Near y.toNat cy.toNat

namespace ChatServer

variable {s s' : ChatServer}

theorem nodup_targets (orderly : Orderly s) {cx cy : WORD}
    (inside : isValidSector cx cy = true) : (s.targets cx cy).Nodup := by
  rw [targets_eq]
  refine List.pairwise_filterMap.mpr
    ((orderly.filed.nodup_flatMap (nodup_around inside)).imp_of_mem ?_)
  intro p q first second different id taken id' taken' same
  obtain ⟨cell, -, placed⟩ := orderly.filed.mem_flatMap.mp first
  obtain ⟨cell', -, placed'⟩ := orderly.filed.mem_flatMap.mp second
  obtain ⟨-, session⟩ := collect_eq_some.mp taken
  obtain ⟨-, session'⟩ := collect_eq_some.mp taken'
  have mapped := (mapped_of_place placed).1
  rw [session, same, ← session', (mapped_of_place placed').1] at mapped
  exact different (Option.some.inj mapped).symm

theorem mem_targets (orderly : Orderly s) {cx cy : WORD} (inside : isValidSector cx cy = true)
    (id : UINT64) : id ∈ s.targets cx cy ↔ s.seating.Hears cx cy id := by
  rw [targets_eq, List.mem_filterMap]
  constructor
  · rintro ⟨player, met, taken⟩
    obtain ⟨⟨i, j⟩, listed, placed⟩ := orderly.filed.mem_flatMap.mp met
    obtain ⟨logined, rfl⟩ := collect_eq_some.mp taken
    obtain ⟨mapped, valid, same⟩ := mapped_of_place placed
    obtain ⟨rfl, rfl⟩ := Prod.mk.inj same
    obtain ⟨⟨-, nearX⟩, -, nearY⟩ := (mem_around inside).mp listed
    refine ⟨(s.player player).sectorX, (s.player player).sectorY, ?_, nearX, nearY⟩
    rw [seating_of_some mapped, Player.seat, logined, if_pos valid]
  · rintro ⟨x, y, seated, nearX, nearY⟩
    cases mapped : s.players id with
    | none =>
        rw [seating_of_none mapped] at seated
        cases seated
    | some player =>
        rw [seating_of_some mapped] at seated
        obtain ⟨logined, sector⟩ := Seat.mk.inj (Option.some.inj seated)
        have place := orderly.place_eq mapped
        split_ifs at sector with valid
        · obtain ⟨rfl, rfl⟩ := Prod.mk.inj (Option.some.inj sector)
          rw [if_pos valid] at place
          refine ⟨player, orderly.filed.mem_flatMap.mpr ⟨_, ?_, place⟩, ?_⟩
          · obtain ⟨insideX, insideY⟩ := isValidSector_iff.mp valid
            exact (mem_around inside).mpr ⟨⟨insideX, nearX⟩, insideY, nearY⟩
          · exact collect_eq_some.mpr ⟨logined, orderly.session mapped⟩

theorem map_ok {α β ε : Type} {x : Except ε α} {f : α → β} {b : β} (mapped : x.map f = .ok b) :
    ∃ a, x = .ok a ∧ f a = b := by
  cases x with
  | error fault => cases mapped
  | ok a => exact ⟨a, rfl, Except.ok.inj mapped⟩

theorem SameContent.targets (same : s.SameContent s') (cx cy : WORD) :
    s'.targets cx cy = s.targets cx cy := by
  have sets : s'.sectorAt = s.sectorAt := by
    unfold sectorAt
    rw [same.sector]
  have taken : s'.collect = s.collect := by
    funext player
    rw [collect, collect, same.field Player.isLogined (fun _ => rfl),
      same.field Player.sessionID (fun _ => rfl)]
  rw [targets_eq, targets_eq, sets, taken]

/-- A chat that is accepted goes to exactly the audience the history of the
server gives it. -/
theorem broadcast_audience {history : List Handler} {roster : Roster}
    (reached : Reached history s roster) {env : Env} {fuel : Nat} {sessionID : UINT64}
    {packet : CPacket} (chat : (packet.readValue (0 : WORD)).1 = en_PACKET_CS_CHAT_REQ_MESSAGE)
    (accepted : s.recvProc env fuel sessionID packet = .ok (true, s')) :
    ∃ (cx cy : WORD) (res : CPacket) (audience : List UINT64),
      roster sessionID = some ⟨true, some (cx, cy)⟩ ∧
      s'.sent = s.sent ++ audience.map (·, res) ∧ audience.Nodup ∧
      ∀ id, id ∈ audience ↔ roster.Hears cx cy id := by
  obtain ⟨orderly, shown⟩ := reached.orderly
  subst shown
  cases joined : s.players sessionID with
  | none =>
      rw [recvProc, acquirePlayer_of_none joined] at accepted
      cases accepted
  | some player =>
      have same := sameContent_begun s env player
      rw [recvProc_of_attended (attended orderly joined), chat] at accepted
      obtain ⟨⟨ok, t⟩, handled, result⟩ := map_ok accepted
      obtain ⟨rfl, rfl⟩ := Prod.mk.inj result
      rcases reqChat_cases handled with ⟨refused, -⟩ | ⟨-, logined, inside, res, rfl⟩
      · cases refused
      · have sectorX := same.field Player.sectorX (fun _ => rfl) player
        have sectorY := same.field Player.sectorY (fun _ => rfl) player
        have login := same.field Player.isLogined (fun _ => rfl) player
        rw [sectorX, sectorY] at inside
        rw [login] at logined
        refine ⟨(s.player player).sectorX, (s.player player).sectorY, res, s.targets _ _, ?_, ?_,
          nodup_targets orderly inside, mem_targets orderly inside⟩
        · rw [seating_of_some joined, Player.seat, logined, if_pos inside]
        · rw [(sameContent_releasePlayer _ player).sent, sectorX, sectorY, same.targets, same.sent]

/-- Two sessions that join, log in as accounts 7 and 8 and move next to each
other, and a third that only joins and moves there. -/
def gathering : List Handler :=
  let env : Env := ⟨0, 0, 0, 0, fun _ => 0⟩
  let found : LoginEnv := ⟨Vector.replicate 20 0, Vector.replicate 20 0, 0⟩
  let login (account : INT64) : CPacket :=
    CPacket.received 0 (bytesOf en_PACKET_CS_CHAT_REQ_LOGIN ++ bytesOf account ++
      List.replicate 144 0)
  let move (x y : WORD) : CPacket :=
    CPacket.received 0 (bytesOf en_PACKET_CS_CHAT_REQ_SECTOR_MOVE ++ bytesOf (0 : INT64) ++
      bytesOf x ++ bytesOf y)
  [.join 0 1, .join 0 2, .join 0 3, .recv env 0 1 (login 7), .recv env 0 2 (login 8),
    .redis found 0 true, .redis found 0 true, .recv env 0 1 (move 0 49), .recv env 0 2 (move 1 48),
    .recv env 0 3 (move 0 49)]

/-- The first of three sessions that stand next to each other chats: the message goes,
once each, to those that the history lets hear it. -/
theorem broadcast_audience_gathering : ∃ s roster s',
    Reached gathering s roster ∧
    s.recvProc ⟨0, 0, 0, 0, fun _ => 0⟩ 0 1 (CPacket.received 0
      (bytesOf en_PACKET_CS_CHAT_REQ_MESSAGE ++ chatRequest 7 [0x68, 0x69])) = .ok (true, s') ∧
    ∃ (cx cy : WORD) (res : CPacket) (audience : List UINT64),
      roster 1 = some ⟨true, some (cx, cy)⟩ ∧ s'.sent = s.sent ++ audience.map (·, res) ∧
      audience.Nodup ∧ ∀ id, id ∈ audience ↔ roster.Hears cx cy id := by
  have heard : ((run gathering (start, fun _ => none)).bind fun p =>
      (p.1.recvProc ⟨0, 0, 0, 0, fun _ => 0⟩ 0 1 (CPacket.received 0
        (bytesOf en_PACKET_CS_CHAT_REQ_MESSAGE ++ chatRequest 7 [0x68, 0x69]))).toOption.map
          Prod.fst) = some true := by
    decide +kernel
  obtain ⟨⟨s, roster⟩, reached, accepted⟩ := Option.bind_eq_some_iff.mp heard
  obtain ⟨⟨ok, s'⟩, done, rfl⟩ := Option.map_eq_some_iff.mp accepted
  exact ⟨s, roster, s', reached, of_toOption done,
    broadcast_audience reached (by decide +kernel) (of_toOption done)⟩

end ChatServer

end ChattingServer
