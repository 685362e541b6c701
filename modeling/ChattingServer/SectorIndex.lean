import ChattingServer.MovingAudience

/-!
# The sectors while players move and leave

A sector move updates the sets first and the coordinates of the player after
that, and a leaving player is unmapped before it is taken out of its set, each in
steps of its own.  The session layer calls `RecvProc` and `LeaveProc` of one
session in turn, and with that (`oneHandler`) the sets are a faithful index:
every player is in one of them at most, and one that no thread is moving or
clearing is in the sector of its coordinates if it is mapped, and in none
otherwise (`sectors_exact`).  Where a leave overlaps a move the player stays in
a set for good (`sectors_ghost`).
-/

namespace ChattingServer

/-- The sector that the coordinates of a player name. -/
def Player.cell (p : Player) : Option (Nat × Nat) :=
  if isValidSector p.sectorX p.sectorY then some (p.sectorX.toNat, p.sectorY.toNat) else none

theorem Player.cell_congr {p q : Player} (x : p.sectorX = q.sectorX) (y : p.sectorY = q.sectorY) :
    p.cell = q.cell := by
  rw [cell, cell, x, y]

theorem Player.cell_of_valid {p : Player} (valid : isValidSector p.sectorX p.sectorY = true) :
    p.cell = some (p.sectorX.toNat, p.sectorY.toNat) :=
  if_pos valid

theorem Player.cell_of_invalid {p : Player} (invalid : ¬ isValidSector p.sectorX p.sectorY = true) :
    p.cell = none :=
  if_neg invalid

namespace ChatThreads

/-! ## Places -/

/-- The thread may still look for the player of the session, or move it. -/
@[simp] def Frame.serves (sessionID : UINT64) : Frame → Nat
  | .acquire id (.recv ..) => share id sessionID
  | .acquired id (.recv ..) _ => share id sessionID
  | .recv id _ _ _ _ => share id sessionID
  | .move _ req _ => share req.sessionID sessionID
  | .erase id => share id sessionID
  | _ => 0

/-- `LeaveProc` has unmapped the player and has not come to its set. -/
@[simp] def Frame.clears (q : PlayerPtr) : Frame → Nat
  | .leave _ _ .closing => 0
  | .leave _ p _ => share p q
  | _ => 0

/-- `Req_SectorMove` has updated the sets and not yet both coordinates. -/
@[simp] def Frame.moves (q : PlayerPtr) : Frame → Nat
  | .move p _ .sectorX => share p q
  | .move p _ .sectorY => share p q
  | _ => 0

/-- The thread may move the player, or clear it away. -/
@[simp] def Frame.works (q : PlayerPtr) : Frame → Nat
  | .acquired _ (.recv ..) p => share p q
  | .recv _ p _ _ _ => share p q
  | .move p _ _ => share p q
  | f => f.clears q

/-- A thread calls `RecvProc` or `LeaveProc` for a session only if no other is at it. -/
def oneHandler (s : Conf Frame ChatServer) (t : Nat) (c : Choice) : Bool :=
  match s.top t, c.call with
  | some .worker, .leave sessionID => decide (s.tally (Frame.serves sessionID) = 0)
  | some .worker, .recv _ _ sessionID _ => decide (s.tally (Frame.serves sessionID) = 0)
  | _, _ => true

/-! ## Where nothing is at stake -/

/-- A frame that has nothing to do with where players are. -/
@[simp] def Frame.Apart : Frame → Prop
  | .acquire _ (.complete _) => True
  | .acquired _ (.complete _) _ => True
  | .release _ => True
  | .free _ => True
  | .redis => True
  | .join _ => True
  | .leave _ _ .closing => True
  | .login .. => True
  | .chat .. => True
  | .complete .. => True
  | .fault => True
  | _ => False

theorem Frame.Apart.light {f : Frame} (apart : f.Apart) (sessionID : UINT64) (q : PlayerPtr) :
    f.serves sessionID = 0 ∧ f.works q = 0 ∧ f.moves q = 0 ∧ f.clears q = 0 := by
  cases f with
  | acquire id use =>
      cases use with
      | recv env fuel packet => cases apart
      | complete found => exact ⟨rfl, rfl, rfl, rfl⟩
  | acquired id use p =>
      cases use with
      | recv env fuel packet => cases apart
      | complete found => exact ⟨rfl, rfl, rfl, rfl⟩
  | leave id p pc =>
      cases pc with
      | closing => exact ⟨rfl, rfl, rfl, rfl⟩
      | _ => cases apart
  | release | free | redis | join | login | chat | complete | fault => exact ⟨rfl, rfl, rfl, rfl⟩
  | _ => cases apart

theorem ReqChat.apart_next {p : PlayerPtr} {pc : ReqChat} (r : (Frame.act (.chat p pc)).α) :
    ∀ g ∈ (Frame.act (.chat p pc)).next r, g.Apart := by
  have scans : ∀ (res : CPacket) (targets : List UINT64) (cells : List (Nat × Nat)),
      ∀ g ∈ ReqChat.scans p res targets cells, g.Apart := by
    intro res targets cells
    cases cells with
    | nil => cases targets <;> simp
    | cons cell cells => simp
  cases pc with
  | isLogined env fuel packet =>
      cases r
      · simp
      · dsimp only [Frame.act, ReqChat.act, ReqChat.read]
        split
        · simp
        · split <;> simp
  | id chat account ids =>
      dsimp only [Frame.act, ReqChat.act]
      split <;> simp
  | nick chat account ids nicks =>
      dsimp only [Frame.act, ReqChat.act, ReqChat.built]
      split
      · simp
      · split <;> simp
  | cy res x =>
      dsimp only [Frame.act, ReqChat.act]
      split
      · exact scans _ _ _
      · simp
  | scan res targets cell cells => exact scans _ _ _
  | send res sid targets => cases targets <;> simp
  | _ => simp

/-- Once a thread has nothing to do with it, it is so until the thread has finished. -/
theorem Frame.Apart.next {f : Frame} (apart : f.Apart) (r : f.act.α) :
    ∀ g ∈ f.act.next r, g.Apart := by
  cases f with
  | acquire id use =>
      cases use with
      | recv env fuel packet => cases apart
      | complete found => cases r <;> simp
  | acquired id use p =>
      cases use with
      | recv env fuel packet => cases apart
      | complete found => cases r <;> simp
  | release p =>
      dsimp only [Frame.act]
      split <;> simp
  | redis => rcases r with - | ⟨id, found⟩ <;> simp
  | join pc =>
      cases pc with
      | emplace id p => cases r <;> simp
      | _ => simp
  | leave id p pc =>
      cases pc with
      | closing => simp
      | _ => cases apart
  | login id p packet pc =>
      cases pc with
      | closing => cases r <;> simp
      | sessionID =>
          dsimp only [Frame.act, ReqLogin.act]
          split <;> simp
      | accountNo =>
          dsimp only [Frame.act, ReqLogin.act]
          split <;> simp
      | isLogined => cases r <;> simp
      | push => simp
  | chat p pc => exact ReqChat.apart_next r
  | complete id p found pc =>
      cases pc with
      | sessionID =>
          dsimp only [Frame.act, CompleteLogin.act]
          split <;> simp
      | closing =>
          cases r
          · dsimp only [Frame.act, CompleteLogin.act]
            split <;> simp
          · simp
      | id i =>
          dsimp only [Frame.act, CompleteLogin.act]
          split
          · simp
          · split <;> simp
      | nick i =>
          dsimp only [Frame.act, CompleteLogin.act]
          split
          · simp
          · split <;> simp
      | _ => simp
  | free | fault => simp
  | _ => cases apart

theorem sum_apart {w : Frame → Nat} (light : ∀ g : Frame, g.Apart → w g = 0) {fs : List Frame}
    (apart : ∀ g ∈ fs, g.Apart) : (fs.map w).sum = 0 := by
  refine List.sum_eq_zero fun k member => ?_
  obtain ⟨g, inside, rfl⟩ := List.mem_map.mp member
  exact light g (apart g inside)

/-! ## What a step does -/

/-- Nobody's coordinates, set or session has changed. -/
structure Still (s m : ChatServer) : Prop where
  players : m.players = s.players
  sets : m.sectorAt = s.sectorAt
  x : ∀ q, (m.player q).sectorX = (s.player q).sectorX
  y : ∀ q, (m.player q).sectorY = (s.player q).sectorY

theorem Still.refl (s : ChatServer) : Still s s := ⟨rfl, rfl, fun _ => rfl, fun _ => rfl⟩

theorem still_updatePlayer (s : ChatServer) (p : PlayerPtr) {g : Player → Player}
    (x : (g (s.player p)).sectorX = (s.player p).sectorX)
    (y : (g (s.player p)).sectorY = (s.player p).sectorY) : Still s (s.updatePlayer p g) := by
  refine ⟨rfl, rfl, ?_, ?_⟩
  · intro q
    rcases eq_or_ne q p with rfl | other
    · rw [ChatServer.player_updatePlayer_self]
      exact x
    · rw [ChatServer.player_updatePlayer_of_ne _ other]
  · intro q
    rcases eq_or_ne q p with rfl | other
    · rw [ChatServer.player_updatePlayer_self]
      exact y
    · rw [ChatServer.player_updatePlayer_of_ne _ other]

theorem Still.cell {s m : ChatServer} (still : Still s m) (q : PlayerPtr) :
    (m.player q).cell = (s.player q).cell :=
  Player.cell_congr (still.x q) (still.y q)

/-- What a place of `Req_SectorMove` has read of the player, and where the sets have
it. -/
@[simp] def ReqSectorMove.Sited (m : ChatServer) (place : PlayerPtr → Option (Nat × Nat))
    (p : PlayerPtr) (req : Move) : ReqSectorMove → Prop
  | .oy oldX => oldX = (m.player p).sectorX
  | .sets oldX oldY => oldX = (m.player p).sectorX ∧ oldY = (m.player p).sectorY
  | .sectorX => place p = some (req.x.toNat, req.y.toNat)
  | .sectorY => place p = some (req.x.toNat, req.y.toNat) ∧ (m.player p).sectorX = req.x
  | _ => True

@[simp] def LeaveProc.Sited (m : ChatServer) (place : PlayerPtr → Option (Nat × Nat))
    (p : PlayerPtr) : LeaveProc → Prop
  | .sectorY x => place p = (m.player p).cell ∧ x = (m.player p).sectorX
  | .sector => place p = (m.player p).cell ∧
      isValidSector (m.player p).sectorX (m.player p).sectorY = true
  | .closing => True
  | _ => place p = (m.player p).cell

@[simp] def Frame.Sited (m : ChatServer) (place : PlayerPtr → Option (Nat × Nat)) : Frame → Prop
  | .acquired sessionID (.recv ..) p => m.players sessionID = some p
  | .recv sessionID p _ _ _ => m.players sessionID = some p
  | .move p req pc => m.players req.sessionID = some p ∧ isValidSector req.x req.y = true ∧
      pc.Sited m place p req
  | .leave _ p pc => pc.Sited m place p
  | _ => True

theorem Frame.Apart.sited {f : Frame} (apart : f.Apart) (m : ChatServer)
    (place : PlayerPtr → Option (Nat × Nat)) : f.Sited m place := by
  cases f with
  | acquire id use => trivial
  | acquired id use p =>
      cases use with
      | recv env fuel packet => cases apart
      | complete found => trivial
  | leave id p pc =>
      cases pc with
      | closing => trivial
      | _ => cases apart
  | recv | move | worker | erase => cases apart
  | _ => trivial

/-- `Req_SectorMove` has updated the sets. -/
def refiled (s : ChatServer) (p : PlayerPtr) (ox oy x y : WORD) : ChatServer :=
  let s := if isValidSector ox oy then s.updateSector ox oy (·.erase p) else s
  s.updateSector x y (·.insert p)

/-- What a place does, with the frames it goes on with. -/
inductive Goes (c : Choice) (s : ChatServer) : Frame → List Frame → ChatServer → Prop
  | on {f : Frame} {fs : List Frame} {m : ChatServer} (still : Still s m)
      (serves : ∀ sessionID, (fs.map (Frame.serves sessionID)).sum ≤ f.serves sessionID)
      (works : ∀ q, (fs.map (Frame.works q)).sum ≤ f.works q)
      (moves : ∀ q, (fs.map (Frame.moves q)).sum = f.moves q)
      (clears : ∀ q, (fs.map (Frame.clears q)).sum = f.clears q)
      (sited : ∀ place, f.Sited s place → ∀ g ∈ fs, g.Sited s place) : Goes c s f fs m
  | call : Goes c s .worker [c.call.frame, .worker] s
  | prepare {now sessionID : UINT64} {p : PlayerPtr} :
      Goes c s (.join (.prepare now sessionID p)) [.join (.emplace sessionID p)]
        (s.updatePlayer p fun _ => Player.joining now sessionID)
  | publish {sessionID : UINT64} {p : PlayerPtr} (absent : s.players sessionID = none) :
      Goes c s (.join (.emplace sessionID p)) [] (mapped s sessionID p)
  | find {sessionID : UINT64} {env : Env} {fuel : Nat} {packet : CPacket} {p : PlayerPtr}
      (joined : s.players sessionID = some p) :
      Goes c s (.acquire sessionID (.recv env fuel packet))
        [.acquired sessionID (.recv env fuel packet) p] (s.addRefPlayer p)
  | sets {p : PlayerPtr} {req : Move} {ox oy : WORD} :
      Goes c s (.move p req (.sets ox oy)) [.move p req .sectorX] (refiled s p ox oy req.x req.y)
  | sectorX {p : PlayerPtr} {req : Move} :
      Goes c s (.move p req .sectorX) [.move p req .sectorY]
        (s.updatePlayer p fun q => { q with sectorX := req.x })
  | sectorY {p : PlayerPtr} {req : Move} :
      Goes c s (.move p req .sectorY) [.move p req .time]
        (s.updatePlayer p fun q => { q with sectorY := req.y })
  | erase {sessionID : UINT64} {p : PlayerPtr} (joined : s.players sessionID = some p) :
      Goes c s (.erase sessionID) [.leave sessionID p .isLogined, .release p]
        (erased s sessionID p)
  | nowhere {sessionID : UINT64} {p : PlayerPtr} {x : WORD}
      (invalid : ¬ isValidSector x (s.player p).sectorY = true) :
      Goes c s (.leave sessionID p (.sectorY x)) [.leave sessionID p .closing] s
  | drop {sessionID : UINT64} {p : PlayerPtr} :
      Goes c s (.leave sessionID p .sector) [.leave sessionID p .closing]
        (s.updateSector (s.player p).sectorX (s.player p).sectorY (·.erase p))

section Goes

variable {s m : ChatServer} {c : Choice} {f : Frame} {fs : List Frame}

/-- A place that has nothing left to do with where players are. -/
theorem Goes.ends (still : Still s m) (idle : ∀ q, f.moves q = 0 ∧ f.clears q = 0)
    (apart : ∀ g ∈ fs, g.Apart) : Goes c s f fs m := by
  refine .on still ?_ ?_ ?_ ?_ fun place _ g member => (apart g member).sited s place
  · intro sessionID
    rw [sum_apart (fun g apart => (apart.light sessionID 0).1) apart]
    exact Nat.zero_le _
  · intro q
    rw [sum_apart (fun g apart => (apart.light 0 q).2.1) apart]
    exact Nat.zero_le _
  · intro q
    rw [sum_apart (fun g apart => (apart.light 0 q).2.2.1) apart, (idle q).1]
  · intro q
    rw [sum_apart (fun g apart => (apart.light 0 q).2.2.2) apart, (idle q).2]

/-- What is done beside players and sets does not matter. -/
theorem still_beside (s : ChatServer) (accounts : INT64 → Option UINT64)
    (redisQ sent : List (UINT64 × CPacket)) (pool : List PlayerPtr) (blocks : Nat) :
    Still s { s with
      accounts := accounts
      redisQ := redisQ
      sent := sent
      playerPool := pool
      playerBlocks := blocks } :=
  ⟨rfl, rfl, fun _ => rfl, fun _ => rfl⟩

/-- The operations of `Goes` that change where players are. -/
@[simp] def Op.Shifts {α : Type} : Op α → Prop
  | .moveSector .. => True
  | .dropSector _ => True
  | .store _ (.prepare ..) => True
  | .store _ (.sectorX _) => True
  | .store _ (.sectorY _) => True
  | .emplace .. => True
  | .erase _ => True
  | _ => False

theorem exec_still {α : Type} {op : Op α} {r : α} (done : exec op c s = some (r, m))
    (keeps : ¬ op.Shifts) : Still s m := by
  cases op with
  | abort => cases done
  | choose | load | scan =>
      cases done
      exact .refl s
  | send sessionID packet =>
      cases done
      exact still_beside s s.accounts s.redisQ _ s.playerPool s.playerBlocks
  | free player =>
      cases done
      exact still_beside s s.accounts s.redisQ s.sent _ s.playerBlocks
  | putAccount account sessionID =>
      cases done
      exact still_beside s _ s.redisQ s.sent s.playerPool s.playerBlocks
  | fetchSub player =>
      cases done
      exact still_updatePlayer s player rfl rfl
  | store player store =>
      cases done
      cases store with
      | prepare | sectorX | sectorY => exact absurd trivial keeps
      | _ => refine still_updatePlayer s player ?_ ?_ <;> simp only [Store.apply]
  | popJob =>
      dsimp only [exec] at done
      split at done
      · cases done
        exact .refl s
      · cases done
        exact still_beside s s.accounts _ s.sent s.playerPool s.playerBlocks
  | find sessionID =>
      dsimp only [exec] at done
      split at done
      · cases done
        exact .refl s
      · cases done
        exact still_updatePlayer s _ rfl rfl
  | dropAccount sessionID player =>
      dsimp only [exec] at done
      split at done
      · cases done
        exact still_beside s _ s.redisQ s.sent s.playerPool s.playerBlocks
      · cases done
        exact .refl s
  | pushJob sessionID packet =>
      cases done
      unfold ChatServer.enqueueRedis
      split
      · exact still_beside s s.accounts _ s.sent s.playerPool s.playerBlocks
      · exact .refl s
  | alloc =>
      have taken : s.allocPlayer.2 = m := congrArg Prod.snd (Option.some.inj done)
      rw [← taken, ChatServer.allocPlayer]
      split
      · exact still_beside s s.accounts s.redisQ s.sent _ s.playerBlocks
      · exact still_beside s s.accounts s.redisQ s.sent s.playerPool _
  | sendLogin sessionID account status =>
      obtain ⟨res, rfl⟩ := exec_sendLogin done
      exact still_beside s s.accounts s.redisQ _ s.playerPool s.playerBlocks
  | moveSector | dropSector | emplace | erase => exact absurd trivial keeps

theorem Frame.Apart.keeps {f : Frame} (apart : f.Apart)
    (other : ∀ pc, f ≠ .join pc) : ¬ f.act.op.Shifts := by
  cases f with
  | acquire sessionID use =>
      cases use with
      | recv env fuel packet => cases apart
      | complete found => exact id
  | acquired sessionID use p => exact id
  | join pc => exact absurd rfl (other pc)
  | leave sessionID p pc =>
      cases pc with
      | closing => exact id
      | _ => cases apart
  | login sessionID p packet pc => cases pc <;> exact id
  | chat p pc => cases pc <;> exact id
  | complete sessionID p found pc => cases pc <;> exact id
  | release | free | redis | fault => exact id
  | recv | move | worker | erase => cases apart

/-- `RecvProc` comes to a sector move, or has nothing to do with sectors. -/
theorem dispatch_cases (sessionID : UINT64) (p : PlayerPtr) (env : Env) (fuel : Nat)
    (packet : CPacket) :
    (∀ g ∈ dispatch sessionID p env fuel packet, g.Apart) ∨
      ∃ req : Move, req.sessionID = sessionID ∧ isValidSector req.x req.y = true ∧
        dispatch sessionID p env fuel packet = [.move p req .ox] := by
  unfold dispatch
  dsimp only
  split
  · exact Or.inl (by simp)
  · split
    · split
      · rename_i valid
        exact Or.inr ⟨⟨sessionID, env, fuel, _, _, _⟩, rfl, valid, rfl⟩
      · exact Or.inl (by simp)
    · split <;> exact Or.inl (by simp)

theorem ReqSectorMove.goes {p : PlayerPtr} {req : Move} {pc : ReqSectorMove}
    {r : (Frame.act (.move p req pc)).α}
    (done : exec (Frame.act (.move p req pc)).op c s = some (r, m)) :
    Goes c s (.move p req pc) ((Frame.act (.move p req pc)).next r) m := by
  cases pc with
  | ox =>
      obtain ⟨rfl, rfl⟩ := exec_load done
      refine .on (.refl s) (fun _ => Nat.le_refl _) (fun _ => Nat.le_refl _) (fun _ => rfl)
        (fun _ => rfl) ?_
      intro place sited g member
      obtain rfl := List.mem_singleton.mp member
      exact ⟨sited.1, sited.2.1, rfl⟩
  | oy oldX =>
      obtain ⟨rfl, rfl⟩ := exec_load done
      refine .on (.refl s) (fun _ => Nat.le_refl _) (fun _ => Nat.le_refl _) (fun _ => rfl)
        (fun _ => rfl) ?_
      intro place sited g member
      obtain rfl := List.mem_singleton.mp member
      exact ⟨sited.1, sited.2.1, sited.2.2, rfl⟩
  | sets oldX oldY =>
      cases done
      exact .sets
  | sectorX =>
      cases done
      exact .sectorX
  | sectorY =>
      cases done
      exact .sectorY
  | time =>
      have still := exec_still done fun shifts => shifts
      dsimp only [Frame.act, ReqSectorMove.act]
      split
      · refine .on still (fun _ => Nat.le_refl _) (fun _ => Nat.le_refl _) (fun _ => rfl)
          (fun _ => rfl) ?_
        intro place sited g member
        obtain rfl := List.mem_singleton.mp member
        exact ⟨sited.1, sited.2.1, trivial⟩
      · exact .ends still (fun _ => ⟨rfl, rfl⟩) (by simp)
  | send res => exact .ends (exec_still done fun shifts => shifts) (fun _ => ⟨rfl, rfl⟩) (by simp)

theorem LeaveProc.goes {sessionID : UINT64} {p : PlayerPtr} {pc : LeaveProc}
    {r : (Frame.act (.leave sessionID p pc)).α}
    (done : exec (Frame.act (.leave sessionID p pc)).op c s = some (r, m)) :
    Goes c s (.leave sessionID p pc) ((Frame.act (.leave sessionID p pc)).next r) m := by
  -- before it reads the coordinates it goes from place to place
  have walk : ∀ {pc' : LeaveProc}, (∀ q, Frame.clears q (.leave sessionID p pc) = share p q) →
      (∀ q, Frame.clears q (.leave sessionID p pc') = share p q) →
      (∀ place, Frame.Sited s place (.leave sessionID p pc) →
        Frame.Sited s place (.leave sessionID p pc')) → Still s m →
      Goes c s (.leave sessionID p pc) [.leave sessionID p pc'] m := by
    intro pc' clears clears' sited still
    refine .on still (fun _ => Nat.le_refl _) ?_ (fun _ => rfl) ?_ ?_
    · intro q
      show Frame.clears q (.leave sessionID p pc') + 0 ≤ Frame.clears q (.leave sessionID p pc)
      rw [clears, clears']
      exact Nat.le_refl _
    · intro q
      show Frame.clears q (.leave sessionID p pc') + 0 = _
      rw [clears, clears', Nat.add_zero]
    · intro place known g member
      obtain rfl := List.mem_singleton.mp member
      exact sited place known
  cases pc with
  | isLogined =>
      obtain ⟨-, rfl⟩ := exec_load done
      cases r <;> exact walk (fun _ => rfl) (fun _ => rfl) (fun _ known => known) (.refl s)
  | accountNo =>
      obtain ⟨-, rfl⟩ := exec_load done
      dsimp only [Frame.act, LeaveProc.act]
      split <;> exact walk (fun _ => rfl) (fun _ => rfl) (fun _ known => known) (.refl s)
  | accounts =>
      exact walk (fun _ => rfl) (fun _ => rfl) (fun _ known => known)
        (exec_still done fun shifts => shifts)
  | sectorX =>
      obtain ⟨rfl, rfl⟩ := exec_load done
      exact walk (fun _ => rfl) (fun _ => rfl) (fun _ known => ⟨known, rfl⟩) (.refl s)
  | sectorY x =>
      obtain ⟨rfl, rfl⟩ := exec_load done
      dsimp only [Frame.act, LeaveProc.act]
      split
      · rename_i valid
        refine walk (fun _ => rfl) (fun _ => rfl) ?_ (.refl s)
        intro place known
        exact ⟨known.1, known.2 ▸ valid⟩
      · rename_i invalid
        exact .nowhere invalid
  | sector =>
      cases done
      exact .drop
  | closing =>
      exact .ends (exec_still done fun shifts => shifts) (fun _ => ⟨rfl, rfl⟩) (by simp)

theorem JoinProc.goes {pc : JoinProc} {r : (Frame.act (.join pc)).α}
    (done : exec (Frame.act (.join pc)).op c s = some (r, m)) :
    Goes c s (.join pc) ((Frame.act (.join pc)).next r) m := by
  have apart : (Frame.join pc).Apart := trivial
  have idle := fun q => (apart.light 0 q).2.2
  cases pc with
  | prepare now sessionID p =>
      cases done
      exact .prepare
  | emplace sessionID p =>
      dsimp only [Frame.act, JoinProc.act, exec] at done
      split at done
      · cases done
        exact .ends (.refl s) idle (apart.next false)
      · rename_i absent
        cases done
        exact .publish (Option.not_isSome_iff_eq_none.mp absent)
  | alloc | free => exact .ends (exec_still done fun shifts => shifts) idle (apart.next r)

/-- What any place does. -/
theorem Frame.goes {r : f.act.α} (done : exec f.act.op c s = some (r, m)) :
    Goes c s f (f.act.next r) m := by
  have ends : f.Apart → (∀ pc, f ≠ .join pc) → Goes c s f (f.act.next r) m := by
    intro apart other
    exact .ends (exec_still done (apart.keeps other)) (fun q => (apart.light 0 q).2.2)
      (apart.next r)
  cases f with
  | worker =>
      cases done
      exact .call
  | acquire sessionID use =>
      cases use with
      | recv env fuel packet =>
          dsimp only [Frame.act, exec] at done
          split at done
          · cases done
            exact .ends (.refl s) (fun _ => ⟨rfl, rfl⟩) (by simp)
          · rename_i p joined
            cases done
            exact .find joined
      | complete found => exact ends trivial (by simp)
  | acquired sessionID use p =>
      cases use with
      | recv env fuel packet =>
          obtain ⟨-, rfl⟩ := exec_load done
          cases r with
          | true => exact .ends (.refl s) (fun _ => ⟨rfl, rfl⟩) (by simp)
          | false =>
              refine .on (.refl s) (fun _ => Nat.le_refl _) (fun _ => Nat.le_refl _)
                (fun _ => rfl) (fun _ => rfl) ?_
              intro place sited g member
              rcases List.mem_cons.mp member with rfl | other
              · exact sited
              · obtain rfl := List.mem_singleton.mp other
                trivial
      | complete found => exact ends trivial (by simp)
  | recv sessionID p env fuel packet =>
      have still := exec_still done fun shifts => shifts
      dsimp only [Frame.act]
      rcases dispatch_cases sessionID p env fuel packet with apart | ⟨req, rfl, valid, same⟩
      · exact .ends still (fun _ => ⟨rfl, rfl⟩) apart
      · rw [same]
        refine .on still (fun _ => Nat.le_refl _) (fun _ => Nat.le_refl _) (fun _ => rfl)
          (fun _ => rfl) ?_
        intro place sited g member
        obtain rfl := List.mem_singleton.mp member
        exact ⟨sited, valid, trivial⟩
  | move p req pc => exact ReqSectorMove.goes done
  | leave sessionID p pc => exact LeaveProc.goes done
  | join pc => exact JoinProc.goes done
  | erase sessionID =>
      dsimp only [Frame.act, exec] at done
      split at done
      · cases done
        exact .ends (.refl s) (fun _ => ⟨rfl, rfl⟩) (by simp)
      · rename_i p joined
        cases done
        exact .erase joined
  | release | free | redis | login | chat | complete | fault => exact ends trivial (by simp)

end Goes

/-! ## The invariant -/

/-- The sets have every player where `place` says, and the handlers of a session
come in turn. -/
structure Sited (s : Conf Frame ChatServer) (place : PlayerPtr → Option (Nat × Nat)) : Prop where
  filed : Filed s.mem.sectorAt place
  turns : ∀ sessionID, s.tally (Frame.serves sessionID) ≤ 1
  alone : ∀ q, s.tally (Frame.works q) ≤ 1
  settled : ∀ {sessionID q}, s.mem.players sessionID = some q → s.tally (Frame.moves q) = 0 →
    place q = (s.mem.player q).cell
  gone : ∀ {q}, (∀ sessionID, s.mem.players sessionID ≠ some q) → s.tally (Frame.clears q) = 0 →
    place q = none
  sited : ∀ stack ∈ s.threads, ∀ f ∈ stack, f.Sited s.mem place

theorem moves_le_works (q : PlayerPtr) (f : Frame) : f.moves q ≤ f.works q := by
  cases f with
  | move p req pc => cases pc <;> simp
  | _ => exact Nat.zero_le _

theorem clears_le_works (q : PlayerPtr) (f : Frame) : f.clears q ≤ f.works q := by
  cases f with
  | leave => exact Nat.le_refl _
  | _ => exact Nat.zero_le _

/-- Who works on a player handles a request of its session, or has unmapped it. -/
theorem Frame.Sited.cases_of_works {m : ChatServer} {place : PlayerPtr → Option (Nat × Nat)}
    {g : Frame} (sited : g.Sited m place) {q : PlayerPtr} (works : 0 < g.works q) :
    (∃ sessionID, m.players sessionID = some q ∧ g.serves sessionID = 1) ∨
      ∃ sessionID pc, g = .leave sessionID q pc := by
  cases g with
  | acquired sessionID use p =>
      cases use with
      | recv env fuel packet =>
          obtain rfl := eq_of_share_pos works
          exact Or.inl ⟨sessionID, sited, share_self sessionID⟩
      | complete found => cases works
  | recv sessionID p env fuel packet =>
      obtain rfl := eq_of_share_pos works
      exact Or.inl ⟨sessionID, sited, share_self sessionID⟩
  | move p req pc =>
      obtain rfl := eq_of_share_pos works
      exact Or.inl ⟨req.sessionID, sited.1, share_self req.sessionID⟩
  | leave sessionID p pc =>
      have same : p = q := by
        cases pc with
        | closing => cases works
        | _ => exact eq_of_share_pos works
      exact Or.inr ⟨sessionID, pc, same ▸ rfl⟩
  | _ => cases works

/-- A player is where it was, in the sets and by its coordinates. -/
structure SameSpot (s m : ChatServer) (place place' : PlayerPtr → Option (Nat × Nat))
    (q : PlayerPtr) : Prop where
  place : place' q = place q
  x : (m.player q).sectorX = (s.player q).sectorX
  y : (m.player q).sectorY = (s.player q).sectorY

theorem SameSpot.cell {s m : ChatServer} {place place' : PlayerPtr → Option (Nat × Nat)}
    {q : PlayerPtr} (same : SameSpot s m place place' q) :
    (m.player q).cell = (s.player q).cell :=
  Player.cell_congr same.x same.y

theorem Still.sameSpot {s m : ChatServer} (still : Still s m)
    (place : PlayerPtr → Option (Nat × Nat)) (q : PlayerPtr) : SameSpot s m place place q :=
  ⟨rfl, still.x q, still.y q⟩

/-- What a place knows outlasts a step that keeps its player. -/
theorem Frame.Sited.mono {s m : ChatServer} {place place' : PlayerPtr → Option (Nat × Nat)}
    {g : Frame} (sited : g.Sited s place)
    (mapped : ∀ {sessionID q}, s.players sessionID = some q → g.serves sessionID = 1 →
      m.players sessionID = some q)
    (spot : ∀ {q}, g.works q = 1 → SameSpot s m place place' q) : g.Sited m place' := by
  cases g with
  | acquired sessionID use p =>
      cases use with
      | recv env fuel packet => exact mapped sited (share_self sessionID)
      | complete found => trivial
  | recv sessionID p env fuel packet => exact mapped sited (share_self sessionID)
  | move p req pc =>
      have same := spot (share_self p)
      obtain ⟨joined, valid, knows⟩ := sited
      refine ⟨mapped joined (share_self _), valid, ?_⟩
      cases pc with
      | oy oldX => exact Eq.trans knows same.x.symm
      | sets oldX oldY => exact ⟨knows.1.trans same.x.symm, knows.2.trans same.y.symm⟩
      | sectorX => exact same.place.trans knows
      | sectorY => exact ⟨same.place.trans knows.1, same.x.trans knows.2⟩
      | _ => trivial
  | leave sessionID p pc =>
      cases pc with
      | closing => trivial
      | sectorY x =>
          have same := spot (share_self p)
          exact ⟨same.place.trans (sited.1.trans same.cell.symm), sited.2.trans same.x.symm⟩
      | sector =>
          have same := spot (share_self p)
          refine ⟨same.place.trans (sited.1.trans same.cell.symm), ?_⟩
          rw [same.x, same.y]
          exact sited.2
      | _ =>
          have same := spot (share_self p)
          exact same.place.trans (Eq.trans sited same.cell.symm)
  | _ => trivial

theorem Frame.Fits.published_of_works {s : Conf Frame ChatServer} {g : Frame} (fits : g.Fits s)
    {q : PlayerPtr} (works : g.works q = 1) : Published s q := by
  have pos : 0 < g.works q := works ▸ Nat.one_pos
  cases g with
  | acquired sessionID use p =>
      cases use with
      | recv env fuel packet => exact eq_of_share_pos pos ▸ fits.1
      | complete found => cases pos
  | recv sessionID p env fuel packet => exact eq_of_share_pos pos ▸ fits
  | move p req pc => exact eq_of_share_pos pos ▸ fits
  | leave sessionID p pc =>
      cases pc with
      | closing => cases pos
      | _ => exact eq_of_share_pos pos ▸ fits.1
  | _ => cases pos

section Step

variable {s : Conf Frame ChatServer} {place : PlayerPtr → Option (Nat × Nat)} {t : Nat} {f : Frame}
  {fs rest : List Frame} {m : ChatServer} (inv : Sited s place) (owned : Owned s)
  (here : s.threads[t]? = some (f :: rest))

include here in
/-- No step makes two of a handler, or of a thread that works on a player. -/
theorem tally_after_le {w : Frame → Nat} (one : s.tally w ≤ 1) (le : (fs.map w).sum ≤ w f) :
    (after s t fs rest m).tally w ≤ 1 := by
  have exchanged := tally_after m fs here w
  omega

include here in
theorem tally_after_eq {w : Frame → Nat} (same : (fs.map w).sum = w f) :
    (after s t fs rest m).tally w = s.tally w := by
  have exchanged := tally_after m fs here w
  omega

include inv here

/-- Beside who works on a player nobody does. -/
theorem Sited.tally_eq_zero {q : PlayerPtr} {w : Frame → Nat} (le : ∀ g, w g ≤ g.works q)
    (works : f.works q = 1) (none : w f = 0) : s.tally w = 0 := by
  have others := Machine.tally_step (Frame.works q) here [] s.mem
  have mine := Machine.tally_step w here [] s.mem
  have below := Conf.tally_le (s := ⟨s.mem, s.threads.set t ([] ++ rest)⟩) le
  have alone := inv.alone q
  rw [List.map_nil, List.sum_nil] at others mine
  omega

include owned

/-- Nobody works on the player of a session whose handler is yet to find it. -/
theorem Sited.unworked {sessionID : UINT64} {p : PlayerPtr} (serves : f.serves sessionID = 1)
    (idle : f.works p = 0) (joined : s.mem.players sessionID = some p) :
    s.tally (Frame.works p) = 0 := by
  by_contra busy
  have mine := Machine.tally_step (Frame.works p) here [] s.mem
  rw [List.map_nil, List.sum_nil] at mine
  obtain ⟨stack, member, g, inside, works⟩ := Conf.exists_of_tally_pos
    (s := ⟨s.mem, s.threads.set t ([] ++ rest)⟩) (w := Frame.works p) (by omega)
  obtain ⟨stack', there, inside'⟩ := Machine.exists_of_stayed here member inside
  obtain ⟨-, session, opened⟩ := owned.mapped joined
  rcases (inv.sited stack' there g inside').cases_of_works works with
    ⟨other, joined', serves'⟩ | ⟨other, pc, rfl⟩
  · -- it would be another handler of the same session
    obtain ⟨-, session', -⟩ := owned.mapped joined'
    obtain rfl : sessionID = other := session.symm.trans session'
    have both := Machine.add_le_tally (Frame.serves sessionID) here member inside
    have turns := inv.turns sessionID
    omega
  · have closed := (owned.fits stack' there _ inside').2.2
    rw [opened] at closed
    cases closed

/-- The places of other threads keep their knowledge. -/
theorem Sited.others {place' : PlayerPtr → Option (Nat × Nat)}
    (mapped : ∀ {sessionID q}, s.mem.players sessionID = some q → f.serves sessionID = 0 →
      m.players sessionID = some q)
    (spot : ∀ {q}, Published s q → f.works q = 0 → SameSpot s.mem m place place' q) :
    ∀ stack ∈ s.threads.set t rest, ∀ g ∈ stack, g.Sited m place' := by
  intro stack member g inside
  obtain ⟨stack', there, inside'⟩ := Machine.exists_of_stayed here member inside
  refine (inv.sited stack' there g inside').mono ?_ ?_
  · intro sessionID q joined serves
    have both := Machine.add_le_tally (Frame.serves sessionID) here member inside
    have turns := inv.turns sessionID
    exact mapped joined (by omega)
  · intro q works
    have both := Machine.add_le_tally (Frame.works q) here member inside
    have alone := inv.alone q
    exact spot ((owned.fits stack' there g inside').published_of_works works) (by omega)

/-- A step that leaves everybody where they are. -/
theorem Sited.still (still : Still s.mem m)
    (turns : ∀ sessionID, (after s t fs rest m).tally (Frame.serves sessionID) ≤ 1)
    (alone : ∀ q, (after s t fs rest m).tally (Frame.works q) ≤ 1)
    (moves : ∀ q, (fs.map (Frame.moves q)).sum = f.moves q)
    (clears : ∀ q, (fs.map (Frame.clears q)).sum = f.clears q)
    (sited : ∀ g ∈ fs, g.Sited s.mem place) : Sited (after s t fs rest m) place where
  filed := by
    show Filed m.sectorAt place
    rw [still.sets]
    exact inv.filed
  turns := turns
  alone := alone
  settled := by
    intro sessionID q joined unmoved
    rw [tally_after_eq here (moves q)] at unmoved
    change m.players sessionID = some q at joined
    rw [still.players] at joined
    exact (inv.settled joined unmoved).trans (still.cell q).symm
  gone := by
    intro q unmapped uncleared
    rw [tally_after_eq here (clears q)] at uncleared
    change ∀ sessionID, m.players sessionID ≠ some q at unmapped
    rw [still.players] at unmapped
    exact inv.gone unmapped uncleared
  sited := by
    have mapped : ∀ {sessionID q}, s.mem.players sessionID = some q →
        m.players sessionID = some q := fun joined => still.players ▸ joined
    refine Machine.forall_frames_step here ?_ ?_
    · intro g member
      exact (sited g member).mono (fun joined _ => mapped joined)
        fun {q} _ => still.sameSpot place q
    · exact inv.others owned here (fun joined _ => mapped joined)
        fun {q} _ _ => still.sameSpot place q

/-- A handler starts when no other of its session is under way. -/
theorem Sited.call {c : Choice} (worker : f = .worker) (guarded : oneHandler s t c = true) :
    Sited (after s t [c.call.frame, .worker] rest s.mem) place := by
  subst worker
  have top : s.top t = some .worker := Conf.top_of_here here
  unfold oneHandler at guarded
  rw [top] at guarded
  have one : ∀ id sessionID, (∀ k, c.call.frame.serves k = share id k) →
      s.tally (Frame.serves id) = 0 →
        (after s t [c.call.frame, .worker] rest s.mem).tally (Frame.serves sessionID) ≤ 1 := by
    intro id sessionID serves free
    have exchanged := tally_after s.mem [c.call.frame, .worker] here (Frame.serves sessionID)
    have turns := inv.turns sessionID
    change _ + 0 = _ + (c.call.frame.serves sessionID + 0) at exchanged
    rw [serves] at exchanged
    rcases eq_or_ne id sessionID with rfl | other
    · rw [share_self] at exchanged
      omega
    · rw [share_of_ne other] at exchanged
      omega
  have light : ∀ q, c.call.frame.works q = 0 ∧ c.call.frame.moves q = 0 ∧
      c.call.frame.clears q = 0 := by
    intro q
    cases c.call <;> exact ⟨rfl, rfl, rfl⟩
  refine inv.still owned here (.refl s.mem) ?_ ?_ ?_ ?_ ?_
  · intro sessionID
    cases call : c.call with
    | join now id =>
        have exchanged := tally_after s.mem [c.call.frame, .worker] here (Frame.serves sessionID)
        have turns := inv.turns sessionID
        rw [call] at exchanged
        change _ + 0 = _ + 0 at exchanged
        omega
    | leave id =>
        rw [call] at guarded one
        exact one id sessionID (fun _ => rfl) (of_decide_eq_true guarded)
    | recv env fuel id packet =>
        rw [call] at guarded one
        exact one id sessionID (fun _ => rfl) (of_decide_eq_true guarded)
  · intro q
    refine tally_after_le here (inv.alone q) ?_
    show c.call.frame.works q + 0 ≤ 0
    rw [(light q).1]
  · intro q
    show c.call.frame.moves q + 0 = 0
    rw [(light q).2.1]
  · intro q
    show c.call.frame.clears q + 0 = 0
    rw [(light q).2.2]
  · intro g member
    rcases List.mem_cons.mp member with rfl | other
    · cases c.call <;> trivial
    · obtain rfl := List.mem_singleton.mp other
      trivial

/-- A handler finds the player of its session. -/
theorem Sited.find {sessionID : UINT64} {env : Env} {fuel : Nat} {packet : CPacket} {p : PlayerPtr}
    (acquire : f = .acquire sessionID (.recv env fuel packet))
    (joined : s.mem.players sessionID = some p) :
    Sited (after s t [.acquired sessionID (.recv env fuel packet) p] rest (s.mem.addRefPlayer p))
      place := by
  subst acquire
  have free := inv.unworked owned here (share_self sessionID) rfl joined
  refine inv.still owned here (still_updatePlayer s.mem p rfl rfl) ?_ ?_ (fun _ => rfl)
    (fun _ => rfl) ?_
  · intro id
    exact tally_after_le here (inv.turns id) (Nat.le_refl _)
  · intro q
    have exchanged := tally_after (s.mem.addRefPlayer p)
      [.acquired sessionID (.recv env fuel packet) p] here (Frame.works q)
    have alone := inv.alone q
    change _ + 0 = _ + (share p q + 0) at exchanged
    rcases eq_or_ne p q with rfl | other
    · rw [share_self] at exchanged
      omega
    · rw [share_of_ne other] at exchanged
      omega
  · intro g member
    obtain rfl := List.mem_singleton.mp member
    exact joined

/-- A block is prepared that is in nobody else's hands. -/
theorem Sited.prepare {now sessionID : UINT64} {p : PlayerPtr}
    (prepare : f = .join (.prepare now sessionID p)) :
    Sited (after s t [.join (.emplace sessionID p)] rest
      (s.mem.updatePlayer p fun _ => Player.joining now sessionID)) place := by
  subst prepare
  have own : 0 < Frame.fresh p (.join (.prepare now sessionID p)) := by
    rw [Frame.fresh, share_self]
    exact Nat.one_pos
  have unpublished := not_published_of_fresh (List.mem_of_getElem? here) List.mem_cons_self own
  have same : ∀ {q}, Published s q → SameSpot s.mem
      (s.mem.updatePlayer p fun _ => Player.joining now sessionID) place place q := by
    intro q published
    have other : q ≠ p := by
      rintro rfl
      exact unpublished published
    refine ⟨rfl, ?_, ?_⟩ <;> rw [ChatServer.player_updatePlayer_of_ne _ other]
  exact
    { filed := inv.filed
      turns := fun id => tally_after_le here (inv.turns id) (Nat.le_refl _)
      alone := fun q => tally_after_le here (inv.alone q) (Nat.le_refl _)
      settled := by
        intro id q joined unmoved
        rw [tally_after_eq here rfl] at unmoved
        exact (inv.settled joined unmoved).trans (same (owned.mapped joined).1).cell.symm
      gone := by
        intro q unmapped uncleared
        rw [tally_after_eq here rfl] at uncleared
        exact inv.gone unmapped uncleared
      sited := by
        refine Machine.forall_frames_step here ?_ ?_
        · intro g member
          obtain rfl := List.mem_singleton.mp member
          trivial
        · exact inv.others owned here (fun joined _ => joined) fun published _ => same published }

/-- A player is mapped that is in no set. -/
theorem Sited.publish {sessionID : UINT64} {p : PlayerPtr}
    (emplace : f = .join (.emplace sessionID p)) (absent : s.mem.players sessionID = none) :
    Sited (after s t [] rest (mapped s.mem sessionID p)) place := by
  subst emplace
  have own : 0 < Frame.fresh p (.join (.emplace sessionID p)) := by
    rw [Frame.fresh, share_self]
    exact Nat.one_pos
  have unpublished := not_published_of_fresh (List.mem_of_getElem? here) List.mem_cons_self own
  obtain ⟨now, made⟩ := owned.fits _ (List.mem_of_getElem? here) _ List.mem_cons_self
  have keeps : ∀ {id q}, s.mem.players id = some q →
      (mapped s.mem sessionID p).players id = some q := by
    intro id q joined
    have other : id ≠ sessionID := by
      rintro rfl
      rw [absent] at joined
      cases joined
    show Function.update _ _ _ id = _
    rw [Function.update_of_ne other]
    exact joined
  have nowhere : place p = none := by
    refine inv.gone ?_ ?_
    · intro id joined
      exact unpublished (owned.mapped joined).1
    · refine Conf.tally_eq_zero fun stack member g inside => ?_
      by_contra clears
      have works : g.works p = 1 := by
        have le := clears_le_works p g
        have part := Conf.le_tally (w := Frame.works p) member inside
        have alone := inv.alone p
        omega
      exact unpublished ((owned.fits stack member g inside).published_of_works works)
  exact
    { filed := inv.filed
      turns := fun id => tally_after_le here (inv.turns id) (Nat.le_refl _)
      alone := fun q => tally_after_le here (inv.alone q) (Nat.le_refl _)
      settled := by
        intro id q joined unmoved
        rw [tally_after_eq here rfl] at unmoved
        change Function.update s.mem.players sessionID (some p) id = some q at joined
        show place q = (s.mem.player q).cell
        rcases eq_or_ne id sessionID with rfl | other
        · rw [Function.update_self] at joined
          obtain rfl := Option.some.inj joined
          rw [nowhere, made]
          rfl
        · rw [Function.update_of_ne other] at joined
          exact inv.settled joined unmoved
      gone := by
        intro q unmapped uncleared
        rw [tally_after_eq here rfl] at uncleared
        exact inv.gone (fun id joined => unmapped id (keeps joined)) uncleared
      sited := by
        refine Machine.forall_frames_step here ?_ ?_
        · intro g member
          cases member
        · exact inv.others owned here (fun joined _ => keeps joined)
            fun _ _ => ⟨rfl, rfl, rfl⟩ }

/-- A step that changes where one player is, which the thread is at work on. -/
theorem Sited.moving {p : PlayerPtr} {place' : PlayerPtr → Option (Nat × Nat)}
    (mine : f.works p = 1) (players : m.players = s.mem.players) (filed : Filed m.sectorAt place')
    (same : ∀ {q}, q ≠ p → SameSpot s.mem m place place' q)
    (serves : ∀ sessionID, (fs.map (Frame.serves sessionID)).sum ≤ f.serves sessionID)
    (works : ∀ q, (fs.map (Frame.works q)).sum ≤ f.works q)
    (elsewhere : ∀ {q}, q ≠ p → (fs.map (Frame.moves q)).sum = f.moves q ∧
      (fs.map (Frame.clears q)).sum = f.clears q)
    (settled : ∀ {sessionID}, s.mem.players sessionID = some p →
      (after s t fs rest m).tally (Frame.moves p) = 0 → place' p = (m.player p).cell)
    (gone : (∀ sessionID, s.mem.players sessionID ≠ some p) → place' p = none)
    (sited : ∀ g ∈ fs, g.Sited m place') : Sited (after s t fs rest m) place' where
  filed := filed
  turns id := tally_after_le here (inv.turns id) (serves id)
  alone q := tally_after_le here (inv.alone q) (works q)
  settled := by
    intro sessionID q joined unmoved
    change m.players sessionID = some q at joined
    rw [players] at joined
    rcases eq_or_ne q p with rfl | other
    · exact settled joined unmoved
    · rw [tally_after_eq here (elsewhere other).1] at unmoved
      have spot := same other
      exact spot.place.trans ((inv.settled joined unmoved).trans spot.cell.symm)
  gone := by
    intro q unmapped uncleared
    change ∀ sessionID, m.players sessionID ≠ some q at unmapped
    rw [players] at unmapped
    rcases eq_or_ne q p with rfl | other
    · exact gone unmapped
    · rw [tally_after_eq here (elsewhere other).2] at uncleared
      exact (same other).place.trans (inv.gone unmapped uncleared)
  sited := by
    refine Machine.forall_frames_step here sited ?_
    refine inv.others owned here (fun joined _ => players ▸ joined) ?_
    intro q _ idle
    refine same ?_
    rintro rfl
    rw [mine] at idle
    cases idle

/-- The sets follow a player that moves. -/
theorem Sited.sets {p : PlayerPtr} {req : Move} {ox oy : WORD}
    (sets : f = .move p req (.sets ox oy)) :
    Sited (after s t [.move p req .sectorX] rest (refiled s.mem p ox oy req.x req.y))
      (Function.update place p (some (req.x.toNat, req.y.toNat))) := by
  subst sets
  obtain ⟨joined, valid, rfl, rfl⟩ := inv.sited _ (List.mem_of_getElem? here) _ List.mem_cons_self
  have was : place p = (s.mem.player p).cell :=
    inv.settled joined (inv.tally_eq_zero here (moves_le_works p) (share_self p) rfl)
  have players : (refiled s.mem p (s.mem.player p).sectorX (s.mem.player p).sectorY req.x
      req.y).players = s.mem.players := by
    dsimp only [refiled]
    split <;> rfl
  refine inv.moving owned here (share_self p) players ?_ ?_ (fun _ => Nat.le_refl _)
    (fun _ => Nat.le_refl _) ?_ ?_ ?_ ?_
  · dsimp only [refiled]
    split
    · rename_i hadOld
      rw [Player.cell_of_valid hadOld] at was
      rw [ChatServer.sectorAt_updateSector, ChatServer.sectorAt_updateSector]
      exact inv.filed.move was _
    · rename_i noOld
      rw [Player.cell_of_invalid noOld] at was
      rw [ChatServer.sectorAt_updateSector]
      exact inv.filed.add was
  · intro q other
    refine ⟨Function.update_of_ne other .., ?_, ?_⟩ <;> dsimp only [refiled] <;> split <;> rfl
  · intro q other
    exact ⟨congrArg (· + 0) (share_of_ne other.symm), rfl⟩
  · intro sessionID _ unmoved
    have exchanged := tally_after (refiled s.mem p (s.mem.player p).sectorX
      (s.mem.player p).sectorY req.x req.y) [.move p req .sectorX] here (Frame.moves p)
    change _ + 0 = _ + (share p p + 0) at exchanged
    rw [share_self] at exchanged
    omega
  · intro unmapped
    exact absurd joined (unmapped req.sessionID)
  · intro g member
    obtain rfl := List.mem_singleton.mp member
    exact ⟨players ▸ joined, valid, Function.update_self ..⟩

/-- A coordinate is stored. -/
theorem Sited.sectorX {p : PlayerPtr} {req : Move} (store : f = .move p req .sectorX) :
    Sited (after s t [.move p req .sectorY] rest
      (s.mem.updatePlayer p fun q => { q with sectorX := req.x })) place := by
  subst store
  obtain ⟨joined, valid, there⟩ := inv.sited _ (List.mem_of_getElem? here) _ List.mem_cons_self
  refine inv.moving owned here (share_self p) rfl inv.filed ?_ (fun _ => Nat.le_refl _)
    (fun _ => Nat.le_refl _) (fun _ => ⟨rfl, rfl⟩) ?_ ?_ ?_
  · intro q other
    refine ⟨rfl, ?_, ?_⟩ <;> rw [ChatServer.player_updatePlayer_of_ne _ other]
  · intro sessionID _ unmoved
    -- it is still half moved
    have own := Conf.le_tally (w := Frame.moves p) (List.mem_of_getElem? here) List.mem_cons_self
    rw [tally_after_eq here rfl] at unmoved
    rw [unmoved, Frame.moves, share_self] at own
    omega
  · intro unmapped
    exact absurd joined (unmapped req.sessionID)
  · intro g member
    obtain rfl := List.mem_singleton.mp member
    refine ⟨joined, valid, there, ?_⟩
    rw [ChatServer.player_updatePlayer_self]

/-- With the other coordinate the player is where it says. -/
theorem Sited.sectorY {p : PlayerPtr} {req : Move} (store : f = .move p req .sectorY) :
    Sited (after s t [.move p req .time] rest
      (s.mem.updatePlayer p fun q => { q with sectorY := req.y })) place := by
  subst store
  obtain ⟨joined, valid, there, x⟩ := inv.sited _ (List.mem_of_getElem? here) _ List.mem_cons_self
  refine inv.moving owned here (share_self p) rfl inv.filed ?_ (fun _ => Nat.le_refl _)
    (fun _ => Nat.le_refl _) ?_ ?_ ?_ ?_
  · intro q other
    refine ⟨rfl, ?_, ?_⟩ <;> rw [ChatServer.player_updatePlayer_of_ne _ other]
  · intro q other
    exact ⟨(share_of_ne other.symm).symm, rfl⟩
  · intro sessionID _ _
    rw [ChatServer.player_updatePlayer_self, there, Player.cell, x, if_pos valid]
  · intro unmapped
    exact absurd joined (unmapped req.sessionID)
  · intro g member
    obtain rfl := List.mem_singleton.mp member
    exact ⟨joined, valid, trivial⟩

/-- A player without a sector has nothing to be taken out of. -/
theorem Sited.nowhere {sessionID : UINT64} {p : PlayerPtr} {x : WORD}
    (leave : f = .leave sessionID p (.sectorY x))
    (invalid : ¬ isValidSector x (s.mem.player p).sectorY = true) :
    Sited (after s t [.leave sessionID p .closing] rest s.mem) place := by
  subst leave
  obtain ⟨was, rfl⟩ := inv.sited _ (List.mem_of_getElem? here) _ List.mem_cons_self
  refine inv.moving owned here (share_self p) rfl inv.filed (fun _ => ⟨rfl, rfl, rfl⟩)
    (fun _ => Nat.le_refl _) (fun _ => Nat.zero_le _) ?_ ?_ ?_ ?_
  · intro q other
    exact ⟨rfl, (share_of_ne other.symm).symm⟩
  · intro _ _ _
    exact was
  · intro _
    exact was.trans (Player.cell_of_invalid invalid)
  · intro g member
    obtain rfl := List.mem_singleton.mp member
    trivial

/-- A player that has left is taken out of its set. -/
theorem Sited.drop {sessionID : UINT64} {p : PlayerPtr} (leave : f = .leave sessionID p .sector) :
    Sited (after s t [.leave sessionID p .closing] rest
      (s.mem.updateSector (s.mem.player p).sectorX (s.mem.player p).sectorY (·.erase p)))
        (Function.update place p none) := by
  subst leave
  obtain ⟨was, valid⟩ := inv.sited _ (List.mem_of_getElem? here) _ List.mem_cons_self
  have closed := (owned.fits _ (List.mem_of_getElem? here) _ List.mem_cons_self).2.2
  refine inv.moving owned here (share_self p) rfl ?_ ?_ (fun _ => Nat.le_refl _)
    (fun _ => Nat.zero_le _) ?_ ?_ ?_ ?_
  · rw [ChatServer.sectorAt_updateSector]
    rw [Player.cell_of_valid valid] at was
    exact inv.filed.remove was
  · intro q other
    exact ⟨Function.update_of_ne other .., rfl, rfl⟩
  · intro q other
    exact ⟨rfl, (share_of_ne other.symm).symm⟩
  · intro id joined _
    rw [(owned.mapped joined).2.2] at closed
    cases closed
  · intro _
    exact Function.update_self ..
  · intro g member
    obtain rfl := List.mem_singleton.mp member
    trivial

/-- A player is unmapped by the thread that will clear it away. -/
theorem Sited.erase {sessionID : UINT64} {p : PlayerPtr} (erase : f = .erase sessionID)
    (joined : s.mem.players sessionID = some p) :
    Sited (after s t [.leave sessionID p .isLogined, .release p] rest (erased s.mem sessionID p))
      place := by
  subst erase
  have free := inv.unworked owned here (share_self sessionID) rfl joined
  have unmoved : s.tally (Frame.moves p) = 0 := by
    have le := Conf.tally_le (s := s) (moves_le_works p)
    omega
  obtain ⟨-, session, -⟩ := owned.mapped joined
  have same : ∀ q, SameSpot s.mem (erased s.mem sessionID p) place place q := by
    intro q
    have still := still_updatePlayer { s.mem with
      players := Function.update s.mem.players sessionID none } p
        (g := fun q => { q with ref := q.ref + 1, closing := true }) rfl rfl
    exact ⟨rfl, still.x q, still.y q⟩
  have erases : ∀ id, id ≠ sessionID →
      (erased s.mem sessionID p).players id = s.mem.players id := by
    intro id other
    show Function.update s.mem.players sessionID none id = _
    exact Function.update_of_ne other ..
  exact
    { filed := inv.filed
      turns := fun id => tally_after_le here (inv.turns id) (Nat.zero_le _)
      alone := by
        intro q
        have exchanged := tally_after (erased s.mem sessionID p)
          [.leave sessionID p .isLogined, .release p] here (Frame.works q)
        have alone := inv.alone q
        change _ + 0 = _ + (share p q + (0 + 0)) at exchanged
        rcases eq_or_ne p q with rfl | other
        · rw [share_self] at exchanged
          omega
        · rw [share_of_ne other] at exchanged
          omega
      settled := by
        intro id q joined' unmoved
        rw [tally_after_eq here rfl] at unmoved
        have other : id ≠ sessionID := by
          rintro rfl
          change Function.update s.mem.players id none id = some q at joined'
          rw [Function.update_self] at joined'
          cases joined'
        change (erased s.mem sessionID p).players id = some q at joined'
        rw [erases id other] at joined'
        exact (inv.settled joined' unmoved).trans (same q).cell.symm
      gone := by
        intro q unmapped uncleared
        have exchanged := tally_after (erased s.mem sessionID p)
          [.leave sessionID p .isLogined, .release p] here (Frame.clears q)
        change _ + 0 = _ + (share p q + (0 + 0)) at exchanged
        rcases eq_or_ne p q with rfl | other
        · rw [share_self] at exchanged
          omega
        · refine inv.gone ?_ (by omega)
          intro id joined'
          rcases eq_or_ne id sessionID with rfl | elsewhere
          · exact other (Option.some.inj (joined.symm.trans joined'))
          · exact unmapped id ((erases id elsewhere).trans joined')
      sited := by
        refine Machine.forall_frames_step here ?_ ?_
        · intro g member
          rcases List.mem_cons.mp member with rfl | other
          · exact (inv.settled joined unmoved).trans (same p).cell.symm
          · obtain rfl := List.mem_singleton.mp other
            trivial
        · refine inv.others owned here ?_ fun _ _ => same _
          intro id q joined' idle
          refine (erases id ?_).trans joined'
          rintro rfl
          rw [Frame.serves, share_self] at idle
          cases idle }

end Step

/-! ## Runs -/

theorem Sited.step {s s' : Conf Frame ChatServer} {place : PlayerPtr → Option (Nat × Nat)}
    {t : Nat} {c : Choice} (inv : Sited s place) (owned : Owned s)
    (guarded : oneHandler s t c = true) (step : chatServer.step s t c = some s') :
    ∃ place', Sited s' place' := by
  obtain ⟨f, rest, r, m, here, done, rfl⟩ := chat_step_cases step
  have known := inv.sited _ (List.mem_of_getElem? here) f List.mem_cons_self
  have goes := Frame.goes done
  revert goes
  generalize f.act.next r = fs
  intro goes
  cases goes with
  | on still serves works moves clears sited =>
      exact ⟨place, inv.still owned here still
        (fun id => tally_after_le here (inv.turns id) (serves id))
        (fun q => tally_after_le here (inv.alone q) (works q)) moves clears (sited place known)⟩
  | call => exact ⟨place, inv.call owned here rfl guarded⟩
  | prepare => exact ⟨place, inv.prepare owned here rfl⟩
  | publish absent => exact ⟨place, inv.publish owned here rfl absent⟩
  | find joined => exact ⟨place, inv.find owned here rfl joined⟩
  | sets => exact ⟨_, inv.sets owned here rfl⟩
  | sectorX => exact ⟨place, inv.sectorX owned here rfl⟩
  | sectorY => exact ⟨place, inv.sectorY owned here rfl⟩
  | erase joined => exact ⟨place, inv.erase owned here rfl joined⟩
  | nowhere invalid => exact ⟨place, inv.nowhere owned here rfl invalid⟩
  | drop => exact ⟨_, inv.drop owned here rfl⟩

theorem Sited.boot (redis workers : Nat) : Sited (boot redis workers) fun _ => none where
  filed := ⟨fun _ => List.nodup_nil, fun _ _ => iff_of_false List.not_mem_nil nofun⟩
  turns sessionID := (tally_boot redis workers rfl).trans_le (Nat.zero_le 1)
  alone q := (tally_boot redis workers rfl).trans_le (Nat.zero_le 1)
  settled := by
    intro sessionID q joined
    cases joined
  gone := fun _ _ => rfl
  sited := by
    intro stack member f inside
    rcases mem_boot member with rfl | rfl <;>
      · rw [List.mem_singleton.mp inside]
        trivial

theorem Sited.of_run {redis workers : Nat} {s : Conf Frame ChatServer}
    (run : chatServer.Steps (fun s t c => oneHandler s t c = true)
      (ChatThreads.boot redis workers) s) : Owned s ∧ ∃ place, Sited s place := by
  refine run.invariant (I := fun s => Owned s ∧ ∃ place, Sited s place)
    ⟨owned_boot redis workers, _, .boot redis workers⟩ ?_
  intro s t c s' both guarded step
  obtain ⟨owned, place, inv⟩ := both
  exact ⟨owned_step owned step, inv.step owned guarded step⟩

theorem place_of_mapped {s : Conf Frame ChatServer} (owned : Owned s) {sessionID : UINT64}
    {q : PlayerPtr} (joined : s.mem.players sessionID = some q) :
    s.mem.place q = (s.mem.player q).cell := by
  have session := (owned.mapped joined).2.1
  rw [ChatServer.place, session, joined]
  simp only [true_and]
  rfl

theorem place_of_unmapped {s : ChatServer} {q : PlayerPtr}
    (unmapped : ∀ sessionID, s.players sessionID ≠ some q) : s.place q = none :=
  if_neg fun both => unmapped _ both.1

/-- **The sets of the sectors are an index of the players**, in every run in which
the handlers of a session come in turn.  A player is in one set at most, and then
mapped, or about to be cleared away by its `LeaveProc`; and one that no thread has
half moved or is clearing away is in the set of the sector that it is mapped with,
and in no other. -/
theorem sectors_exact {redis workers : Nat} {s : Conf Frame ChatServer}
    (run : chatServer.Steps (fun s t c => oneHandler s t c = true) (boot redis workers) s)
    (q : PlayerPtr) :
    (∀ cell, (s.mem.sectorAt cell).Nodup) ∧
      (∀ cell cell', q ∈ s.mem.sectorAt cell → q ∈ s.mem.sectorAt cell' → cell = cell') ∧
      (∀ cell, q ∈ s.mem.sectorAt cell →
        (∃ sessionID, s.mem.players sessionID = some q) ∨ 0 < s.tally (Frame.clears q)) ∧
      (s.tally (Frame.moves q) = 0 → s.tally (Frame.clears q) = 0 →
        ∀ cell, q ∈ s.mem.sectorAt cell ↔ s.mem.place q = some cell) := by
  obtain ⟨owned, place, inv⟩ := Sited.of_run run
  refine ⟨inv.filed.nodup, ?_, ?_, ?_⟩
  · intro cell cell' first second
    rw [inv.filed.mem] at first second
    exact Option.some.inj (first.symm.trans second)
  · intro cell member
    rw [inv.filed.mem] at member
    by_contra neither
    obtain ⟨unmapped, uncleared⟩ := not_or.mp neither
    have gone := inv.gone (not_exists.mp unmapped) (Nat.eq_zero_of_not_pos uncleared)
    rw [gone] at member
    cases member
  · intro unmoved uncleared cell
    rw [inv.filed.mem]
    by_cases joined : ∃ sessionID, s.mem.players sessionID = some q
    · obtain ⟨sessionID, joined⟩ := joined
      rw [inv.settled joined unmoved, place_of_mapped owned joined]
    · have unmapped := not_exists.mp joined
      rw [inv.gone unmapped uncleared, place_of_unmapped unmapped]

/-- A sector move of a session, by a thread. -/
def movesTo (k : Nat) (sessionID : UINT64) (x y : WORD) : Nat × Choice :=
  requests k sessionID en_PACKET_CS_CHAT_REQ_SECTOR_MOVE
    (List.replicate 8 0 ++ bytesOf x ++ bytesOf y)

/-- Two sessions join and move, and the first one leaves. -/
def moveAndLeave : List (Nat × Choice) :=
  let joins (k : Nat) (sessionID : UINT64) : Nat × Choice := (k, ⟨.join 5 sessionID, true, 0, 100⟩)
  List.replicate 4 (joins 0 1) ++ List.replicate 4 (joins 1 2) ++
    List.replicate 12 (movesTo 0 1 0 0) ++ List.replicate 12 (movesTo 1 2 1 1) ++
    List.replicate 8 (0, ⟨.leave 1, true, 0, 100⟩)

/-- Of two sessions that have moved the first one leaves: the second one's player is in
the set of its sector, and the first one's is in none. -/
theorem sectors_exact_two :
    ∃ s, chatServer.Steps (fun s t c => oneHandler s t c = true) (boot 0 2) s ∧
      s.mem.sectorAt (0, 0) = [] ∧ s.mem.place 1 = some (1, 1) ∧ 1 ∈ s.mem.sectorAt (1, 1) := by
  have reached : (chatServer.runIf (fun s t c => oneHandler s t c = true) moveAndLeave
      (boot 0 2)).map (fun s => (s.mem.sectorAt (0, 0), s.mem.place 1,
        s.tally (Frame.moves 1), s.tally (Frame.clears 1))) = some ([], some (1, 1), 0, 0) := by
    decide +kernel
  obtain ⟨s, taken, found⟩ := Option.map_eq_some_iff.mp reached
  simp only [Prod.mk.injEq] at found
  obtain ⟨left, there, unmoved, uncleared⟩ := found
  have run := Machine.Steps.of_runIf taken
  have exactly := (sectors_exact run 1).2.2.2 unmoved uncleared (1, 1)
  exact ⟨s, run, left, there, exactly.mpr there⟩

/-- The first session moves; before the sets are updated another thread has handled
its leave, and found it without a sector. -/
def moveDuringLeave : List (Nat × Choice) :=
  List.replicate 4 (0, ⟨.join 5 1, true, 0, 100⟩) ++ List.replicate 6 (movesTo 0 1 0 0) ++
    List.replicate 8 (1, ⟨.leave 1, true, 0, 100⟩) ++ List.replicate 6 (movesTo 0 1 0 0)

/-- A session that leaves between the steps of its own move can leave its player in a
set that nobody will take it out of. -/
theorem sectors_ghost :
    ∃ s, chatServer.Steps (fun _ _ _ => True) (boot 0 2) s ∧ 0 ∈ s.mem.sectorAt (0, 0) ∧
      s.mem.place 0 = none ∧ s.tally (Frame.moves 0) = 0 ∧ s.tally (Frame.clears 0) = 0 := by
  have reached : (chatServer.run moveDuringLeave (boot 0 2)).map (fun s =>
      (s.mem.sectorAt (0, 0), s.mem.place 0, s.tally (Frame.moves 0),
        s.tally (Frame.clears 0))) = some ([0], none, 0, 0) := by
    decide +kernel
  obtain ⟨s, taken, found⟩ := Option.map_eq_some_iff.mp reached
  simp only [Prod.mk.injEq] at found
  obtain ⟨there, nowhere, unmoved, uncleared⟩ := found
  exact ⟨s, .of_run taken, there ▸ List.mem_singleton_self 0, nowhere, unmoved, uncleared⟩

end ChatThreads

end ChattingServer
